import AsyncRpc.Callback
import AsyncRpc.ClientHistory

/-! What a client acknowledges it has got, provided that its first call is the first to
be answered. The window takes whatever reply comes first as the end of a run. -/
namespace AsyncRpc.RpcClient
open Interleaving Transition

variable {S : Services} {c c' : RpcClient S}

/-- The xid that a move gives to `UpdateXidRep`. -/
def arriving (c : ClientCfg S) : Move (ClientLabel S) (ClientEvent S) → Option Nat
  | .act i .go =>
      match c.pool[i]? with
      | some (.gotPdu buf) => replyXid buf
      | _ => none
  | _ => none

theorem arriving_reads {c : ClientCfg S} {m : Move (ClientLabel S) (ClientEvent S)} {x : Nat}
    (arrives : x ∈ arriving c m) : ∃ i buf h u, m = .act i .go ∧
      c.pool[i]? = some (.gotPdu buf) ∧ readReply buf = .ok (h, u) ∧ h.xid = x := by
  cases m with
  | spawn => cases arrives
  | act i l =>
      cases l with
      | go =>
          cases taken : c.pool[i]? with
          | none => simp [arriving, taken] at arrives
          | some t =>
              simp only [arriving, taken, Option.mem_def] at arrives
              cases t with
              | gotPdu buf =>
                  obtain ⟨h, u, reads, same⟩ := reads_replyXid arrives
                  exact ⟨i, buf, h, u, rfl, taken, reads, same⟩
              | _ => cases arrives
      | _ => cases arrives

/-- Replies answer calls that were issued. -/
def AnswersIssued (c : ClientCfg S) (m : Move (ClientLabel S) (ClientEvent S)) : Prop :=
  ∀ x ∈ arriving c m, (c.shared.issued x).isSome

/-- The reply that finds the window empty is the one to the first call. -/
def FirstToFirst (c : ClientCfg S) (m : Move (ClientLabel S) (ClientEvent S)) : Prop :=
  ∀ x ∈ arriving c m, c.shared.xidRepWindow = [] → x = 2

instance (c : ClientCfg S) : DecidablePred (AnswersIssued c) := fun m =>
  inferInstanceAs (Decidable (∀ x ∈ arriving c m, (c.shared.issued x).isSome = true))

instance (c : ClientCfg S) : DecidablePred (FirstToFirst c) := fun m =>
  inferInstanceAs (Decidable (∀ x ∈ arriving c m, c.shared.xidRepWindow = [] → x = 2))

/-- Every issued xid up to `xidRep` has had a reply. -/
def CoversAnswered (c : RpcClient S) (xidRep : Nat) : Prop :=
  ∀ y, (c.issued y).isSome → y ≤ xidRep → y ∈ c.received

/-- Xids are given out without a gap, and so is the run that the window stands for. -/
structure FromFirst (c : RpcClient S) : Prop where
  issued : ∀ y, 2 ≤ y → y < c.xid → (c.issued y).isSome
  upto : c.xidRepWindow ≠ [] → XidWindow.Upto (· ∈ c.received) 2 (XidWindow.front c.xidRepWindow)

theorem FromFirst.congr (h : FromFirst c) (xid : c'.xid = c.xid) (issued : c'.issued = c.issued)
    (window : c'.xidRepWindow = c.xidRepWindow) (received : c'.received = c.received) :
    FromFirst c' := by
  constructor
  · rw [xid, issued]
    exact h.issued
  · rw [window, received]
    exact h.upto

theorem FromFirst.call (h : FromFirst c) (p : Nat) (args : S.Args p) (cb : Callback) :
    FromFirst (c.call p args cb).1 := by
  rcases call_cases c p args cb with ⟨same, _⟩ | ⟨same, _⟩ <;> rw [same]
  · exact h
  · refine ⟨fun y low high => ?_, h.upto⟩
    show (Function.update c.issued c.xid _ y).isSome
    by_cases new : y = c.xid
    · rw [new, Function.update_self]
      rfl
    · have high : y < c.xid + 1 := high
      rw [Function.update_of_ne new]
      exact h.issued y low (by omega)

theorem FromFirst.gotPdu (h : FromFirst c) {R : S.Buf → Prop} (known : Known R c) {x : Nat}
    (first : c.xidRepWindow = [] → x = 2) : FromFirst { c with
      xidRepWindow := XidWindow.updateXidRep c.xidRepWindow x
      received := x :: c.received } := by
  refine ⟨h.issued, fun _ => ?_⟩
  refine XidWindow.updateXidRep_upto known.sorted ?_ List.mem_cons_self ?_ ?_
  · intro y member
    exact List.mem_cons_of_mem x (known.window y member)
  · intro empty
    exact (first empty).symm
  · intro some y low high
    exact List.mem_cons_of_mem x (h.upto some y low high)

theorem FromFirst.act {t : ClientTask S} {l : ClientLabel S} {ts : List (ClientTask S)}
    {os : List S.Buf} (h : FromFirst c) (step : Acted c t l c' ts os) {R : S.Buf → Prop}
    (known : Known R c)
    (first : ∀ buf hd u, t = .gotPdu buf → readReply buf = .ok (hd, u) → c.xidRepWindow = [] →
      hd.xid = 2) : FromFirst c' := by
  cases step with
  | gotPdu reads => exact h.gotPdu known (first _ _ _ rfl reads)
  | delivered =>
      rw [bindCallback_eq]
      exact h.congr rfl rfl rfl rfl
  | rebind => exact h.call _ _ _
  | _ => exact h.congr rfl rfl rfl rfl

theorem FromFirst.spawn {e : ClientEvent S} {ts : List (ClientTask S)} (h : FromFirst c)
    (step : Spawned c e c' ts) : FromFirst c' := by
  cases step with
  | call => exact h.call _ _ _
  | bind => exact FromFirst.call (c := c.countBind) (h.congr rfl rfl rfl rfl) _ _ _
  | expire => exact h.congr rfl rfl rfl rfl

theorem acted_gotPdu {buf : S.Buf} {l : ClientLabel S} {ts : List (ClientTask S)} {os : List S.Buf}
    (step : Acted c (.gotPdu buf) l c' ts os) : l = .go := by
  cases step <;> rfl

/-- A front that was reached from the first call acknowledges what was answered. -/
theorem FromFirst.covers {R : S.Buf → Prop} (h : FromFirst c) (known : Known R c) {xidRep : Nat}
    (bound : xidRep ≤ XidWindow.front c.xidRepWindow) : CoversAnswered c xidRep := by
  intro y issued acked
  obtain ⟨i, issued⟩ := Option.isSome_iff_exists.mp issued
  have low := known.least.2 y i issued
  refine h.upto (fun empty => ?_) y low (acked.trans bound)
  rw [empty] at bound
  exact absurd (low.trans (acked.trans bound)) (by decide)

theorem reachable_fromFirst {n : UInt32} {c : ClientCfg S}
    (run : Reachable (machine S).system (fun c m => AnswersIssued c m ∧ FirstToFirst c m)
      (start S n) c) : Traced (fun _ => True) c ∧ FromFirst c.shared := by
  apply Machine.invariant run (I := fun c => Traced (fun _ => True) c ∧ FromFirst c.shared)
  · refine ⟨start_traced _ n, fun y low high => ?_, fun some => absurd rfl some⟩
    exact absurd high (Nat.not_lt_of_le low)
  intro c m c' os ⟨traced, fromFirst⟩ guard moved
  refine ⟨traced.move moved fun _ _ _ => trivial, ?_⟩
  cases moved with
  | @act i l t rest ts taken split ran left =>
      apply fromFirst.act (acted ran) traced.held.shared
      rintro buf hd u rfl reads
      obtain rfl := acted_gotPdu (acted ran)
      exact guard.2 hd.xid (by simp only [arriving, taken, replyXid_reads reads, Option.mem_def])
  | spawn ts ran quiet left => exact fromFirst.spawn (spawned ran)

/-- A first reply to a later call leaves the first call acknowledged and unanswered. -/
theorem FromFirst.exposed {R : S.Buf → Prop} (h : FromFirst c) (known : Known R c) {x : Nat}
    (empty : c.xidRepWindow = []) (issued : (c.issued x).isSome) (later : x ≠ 2) :
    ¬ CoversAnswered { c with
      xidRepWindow := XidWindow.updateXidRep c.xidRepWindow x
      received := x :: c.received } (XidWindow.front (XidWindow.updateXidRep c.xidRepWindow x)) := by
  intro covers
  obtain ⟨i, issued⟩ := Option.isSome_iff_exists.mp issued
  have low := known.least.2 x i issued
  have high : x < c.xid := by
    refine Nat.lt_of_not_le fun free => ?_
    rw [known.fresh x free] at issued
    cases issued
  have front : XidWindow.front (XidWindow.updateXidRep c.xidRepWindow x) = x := by
    rw [empty]
    rfl
  have first : 2 ∈ x :: c.received :=
    covers 2 (h.issued 2 (Nat.le_refl _) (by omega)) (front.symm ▸ low)
  rcases List.mem_cons.mp first with same | old
  · exact later same.symm
  · exact known.acknowledged 2 old empty

/-- While the first reply to come is the one to the first call, no header acknowledges
a call without a reply; and the window would let the next header do so as soon as a
reply to a later call is the first. -/
theorem acknowledges_answered_iff (n : UInt32) (c : ClientCfg S)
    (run : Reachable (machine S).system (fun c m => AnswersIssued c m ∧ FirstToFirst c m)
      (start S n) c) :
    (∀ x h, c.shared.headers x = some h → CoversAnswered c.shared h.xidRep) ∧
      ∀ m c', AnswersIssued c m → (machine S).system.next c m = some c' →
        (CoversAnswered c'.shared (XidWindow.front c'.shared.xidRepWindow) ↔ FirstToFirst c m) := by
  obtain ⟨traced, fromFirst⟩ := reachable_fromFirst run
  have known := traced.held.shared
  refine ⟨fun x h built => fromFirst.covers known (known.headers x h built).xidRep, ?_⟩
  intro m c' answers moved
  constructor
  · intro covers x arrives empty
    by_contra later
    have issued := answers x arrives
    obtain ⟨i, buf, hd, u, rfl, here, reads, rfl⟩ := arriving_reads arrives
    obtain ⟨os, moved⟩ := Machine.moved_of_system moved
    cases moved with
    | act t rest ts taken split ran left =>
        cases here.symm.trans taken
        have step : Acted c.shared (.gotPdu buf) .go c'.shared ts os := acted ran
        generalize c'.shared = d at step covers
        cases step with
        | gotPduThrew threw => cases threw.symm.trans reads
        | gotPdu reads' =>
            cases reads.symm.trans reads'
            exact fromFirst.exposed known empty issued later covers
  · intro first
    obtain ⟨traced', fromFirst'⟩ := reachable_fromFirst (run.step ⟨answers, first⟩ moved)
    exact fromFirst'.covers traced'.held.shared (Nat.le_refl _)

/-- `Bind` is sent and answered, and then the client calls procedure 7. -/
def bindThenCall (x : Nat) : List (Move (ClientLabel .sample) (ClientEvent .sample)) :=
  let bound : Json := (replyDoc .sample BIND ⟨x, .ok⟩ (77 : UInt32)).json
  [.act 0 .go, .act 0 .go, .act 0 .transmit, .act 0 (.sent .ok), .act 0 (.received bound .ok),
    .act 0 .go, .act 0 .go, .act 0 .go, .act 0 .go, .spawn (.call 7 (1 : UInt32)), .act 0 .go,
    .act 0 .go]

theorem bindThenCall_run :
    ∃ c, (machine .sample).system.exec (fun c m => decide (AnswersIssued c m ∧ FirstToFirst c m))
        (start .sample 5) (.act 0 (.connected .ok) :: .spawn .bind :: bindThenCall 2) = some c ∧
      c.shared.headers 3 = some ⟨3, 7, 5, 77, 2⟩ :=
  System.exec_any (by decide +kernel)

theorem acknowledges_answered_iff_called : ∃ c,
    Reachable (machine .sample).system (fun c m => AnswersIssued c m ∧ FirstToFirst c m)
        (start .sample 5) c ∧ CoversAnswered c.shared 2 := by
  obtain ⟨c, ran, header⟩ := bindThenCall_run
  have run := (System.exec_reachable ran).mono fun _ _ met => of_decide_eq_true met
  exact ⟨c, run, (acknowledges_answered_iff 5 c run).1 3 _ header⟩

/-- `Bind` is called twice and the second call, with xid 3, is answered first. -/
theorem bindsOverlap_run :
    ∃ c, (machine .sample).system.exec (fun c m => decide (AnswersIssued c m)) (start .sample 5)
        (.act 0 (.connected .ok) :: .spawn .bind :: .spawn .bind :: bindThenCall 3) = some c ∧
      c.shared.headers 4 = some ⟨4, 7, 5, 77, 3⟩ ∧ (c.shared.issued 2).isSome = true ∧
        c.shared.received = [3] :=
  System.exec_any (by decide +kernel)

theorem unanswered_bind_acknowledged : ¬ ∀ (n : UInt32) (c : ClientCfg .sample), 0 < n →
    Reachable (machine .sample).system AnswersIssued (start .sample n) c →
      ∀ x h, c.shared.headers x = some h → CoversAnswered c.shared h.xidRep := by
  intro always
  obtain ⟨c, ran, header, issued, received⟩ := bindsOverlap_run
  have run := (System.exec_reachable ran).mono fun _ _ met => of_decide_eq_true met
  have covers := always 5 c (by decide) run 4 _ header
  have answered := covers 2 issued (by decide)
  rw [received] at answered
  exact absurd answered (by decide)

end AsyncRpc.RpcClient
