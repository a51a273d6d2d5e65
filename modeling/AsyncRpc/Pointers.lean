import AsyncRpc.Callback
import AsyncRpc.ClientHistory

/-! Raw pointers to callers outlive the lock under which they were looked up, and
`GotPdu` destroys the caller it has claimed. -/
namespace AsyncRpc.RpcClient
open Interleaving Transition

variable {S : Services}

/-- The caller that an activity has a raw pointer to, or to whose timer. What `GotPdu` has
claimed it owns. -/
def points : ClientTask S → Option Nat
  | .callWindow x _ _ | .callSend x _ _ _ | .callWait x => some x
  | .onTimerExpired x | .resend x => some x
  | .sendFailed x _ | .failCallback x _ | .reconnect x => some x
  | _ => none

/-- The caller that the next section of an activity destroys, at the end of `GotPdu` or as
an exception leaves it. -/
def destroys (c : RpcClient S) : ClientTask S → Option Nat
  | .finish x => some x
  | .deliver h u => (c.heap h.xid).bind fun caller =>
      if (u.get (S.rep caller.proc)).1.toOption.isSome then none else some h.xid
  | _ => none

/-- The pointer of an activity, if it has one, leads to a caller. -/
def Follows (c : RpcClient S) (t : ClientTask S) : Prop := ∀ x ∈ points t, (c.heap x).isSome

def NoneDangles (c : ClientCfg S) : Prop := ∀ t ∈ c.pool, Follows c.shared t

/-- A move destroys a caller only when nothing points to it: its `Call` has armed the
timer, no expiry is queued or in its handler, and neither a failed send that found it nor
a reconnect for it is under way. -/
def Spares (c : ClientCfg S) : Move (ClientLabel S) (ClientEvent S) → Prop
  | .act i _ => ∀ t ∈ c.pool[i]?, ∀ x ∈ destroys c.shared t, ∀ u ∈ c.pool, points u ≠ some x
  | .spawn _ => True

instance (c : ClientCfg S) : DecidablePred (Spares c)
  | .act i _ => inferInstanceAs
      (Decidable (∀ t ∈ c.pool[i]?, ∀ x ∈ destroys c.shared t, ∀ u ∈ c.pool, points u ≠ some x))
  | .spawn _ => isTrue trivial

variable {R : S.Buf → Prop} {c c' : RpcClient S} {x y : Nat}

theorem stored_live {caller : Caller S} (live : (c.heap x).isSome) :
    ((c.store y (some caller)).heap x).isSome := by
  by_cases same : x = y
  · rw [same, store_same]
    rfl
  · rw [store_other same]
    exact live

theorem destroyed_live (live : (c.heap x).isSome) (other : some y ≠ some x) :
    ((c.store y none).heap x).isSome := by
  rw [store_other fun same => other (congrArg some same.symm)]
  exact live

theorem call_live (c : RpcClient S) (p : Nat) (args : S.Args p) (cb : Callback)
    (live : (c.heap x).isSome) : ((c.call p args cb).1.heap x).isSome := by
  rcases call_cases c p args cb with ⟨same, _⟩ | ⟨same, _⟩ <;> rw [same]
  · exact live
  · exact stored_live live

theorem call_follows (c : RpcClient S) (p : Nat) (args : S.Args p) (cb : Callback) :
    ∀ t ∈ (c.call p args cb).2, Follows (c.call p args cb).1 t := by
  rcases call_cases c p args cb with ⟨same, _⟩ | ⟨same, _⟩ <;> rw [same]
  · intro t member
    cases member
  · intro t member x pointed
    cases List.mem_singleton.mp member
    cases pointed
    exact Option.isSome_of_eq_some (store_same c c.xid _)

theorem afterCallback_follows (c : RpcClient S) (caller : Caller S) (e : Err) :
    ∀ t ∈ afterCallback caller e, Follows c t := by
  intro t member x pointed
  unfold afterCallback at member
  split_ifs at member
  · cases List.mem_singleton.mp member
    cases pointed
  · cases member

/-- A section takes out of the heap only what it destroys. -/
theorem acted_live {t : ClientTask S} {l : ClientLabel S} {ts : List (ClientTask S)}
    {os : List S.Buf} (step : Acted c t l c' ts os) (spared : destroys c t ≠ some x)
    (live : (c.heap x).isSome) : (c'.heap x).isSome := by
  cases step with
  | callSend | callWait | timedOut | sendGaveUp | claimed => exact stored_live live
  | @deliverThrew h u caller e here threw =>
      apply destroyed_live live
      simpa [destroys, here, threw, Except.toOption] using spared
  | delivered =>
      rw [bindCallback_eq]
      exact live
  | finish => exact destroyed_live live spared
  | rebind => exact call_live c _ _ _ live
  | _ => exact live

theorem acted_destroys {t : ClientTask S} {l : ClientLabel S} {ts : List (ClientTask S)}
    {os : List S.Buf} (step : Acted c t l c' ts os) (destroyed : destroys c t = some x) :
    c'.heap x = none := by
  cases step with
  | @deliverThrew h u caller e here threw =>
      have same : h.xid = x := by simpa [destroys, here, threw, Except.toOption] using destroyed
      subst same
      exact store_same _ _ _
  | @delivered h u caller v here value =>
      simp [destroys, here, value, Except.toOption] at destroyed
  | finish =>
      cases destroyed
      exact store_same _ _ _
  | _ => cases destroyed

/-- What a section leaves behind points to callers again: a handler passes its pointer on,
a failed send finds its caller in `callers_`, and a new call has one of its own. -/
theorem acted_follows {t : ClientTask S} {l : ClientLabel S} {ts : List (ClientTask S)}
    {os : List S.Buf} (step : Acted c t l c' ts os) (known : Known R c) (follows : Follows c t) :
    ∀ u ∈ ts, Follows c' u := by
  intro u member
  cases step with
  | callWindow | timerRetry | sendReconnect =>
      cases List.mem_singleton.mp member
      exact follows
  | sendGaveUp =>
      cases List.mem_singleton.mp member
      exact fun x pointed => stored_live (follows x pointed)
  | callSend =>
      rcases List.mem_cons.mp member with rfl | member
      · exact fun x pointed => nomatch pointed
      · cases List.mem_singleton.mp member
        exact fun x pointed => stored_live (follows x pointed)
  | @sendFailed y buf sent e failed pending =>
      cases List.mem_singleton.mp member
      intro x pointed
      cases pointed
      obtain ⟨caller, live, _⟩ := known.pending y pending
      exact Option.isSome_of_eq_some live
  | timedOut | failCallback => exact afterCallback_follows _ _ _ u member
  | delivered =>
      rcases List.mem_cons.mp member with rfl | member
      · exact fun x pointed => nomatch pointed
      · exact afterCallback_follows _ _ _ u member
  | rebind => exact call_follows c _ _ _ u member
  | _ =>
      first
        | (cases List.mem_singleton.mp member
           exact fun x pointed => nomatch pointed)
        | cases member

theorem spawned_live {e : ClientEvent S} {ts : List (ClientTask S)} (step : Spawned c e c' ts)
    (live : (c.heap x).isSome) : (c'.heap x).isSome := by
  cases step with
  | call => exact call_live c _ _ _ live
  | bind => exact call_live c.countBind _ _ _ live
  | expire => exact stored_live live

theorem spawned_follows {e : ClientEvent S} {ts : List (ClientTask S)} (step : Spawned c e c' ts) :
    ∀ u ∈ ts, Follows c' u := by
  cases step with
  | call => exact call_follows c _ _ _
  | bind => exact call_follows c.countBind _ _ _
  | expire live =>
      intro u member x pointed
      cases List.mem_singleton.mp member
      cases pointed
      exact stored_live (Option.isSome_of_eq_some live)

theorem NoneDangles.move {c c' : ClientCfg S} {m : Move (ClientLabel S) (ClientEvent S)}
    {os : List S.Buf} (h : NoneDangles c) (known : Known R c.shared)
    (moved : (machine S).Moved c c' os m) (spares : Spares c m) : NoneDangles c' := by
  have held : Holds (fun _ => True) Follows c := ⟨trivial, h⟩
  refine (held.move moved ?_ ?_).task
  · rintro i l t rest ts rfl taken split follows ran
    refine ⟨trivial, acted_follows (acted ran) known follows, fun u stays live x pointed => ?_⟩
    have member : u ∈ c.pool := split.mem_iff.mpr (List.mem_cons_of_mem t stays)
    apply acted_live (acted ran) _ (live x pointed)
    intro destroyed
    exact spares t taken x destroyed u member pointed
  · rintro e ts rfl ran
    exact ⟨trivial, spawned_follows (spawned ran), fun u _ live x pointed =>
      spawned_live (spawned ran) (live x pointed)⟩

/-- A section that destroys a caller leaves every pointer to it dangling: the activity
that runs it has none. -/
theorem NoneDangles.spares {c c' : ClientCfg S} {m : Move (ClientLabel S) (ClientEvent S)}
    {os : List S.Buf} (h : NoneDangles c') (moved : (machine S).Moved c c' os m) : Spares c m := by
  cases moved with
  | spawn => trivial
  | @act i l t rest ts taken split ran left =>
      intro t' taken' x destroyed u member pointed
      cases taken.symm.trans taken'
      have gone := acted_destroys (acted ran) destroyed
      rcases List.mem_cons.mp (split.mem_iff.mp member) with rfl | other
      · cases u with
        | finish | deliver => cases pointed
        | _ => cases destroyed
      · have stays : u ∈ c'.pool := left ▸ List.mem_append_right ts other
        have live := h u stays x pointed
        rw [gone] at live
        cases live

theorem reachable_noneDangles {nonce : UInt32} {c : ClientCfg S}
    (run : Reachable (machine S).system Spares (start S nonce) c) :
    Traced (fun _ => True) c ∧ NoneDangles c := by
  apply Machine.invariant run (I := fun c => Traced (fun _ => True) c ∧ NoneDangles c)
  · refine ⟨start_traced _ nonce, fun t member => ?_⟩
    cases List.mem_singleton.mp member
    exact fun x pointed => nomatch pointed
  · intro c m c' os inv spares moved
    exact ⟨inv.1.move moved fun _ _ _ => trivial, inv.2.move inv.1.held.shared moved spares⟩

/-- As long as `GotPdu` destroys only callers that nothing points to, every activity that
has a pointer finds its caller, and a step keeps it so if and only if it does the same. -/
theorem no_pointer_dangles (nonce : UInt32) (c : ClientCfg S)
    (run : Reachable (machine S).system Spares (start S nonce) c) :
    NoneDangles c ∧
      ∀ m c', (machine S).system.next c m = some c' → (NoneDangles c' ↔ Spares c m) := by
  obtain ⟨traced, none⟩ := reachable_noneDangles run
  refine ⟨none, fun m c' moved => ?_⟩
  obtain ⟨os, moved⟩ := Machine.moved_of_system moved
  exact ⟨fun h => h.spares moved, none.move traced.held.shared moved⟩

/-- A call of `Bind` is answered once its timer is armed. -/
def answeredArmed : List (Move (ClientLabel .sample) (ClientEvent .sample)) :=
  let bound : Json := (replyDoc .sample BIND ⟨2, .ok⟩ (77 : UInt32)).json
  [.act 0 (.connected .ok), .spawn .bind, .act 0 .go, .act 0 .go, .act 0 .transmit,
    .act 0 (.sent .ok), .act 1 .go, .act 0 (.received bound .ok), .act 0 .go, .act 0 .go,
    .act 0 .go, .act 0 .go, .act 0 .go]

theorem answeredArmed_run :
    ∃ c, (machine .sample).system.exec (fun c m => decide (Spares c m)) (start .sample 5)
        answeredArmed = some c ∧ (c.shared.heap 2).isNone :=
  ⟨_, rfl, rfl⟩

theorem no_pointer_dangles_armed : ∃ c,
    Reachable (machine .sample).system Spares (start .sample 5) c ∧
      (c.shared.heap 2).isNone ∧ NoneDangles c := by
  obtain ⟨c, ran, gone⟩ := answeredArmed_run
  have run := (System.exec_reachable ran).mono fun _ _ met => of_decide_eq_true met
  exact ⟨c, run, gone, (no_pointer_dangles 5 c run).1⟩

/-- The reply overtakes the `Call`, which has sent its request and has not armed the timer. -/
def answeredUnarmed : List (Move (ClientLabel .sample) (ClientEvent .sample)) :=
  let bound : Json := (replyDoc .sample BIND ⟨2, .ok⟩ (77 : UInt32)).json
  [.act 0 (.connected .ok), .spawn .bind, .act 0 .go, .act 0 .go, .act 0 .transmit,
    .act 0 (.sent .ok), .act 0 (.received bound .ok), .act 0 .go, .act 0 .go,
    .act 0 .go, .act 0 .go, .act 0 .go]

theorem answeredUnarmed_run :
    ∃ c, (machine .sample).system.exec (fun _ _ => true) (start .sample 5) answeredUnarmed = some c ∧
      c.pool[0]? = some (.callWait 2) ∧ (c.shared.heap 2).isNone :=
  ⟨_, rfl, rfl, rfl⟩

theorem timer_armed_dangling : ¬ ∀ (nonce : UInt32) (c : ClientCfg .sample),
    Reachable (machine .sample).system anyStep (start .sample nonce) c → NoneDangles c := by
  intro always
  obtain ⟨c, ran, waiting, gone⟩ := answeredUnarmed_run
  have follows := always 5 c (System.exec_reachable ran).any _ (List.mem_of_getElem? waiting)
  have live := follows 2 rfl
  rw [Option.isNone_iff_eq_none.mp gone] at live
  cases live

end AsyncRpc.RpcClient
