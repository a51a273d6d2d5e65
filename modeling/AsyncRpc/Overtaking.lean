import AsyncRpc.Acknowledgement
import AsyncRpc.Callback

/-! A reply against the acknowledgement of its own xid. `G h u` says that the reply
with header `h` and rest `u` holds the result of a handler. -/
namespace AsyncRpc
open Interleaving Transition

namespace RpcClient

variable {S : Services} {R : S.Buf → Prop} {G G' : ReplyHeader → Unmarshall → Prop}
variable {c c' : RpcClient S}

/-- `r` acknowledges no pending call. -/
def Below (c : RpcClient S) (r : Nat) : Prop := ∀ y ∈ c.callers, r < y

/-- Whether `x` is pending, and how often its callback has run. -/
def settled (c : RpcClient S) (x : Nat) : Nat := (if x ∈ c.callers then 1 else 0) + ran c x

def Published (c : RpcClient S) : Prop := ∀ x h, c.headers x = some h → Below c h.xidRep

/-- What an activity relies on when nothing pending is acknowledged. -/
def TaskSound (G : ReplyHeader → Unmarshall → Prop) (c : RpcClient S) : ClientTask S → Prop
  | .callSend _ _ _ r => Below c r
  | .claimed h u => G h u ∧ ∃ caller, c.heap h.xid = some caller ∧ caller.done = false
  | .deliver h u => G h u ∧ ∃ caller, c.heap h.xid = some caller
  | .finish x => 0 < ran c x
  | _ => True

/-- The caller of `x` can extract every result of its call. -/
def Extracts (G : ReplyHeader → Unmarshall → Prop) (c : RpcClient S) (x : Nat) : Prop :=
  ∀ h u p args, G h u → h.xid = x → c.issued x = some ⟨p, args⟩ → ∃ v, (u.get (S.rep p)).1 = .ok v

theorem Below.mono (grown : Grown c c') {r : Nat} (low : r < c.xid) (below : Below c r) :
    Below c' r := by
  intro y member
  by_cases early : y < c.xid
  · exact below y (grown.callers y early member)
  · omega

theorem Extracts.earlier {x : Nat} (extracts : Extracts G c' x)
    (issued : ∀ i, c.issued x = some i → c'.issued x = some i) : Extracts G c x :=
  fun h u p args result here found => extracts h u p args result here (issued _ found)

theorem deliver_fits (known : Known R c) {h : ReplyHeader} {u : Unmarshall}
    (extracts : Extracts G c h.xid) {caller : Caller S} {e : Exn} (result : G h u)
    (live : c.heap h.xid = some caller) (threw : (u.get (S.rep caller.proc)).1 = .error e) :
    False := by
  obtain ⟨args, issued⟩ := (known.callers h.xid caller live).issued
  obtain ⟨v, value⟩ := extracts h u caller.proc args result rfl issued
  rw [threw] at value
  cases value

/-- What a section does to the account of a call: only a result that cannot be extracted
takes from it. -/
structure Accounts (G : ReplyHeader → Unmarshall → Prop) (c c' : RpcClient S) (t : ClientTask S)
    (ts : List (ClientTask S)) (x : Nat) : Prop where
  less : settled c' x + weigh (carrying x) ts ≤ settled c x + carrying x t
  same : Extracts G c x → settled c' x + weigh (carrying x) ts = settled c x + carrying x t
  issued : c'.issued = c.issued

theorem Accounts.balanced {t : ClientTask S} {ts : List (ClientTask S)} {x : Nat}
    (same : settled c' x + weigh (carrying x) ts = settled c x + carrying x t)
    (issued : c'.issued = c.issued) : Accounts G c c' t ts x :=
  ⟨same.le, fun _ => same, issued⟩

theorem acted_settled {t : ClientTask S} {l : ClientLabel S} {ts : List (ClientTask S)}
    {os : List S.Buf} (step : Acted c t l c' ts os) (known : Known R c) (task : TaskKnown R c t)
    (sound : TaskSound G c t) (pos : 0 < c.cltNonce) (once : t ≠ .rebind) (x : Nat) :
    Accounts G c c' t ts x := by
  cases step with
  | @claim h u member =>
      refine .balanced ?_ rfl
      simp only [settled, weigh_cons, weigh_nil, carrying, Nat.add_zero]
      by_cases same : h.xid = x
      · subst same
        rw [if_neg (Finset.notMem_erase _ _), if_pos member, if_pos rfl]
        exact Nat.add_right_comm _ _ _
      · rw [if_neg same]
        simp only [Finset.mem_erase, ne_eq, Ne.symm same, not_false_eq_true, true_and]
        rfl
  | @claimedDone h u caller live done =>
      obtain ⟨_, caller', live', undone⟩ := sound
      cases live.symm.trans live'
      rw [done] at undone
      cases undone
  | @deliverThrew h u caller e live threw =>
      refine ⟨Nat.le_add_right (settled c x) _, fun extracts => ?_, rfl⟩
      by_cases here : h.xid = x
      · subst here
        exact (deliver_fits known extracts sound.1 live threw).elim
      · exact congrArg (settled c x + ·) (if_neg here).symm
  | @delivered h u caller v live value =>
      rw [bindCallback_eq]
      refine .balanced ?_ rfl
      rw [weigh_cons, weigh_afterCallback rfl]
      exact (congrArg (_ + ·) (ranCallback_ran c h.xid caller h.err (some v) x)).trans
        (Nat.add_assoc _ _ _).symm
  | timedOut _ _ zero => exact absurd zero.symm (UInt32.ne_of_lt pos)
  | failCallback => exact absurd task.2.symm (UInt32.ne_of_lt pos)
  | rebind => exact absurd rfl once
  | _ => exact .balanced rfl rfl

/-- What a section can do to the object of a live caller. -/
theorem acted_heap {t : ClientTask S} {l : ClientLabel S} {ts : List (ClientTask S)}
    {os : List S.Buf} (step : Acted c t l c' ts os) (pos : 0 < c.cltNonce) (once : t ≠ .rebind)
    {y : Nat} {caller : Caller S} (live : c.heap y = some caller) :
    (∃ caller', c'.heap y = some caller' ∧ caller'.done = caller.done) ∨
      (∃ h u caller', t = .claimed h u ∧ h.xid = y ∧ c'.heap y = some caller') ∨
      t = .finish y ∨
      ∃ h u caller e, t = .deliver h u ∧ h.xid = y ∧ c.heap y = some caller ∧
        (u.get (S.rep caller.proc)).1 = .error e := by
  have stored : ∀ {z : Nat} {old new : Caller S}, c.heap z = some old → new.done = old.done →
      ∃ caller', (c.store z (some new)).heap y = some caller' ∧ caller'.done = caller.done := by
    intro z old new here kept
    by_cases same : y = z
    · subst same
      cases live.symm.trans here
      exact ⟨new, store_same _ _ _, kept⟩
    · exact ⟨caller, (store_other same).trans live, rfl⟩
  cases step with
  | callSend here => exact .inl (stored here rfl)
  | callWait here => exact .inl (stored here rfl)
  | timedOut _ _ zero => exact absurd zero.symm (UInt32.ne_of_lt pos)
  | sendGaveUp _ zero => exact absurd zero.symm (UInt32.ne_of_lt pos)
  | @claimed h u old here undone =>
      by_cases same : y = h.xid
      · subst same
        exact .inr (.inl ⟨h, u, _, rfl, rfl, store_same _ _ _⟩)
      · exact .inl ⟨caller, (store_other same).trans live, rfl⟩
  | @deliverThrew h u old e here threw =>
      by_cases same : y = h.xid
      · subst same
        exact .inr (.inr (.inr ⟨h, u, old, e, rfl, rfl, here, threw⟩))
      · exact .inl ⟨caller, (store_other same).trans live, rfl⟩
  | @delivered h u old v here value =>
      exact .inl ⟨caller, by rw [bindCallback_eq]; exact live, rfl⟩
  | @finish x =>
      by_cases same : y = x
      · exact .inr (.inr (.inl (same ▸ rfl)))
      · exact .inl ⟨caller, (store_other same).trans live, rfl⟩
  | rebind => exact absurd rfl once
  | _ => exact .inl ⟨caller, live, rfl⟩

theorem acted_ran {t : ClientTask S} {l : ClientLabel S} {ts : List (ClientTask S)}
    {os : List S.Buf} (step : Acted c t l c' ts os) (once : t ≠ .rebind) (x : Nat) :
    ran c x ≤ ran c' x := by
  cases step with
  | timedOut | failCallback => rw [ranCallback_ran]; exact Nat.le_add_right _ _
  | @delivered h u caller v live value =>
      rw [bindCallback_eq]
      exact (Nat.le_add_right _ _).trans (ranCallback_ran c h.xid caller h.err (some v) x).ge
  | rebind => exact absurd rfl once
  | _ => exact Nat.le_refl _

/-- `u` stands still beside `t`, and no xid has two of them. -/
theorem TaskSound.stable {t u : ClientTask S} {l : ClientLabel S} {ts : List (ClientTask S)}
    {os : List S.Buf} (sound : TaskSound G c u) (step : Acted c t l c' ts os) (grown : Grown c c')
    (task : TaskKnown R c u) (mover : TaskSound G c t) (pos : 0 < c.cltNonce) (once : t ≠ .rebind)
    (low : XidWindow.front c.xidRepWindow < c.xid)
    (alone : ∀ x, settled c x + carrying x t + carrying x u ≤ 1) : TaskSound G c' u := by
  have kept : ∀ {y : Nat} {caller : Caller S}, carrying y u = 1 → c.heap y = some caller →
      ∃ caller', c'.heap y = some caller' ∧ caller'.done = caller.done := by
    intro y caller carried live
    have one := alone y
    rcases acted_heap step pos once live with kept | ⟨h, v, _, rfl, rfl, _⟩ | rfl |
      ⟨h, v, _, _, rfl, rfl, _⟩
    · exact kept
    · rw [carried] at one
      simp only [carrying, if_true] at one
      omega
    · have finished : 0 < ran c y := mover
      simp only [carried, settled] at one
      omega
    · rw [carried] at one
      simp only [carrying, if_true] at one
      omega
  cases u with
  | callSend => exact Below.mono grown (Nat.lt_of_le_of_lt task.2 low) sound
  | claimed h v =>
      obtain ⟨result, caller, live, undone⟩ := sound
      obtain ⟨caller', live', same⟩ := kept (if_pos rfl) live
      exact ⟨result, caller', live', same.trans undone⟩
  | deliver h v =>
      obtain ⟨result, caller, live⟩ := sound
      obtain ⟨caller', live', _⟩ := kept (if_pos rfl) live
      exact ⟨result, caller', live'⟩
  | finish x => exact Nat.lt_of_lt_of_le sound (acted_ran step once x)
  | _ => trivial

theorem acted_sound {t : ClientTask S} {l : ClientLabel S} {ts : List (ClientTask S)}
    {os : List S.Buf} (step : Acted c t l c' ts os) (grown : Grown c c') (known : Known R c)
    (published : Published c) (sound : TaskSound G c t) (pos : 0 < c.cltNonce) (once : t ≠ .rebind)
    (low : XidWindow.front c.xidRepWindow < c.xid)
    (guard : ∀ x p req, l = .go → t = .callWindow x p req →
      Below c (XidWindow.front c.xidRepWindow))
    (result : ∀ h u, t = .claim h u → h.xid ∈ c.callers → G h u) :
    Published c' ∧ ∀ u ∈ ts, TaskSound G c' u := by
  have older : ∀ x h, c.headers x = some h → Below c' h.xidRep := fun x h here =>
    Below.mono grown (Nat.lt_of_le_of_lt (known.headers x h here).xidRep low) (published x h here)
  have quiet : c'.headers = c.headers → Published c' := fun same x h here => older x h (same ▸ here)
  cases step with
  | callWindow => exact ⟨published, by simpa [TaskSound] using guard _ _ _ rfl rfl⟩
  | @callSend x p req xidRep caller live =>
      refine ⟨fun y h here => ?_, by simp [TaskSound]⟩
      by_cases same : y = x
      · subst same
        cases (Function.update_self (f := c.headers) y _).symm.trans here
        exact sound
      · exact older y h ((Function.update_of_ne same _ _).symm.trans here)
  | @claim h u member =>
      obtain ⟨caller, live, undone⟩ := known.pending h.xid member
      refine ⟨quiet rfl, ?_⟩
      simpa [TaskSound] using ⟨result h u rfl member, caller, live, undone pos⟩
  | @claimed h u caller live undone =>
      refine ⟨quiet rfl, ?_⟩
      simpa [TaskSound, store] using sound.1
  | @delivered h u caller v live value =>
      refine ⟨quiet (by rw [bindCallback_eq]; rfl), fun w member => ?_⟩
      rcases List.mem_cons.mp member with rfl | member
      · have same := ranCallback_ran c h.xid caller h.err (some v) h.xid
        show 0 < ran _ h.xid
        rw [bindCallback_eq]
        refine Nat.lt_of_lt_of_le ?_ same.ge
        rw [if_pos rfl]
        exact Nat.succ_pos _
      · unfold afterCallback at member
        split_ifs at member
        · cases List.mem_singleton.mp member; trivial
        · cases member
  | failCallback | timedOut =>
      exact ⟨quiet rfl, by unfold afterCallback; split_ifs <;> simp [TaskSound]⟩
  | claimedDone live done =>
      obtain ⟨_, caller, live', undone⟩ := sound
      cases live.symm.trans live'
      rw [done] at undone
      cases undone
  | rebind => exact absurd rfl once
  | _ => exact ⟨quiet rfl, by simp [TaskSound]⟩

theorem call_settled (known : Known R c) (p : Nat) (args : S.Args p) (cb : Callback) (x : Nat) :
    settled (c.call p args cb).1 x + weigh (carrying x) (c.call p args cb).2 + present (c.issued x) =
      settled c x + present ((c.call p args cb).1.issued x) := by
  rcases call_cases c p args cb with ⟨same, _⟩ | ⟨same, _⟩ <;> rw [same]
  · rfl
  · simp only [weigh_cons, weigh_nil, carrying, settled, Nat.add_zero]
    by_cases new : x = c.xid
    · subst new
      have free : c.xid ∉ c.callers := by
        intro member
        obtain ⟨caller, live, _⟩ := known.pending c.xid member
        obtain ⟨args, issued⟩ := (known.callers c.xid caller live).issued
        rw [known.fresh c.xid (Nat.le_refl _)] at issued
        cases issued
      rw [if_pos (Finset.mem_insert_self _ _), if_neg free, known.fresh c.xid (Nat.le_refl _),
        Function.update_self, Nat.zero_add]
      exact Nat.add_comm 1 _
    · simp only [Finset.mem_insert, new, false_or, Function.update_of_ne new]
      rfl

theorem spawned_settled {e : ClientEvent S} {ts : List (ClientTask S)} (step : Spawned c e c' ts)
    (known : Known R c) (x : Nat) :
    settled c' x + weigh (carrying x) ts + present (c.issued x) =
      settled c x + present (c'.issued x) := by
  cases step with
  | call => exact call_settled known _ _ _ x
  | bind => exact call_settled (c := c.countBind) (counted_known known) _ _ _ x
  | expire => rfl

theorem call_sound (published : Published c) (known : Known R c) (p : Nat) (args : S.Args p)
    (cb : Callback) (low : XidWindow.front c.xidRepWindow < c.xid) :
    Published (c.call p args cb).1 ∧ ∀ u ∈ (c.call p args cb).2, TaskSound G (c.call p args cb).1 u := by
  have grown := call_grown known p args cb
  rcases call_cases c p args cb with ⟨same, _⟩ | ⟨same, _⟩ <;> rw [same] at grown ⊢
  · exact ⟨published, by simp⟩
  · refine ⟨fun x h here => ?_, by simp [TaskSound]⟩
    exact Below.mono grown (Nat.lt_of_le_of_lt (known.headers x h here).xidRep low)
      (published x h here)

theorem call_heap (known : Known R c) (p : Nat) (args : S.Args p) (cb : Callback) {y : Nat}
    {caller : Caller S} (live : c.heap y = some caller) :
    (c.call p args cb).1.heap y = some caller := by
  rcases call_cases c p args cb with ⟨same, _⟩ | ⟨same, _⟩ <;> rw [same]
  · exact live
  · have other : y ≠ c.xid := by
      rintro rfl
      obtain ⟨args, issued⟩ := (known.callers c.xid caller live).issued
      rw [known.fresh c.xid (Nat.le_refl _)] at issued
      cases issued
    exact (store_other other).trans live

theorem spawned_heap {e : ClientEvent S} {ts : List (ClientTask S)} (step : Spawned c e c' ts)
    (known : Known R c) {y : Nat} {caller : Caller S} (live : c.heap y = some caller) :
    ∃ caller', c'.heap y = some caller' ∧ caller'.done = caller.done := by
  cases step with
  | call => exact ⟨caller, call_heap known _ _ _ live, rfl⟩
  | bind => exact ⟨caller, call_heap (c := c.countBind) (counted_known known) _ _ _ live, rfl⟩
  | @expire x old here armed =>
      by_cases same : y = x
      · subst same
        cases live.symm.trans here
        exact ⟨_, store_same _ _ _, rfl⟩
      · exact ⟨caller, (store_other same).trans live, rfl⟩

/-- A call is pending when it is issued, and no event takes it out again. -/
theorem call_pending (c : RpcClient S) (p : Nat) (args : S.Args p) (cb : Callback) :
    (∀ x ∈ c.callers, x ∈ (c.call p args cb).1.callers) ∧ ∀ x i,
      (c.call p args cb).1.issued x = some i →
        x ∈ (c.call p args cb).1.callers ∨ c.issued x = some i := by
  rcases call_cases c p args cb with ⟨same, _⟩ | ⟨same, _⟩ <;> rw [same]
  · exact ⟨fun _ => id, fun _ _ => .inr⟩
  · refine ⟨fun x => Finset.mem_insert_of_mem, fun x i issued => ?_⟩
    by_cases new : x = c.xid
    · exact .inl (Finset.mem_insert.mpr (.inl new))
    · exact .inr ((Function.update_of_ne new _ _).symm.trans issued)

theorem spawned_pending {e : ClientEvent S} {ts : List (ClientTask S)} (step : Spawned c e c' ts) :
    (∀ x ∈ c.callers, x ∈ c'.callers) ∧
      ∀ x i, c'.issued x = some i → x ∈ c'.callers ∨ c.issued x = some i := by
  cases step with
  | call => exact call_pending c _ _ _
  | bind => exact call_pending c.countBind _ _ _
  | expire => exact ⟨fun _ => id, fun _ _ => .inr⟩

theorem spawned_callbacks {e : ClientEvent S} {ts : List (ClientTask S)} (step : Spawned c e c' ts)
    (x : Nat) : ran c' x = ran c x := by
  cases step with
  | call => exact call_ran c _ _ _ x
  | bind => exact call_ran c.countBind _ _ _ x
  | expire => rfl

theorem spawned_received {e : ClientEvent S} {ts : List (ClientTask S)} (step : Spawned c e c' ts) :
    c'.received = c.received := by
  have called : ∀ (c : RpcClient S) p args cb, (c.call p args cb).1.received = c.received := by
    intro c p args cb
    unfold call
    split_ifs <;> rfl
  cases step with
  | call => exact called c _ _ _
  | bind => exact called c.countBind _ _ _
  | expire => rfl

theorem spawned_sound {e : ClientEvent S} {ts : List (ClientTask S)} (step : Spawned c e c' ts)
    (published : Published c) (known : Known R c)
    (low : XidWindow.front c.xidRepWindow < c.xid) :
    Published c' ∧ ∀ u ∈ ts, TaskSound G c' u := by
  cases step with
  | call => exact call_sound published known _ _ _ low
  | bind => exact call_sound (c := c.countBind) published (counted_known known) _ _ _ low
  | expire => exact ⟨published, by simp [TaskSound]⟩

theorem TaskSound.spawned {u : ClientTask S} {e : ClientEvent S} {ts : List (ClientTask S)}
    (sound : TaskSound G c u) (step : Spawned c e c' ts) (known : Known R c) (task : TaskKnown R c u)
    (low : XidWindow.front c.xidRepWindow < c.xid) : TaskSound G c' u := by
  cases u with
  | callSend =>
      exact Below.mono (spawned_known step known).1 (Nat.lt_of_le_of_lt task.2 low) sound
  | claimed h v =>
      obtain ⟨result, caller, live, undone⟩ := sound
      obtain ⟨caller', live', same⟩ := spawned_heap step known live
      exact ⟨result, caller', live', same.trans undone⟩
  | deliver h v =>
      obtain ⟨result, caller, live⟩ := sound
      obtain ⟨caller', live', _⟩ := spawned_heap step known live
      exact ⟨result, caller', live'⟩
  | finish x =>
      show 0 < ran c' x
      rw [spawned_callbacks step x]
      exact sound
  | _ => trivial

/-- An issued call is pending, or a result has claimed it: then it is being delivered
or completed, one of the two, unless the result could not be extracted. A received
reply of a pending call is on its way to claim it. -/
structure Settling (G : ReplyHeader → Unmarshall → Prop) (c : ClientCfg S) : Prop where
  held : Holds Published (TaskSound G) c
  fate : ∀ x, settled c.shared x + weigh (carrying x) c.pool ≤ present (c.shared.issued x) ∧
    (Extracts G c.shared x →
      settled c.shared x + weigh (carrying x) c.pool = present (c.shared.issued x))
  taken : ∀ x i, c.shared.issued x = some i → x ∈ c.shared.callers ∨ ∃ h u, G h u ∧ h.xid = x
  claims : ∀ x ∈ c.shared.received, x ∈ c.shared.callers → ∃ h u, .claim h u ∈ c.pool ∧ h.xid = x

theorem Settling.mono {c : ClientCfg S} (h : Settling G c) (more : ∀ hd u, G hd u → G' hd u) :
    Settling G' c := by
  refine ⟨⟨h.held.shared, fun t member => ?_⟩, fun x => ⟨(h.fate x).1, fun extracts => ?_⟩,
    fun x i issued => ?_, h.claims⟩
  · have sound := h.held.task t member
    cases t with
    | claimed | deliver => exact ⟨more _ _ sound.1, sound.2⟩
    | _ => exact sound
  · exact (h.fate x).2 fun hd u p args result => extracts hd u p args (more hd u result)
  · exact (h.taken x i issued).imp_right fun ⟨hd, u, result, here⟩ => ⟨hd, u, more hd u result, here⟩

/-- Two activities that can be told apart do not deliver the same reply twice. -/
theorem Settling.alone {c : ClientCfg S} (h : Settling G c) {t u : ClientTask S}
    {rest : List (ClientTask S)} (split : c.pool.Perm (t :: rest)) (member : u ∈ rest) (x : Nat) :
    settled c.shared x + carrying x t + carrying x u ≤ 1 := by
  have fate := (h.fate x).1
  have bound := present_le (c.shared.issued x)
  have part := weigh_pos (w := carrying x) member
  rw [weigh_perm (carrying x) split, weigh_cons] at fate
  omega

theorem acted_received {t : ClientTask S} {l : ClientLabel S} {ts : List (ClientTask S)}
    {os : List S.Buf} (step : Acted c t l c' ts os) (once : t ≠ .rebind) {x : Nat}
    (received : x ∈ c'.received) (pending : x ∈ c'.callers) :
    x ∈ c.callers ∧ ((∃ h u, .claim h u ∈ ts ∧ h.xid = x) ∨
      (x ∈ c.received ∧ ∀ h u, t = .claim h u → h.xid ≠ x)) := by
  cases step with
  | gotPdu =>
      refine ⟨pending, ?_⟩
      rcases List.mem_cons.mp received with rfl | old
      · exact .inl ⟨_, _, List.mem_singleton_self _, rfl⟩
      · exact .inr ⟨old, fun h u same => by cases same⟩
  | @claim h u member =>
      refine ⟨Finset.mem_of_mem_erase pending, .inr ⟨received, ?_⟩⟩
      rintro h' u' same rfl
      cases same
      exact Finset.notMem_erase _ _ pending
  | claimGone absent =>
      refine ⟨pending, .inr ⟨received, ?_⟩⟩
      rintro h' u' same rfl
      cases same
      exact absent pending
  | @delivered h u caller v live value =>
      rw [bindCallback_eq] at received pending
      exact ⟨pending, .inr ⟨received, fun h u same => by cases same⟩⟩
  | rebind => exact absurd rfl once
  | _ => exact ⟨pending, .inr ⟨received, fun h u same => by cases same⟩⟩

theorem acted_taken {t : ClientTask S} {l : ClientLabel S} {ts : List (ClientTask S)}
    {os : List S.Buf} (step : Acted c t l c' ts os) (once : t ≠ .rebind) {x : Nat}
    (pending : x ∈ c.callers) : x ∈ c'.callers ∨ ∃ h u, t = .claim h u ∧ h.xid = x := by
  cases step with
  | @claim h u member =>
      by_cases same : x = h.xid
      · exact .inr ⟨h, u, rfl, same.symm⟩
      · exact .inl (Finset.mem_erase.mpr ⟨same, pending⟩)
  | @delivered h u caller v live value =>
      rw [bindCallback_eq]
      exact .inl pending
  | rebind => exact absurd rfl once
  | _ => exact .inl pending

theorem Settling.move {c c' : ClientCfg S} {m : Move (ClientLabel S) (ClientEvent S)}
    {os : List S.Buf} (h : Settling G c) (moved : (machine S).Moved c c' os m) (traced : Traced R c)
    (pos : 0 < c.shared.cltNonce) (once : .rebind ∉ c.pool)
    (low : XidWindow.front c.shared.xidRepWindow < c.shared.xid)
    (early : ∀ x ∈ c.shared.received, x < c.shared.xid)
    (guard : ∀ i x p req, m = .act i .go → c.pool[i]? = some (.callWindow x p req) →
      Below c.shared (XidWindow.front c.shared.xidRepWindow))
    (result : ∀ hd u, .claim hd u ∈ c.pool → hd.xid ∈ c.shared.callers → G hd u) :
    Settling G c' := by
  have grown := traced.grown moved
  have known := traced.held.shared
  have onceHere : ∀ {t}, t ∈ c.pool → t ≠ .rebind := fun member same => once (same ▸ member)
  refine ⟨Holds.move h.held moved ?_ ?_, fun x => ?_, fun x i issued => ?_,
    fun x received pending => ?_⟩
  · rintro i l t rest ts rfl taken split sound ran
    have member := List.mem_of_getElem? taken
    obtain ⟨shared, fresh⟩ := acted_sound (acted ran) grown known h.held.shared sound pos
      (onceHere member) low (fun x p req label same => guard i x p req (label ▸ rfl) (same ▸ taken))
      fun hd u same => result hd u (same ▸ member)
    refine ⟨shared, fresh, fun u inRest other => ?_⟩
    exact other.stable (acted ran) grown
      (traced.held.task u (split.mem_iff.mpr (List.mem_cons_of_mem t inRest))) sound pos
      (onceHere member) low (h.alone split inRest)
  · rintro e ts rfl ran
    obtain ⟨shared, fresh⟩ := spawned_sound (spawned ran) h.held.shared known low
    exact ⟨shared, fresh, fun u member other =>
      other.spawned (spawned ran) known (traced.held.task u member) low⟩
  · obtain ⟨less, fate⟩ := h.fate x
    have before : Extracts G c'.shared x → Extracts G c.shared x := fun extracts =>
      extracts.earlier (grown.issued x)
    cases moved with
    | act t rest ts taken split ran left =>
        have member := List.mem_of_getElem? taken
        have accounts := acted_settled (acted ran) known (traced.held.task t member)
          (h.held.task t member) pos (onceHere member) x
        have account := weigh_act (carrying x) split left
        have low := accounts.less
        rw [accounts.issued]
        refine ⟨by omega, fun extracts => ?_⟩
        have same := accounts.same (before extracts)
        have fate := fate (before extracts)
        omega
    | spawn ts ran quiet left =>
        have same := spawned_settled (spawned ran) known x
        rw [left, weigh_append]
        refine ⟨by omega, fun extracts => ?_⟩
        have fate := fate (before extracts)
        omega
  · cases moved with
    | act t rest ts taken split ran left =>
        have member := List.mem_of_getElem? taken
        have same := (acted_settled (acted ran) known (traced.held.task t member)
          (h.held.task t member) pos (onceHere member) x).issued
        rcases h.taken x i (same ▸ issued) with pending | claimed
        · rcases acted_taken (acted ran) (onceHere member) pending with still | ⟨hd, u, rfl, rfl⟩
          · exact .inl still
          · exact .inr ⟨hd, u, result hd u member pending, rfl⟩
        · exact .inr claimed
    | spawn ts ran quiet left =>
        obtain ⟨kept, new⟩ := spawned_pending (spawned ran)
        rcases new x i issued with pending | old
        · exact .inl pending
        · exact (h.taken x i old).imp_left (kept x)
  · cases moved with
    | act t rest ts taken split ran left =>
        have member := List.mem_of_getElem? taken
        obtain ⟨before, new | ⟨old, other⟩⟩ :=
          acted_received (acted ran) (onceHere member) received pending
        · obtain ⟨hd, u, fresh, same⟩ := new
          exact ⟨hd, u, left ▸ List.mem_append_left _ fresh, same⟩
        · obtain ⟨hd, u, inPool, same⟩ := h.claims x old before
          rcases List.mem_cons.mp (split.mem_iff.mp inPool) with rfl | inRest
          · exact absurd same (other hd u rfl)
          · exact ⟨hd, u, left ▸ List.mem_append_right _ inRest, same⟩
    | spawn ts ran quiet left =>
        rw [spawned_received (spawned ran)] at received
        obtain ⟨hd, u, inPool, here⟩ := h.claims x received (grown.callers x (early x received) pending)
        exact ⟨hd, u, left ▸ List.mem_append_right _ inPool, here⟩

end RpcClient

namespace Network

variable {S : Services} {κ : Type}

/-- The header and the rest of the reply that holds the result of `ex`. -/
def resultOf (ex : Execution S) : ReplyHeader × Unmarshall :=
  (⟨ex.xid, ex.err⟩, ⟨(replyDoc S ex.proc ⟨ex.xid, ex.err⟩ ex.reply).json.normal, 0⟩)

/-- A reply to client `k` that a handler of the server made. -/
def IsResult (N : Nonces κ Unit) (net : Network S κ Unit) (k : κ) (h : ReplyHeader)
    (u : Unmarshall) : Prop :=
  ∃ ex ∈ (net.server ()).shared.executions, ex.cltNonce = N.client k ∧ (h, u) = resultOf ex

/-- The section of `Call` that reads the front of `xid_rep_window_`. -/
def readsWindow : ClientTask S → ClientLabel S → Bool
  | .callWindow _ _ _, .go => true
  | _, _ => false

/-- No call that client `k` acknowledges in a new request is still pending. -/
def ReadsSettled (k : κ) (net : Network S κ Unit) : NetworkAction S κ Unit → Prop :=
  OnClient k fun m => m.runs readsWindow (net.client k).pool = true →
    ∀ y ∈ (net.client k).shared.callers, XidWindow.front (net.client k).shared.xidRepWindow < y

instance [DecidableEq κ] (k : κ) (net : Network S κ Unit) (a : NetworkAction S κ Unit) :
    Decidable (ReadsSettled k net a) :=
  inferInstanceAs (Decidable (OnClient k _ a))

variable {N : Nonces κ Unit} {net net' : Network S κ Unit}

/-- The one result of a call is extracted where its type reads it back. -/
theorem Traced.extracts (traced : Traced N net) {k : κ} {x : Nat} {ex : Execution S}
    (alone : (net.server ()).shared.executionsOf (N.client k) x = [ex]) {v : S.Rep ex.proc}
    (readable : (S.rep ex.proc).readback ex.reply = .ok v) :
    RpcClient.Extracts (IsResult N net k) (net.client k).shared x := by
  rintro h u p args ⟨ex', member, client, same⟩ rfl issued
  cases same
  have listed := RpcServer.mem_executionsOf.mpr ⟨member, client, rfl⟩
  rw [alone, List.mem_singleton] at listed
  subst listed
  obtain ⟨k', _, client', _, _, _, args', issued', _⟩ := traced.execution member
  obtain rfl : k = k' := N.client_injective (client.symm.trans client')
  cases issued.symm.trans issued'
  exact ⟨v, (replyDoc_get _ _ _ _).trans readable⟩

theorem Traced.received_early (traced : Traced N net) {k : κ} {x : Nat}
    (received : x ∈ (net.client k).shared.received) : x < (net.client k).shared.xid := by
  obtain ⟨h, u, got, rfl⟩ := (traced.client k).held.shared.received x received
  obtain ⟨i, issued⟩ := traced.got_issued got
  apply Nat.lt_of_not_le
  intro late
  rw [(traced.client k).held.shared.fresh _ late] at issued
  cases issued

theorem Traced.front_early (traced : Traced N net) (k : κ) :
    XidWindow.front (net.client k).shared.xidRepWindow < (net.client k).shared.xid := by
  have known := (traced.client k).held.shared
  by_cases empty : (net.client k).shared.xidRepWindow = []
  · rw [empty]
    exact Nat.lt_of_lt_of_le (by decide) known.least.1
  · exact traced.received_early (known.window _ (XidWindow.front_mem empty))

/-- While nothing pending is acknowledged, a pending call is claimed by a result. -/
theorem Traced.claim_result (traced : Traced N net) {k : κ}
    (published : (net.client k).shared.Published) {h : ReplyHeader} {u : Unmarshall}
    (got : RpcClient.Got (net.IsReply k) h u) (pending : h.xid ∈ (net.client k).shared.callers) :
    IsResult N net k h u := by
  have known := (traced.client k).held.shared
  cases traced.got got with
  | @result v ex member client header rest => exact ⟨ex, member, client, by rw [header, rest]; rfl⟩
  | oldServer built bound other =>
      obtain ⟨v', here⟩ := traced.bound ((known.headers _ _ built).named bound)
      exact absurd here other
  | @forgotten v req built acked =>
      obtain ⟨args, issued⟩ := (known.headers _ _ built).issued
      have low := known.least.2 _ _ issued
      obtain ⟨s, h', req', asked, client, same⟩ :=
        (traced.server v).shared.acked (N.client k) (by omega)
      obtain ⟨header, client', _⟩ := traced.asked asked
      obtain rfl : s.1 = k := N.client_injective (client'.symm.trans client)
      have below := published _ h' header h.xid pending
      omega

theorem Traced.ran_result (traced : Traced N net) {k : κ} {x : Nat}
    (ran : 0 < RpcClient.ran (net.client k).shared x) :
    ∃ ex ∈ (net.server ()).shared.executions, ex.cltNonce = N.client k ∧ ex.xid = x ∧
      ∃ v, (S.rep ex.proc).readback ex.reply = .ok v ∧
        ⟨x, ex.proc, ex.err, some v⟩ ∈ (net.client k).shared.callbacks := by
  obtain ⟨r, member, same⟩ := List.countP_pos_iff.mp ran
  obtain rfl : r.xid = x := of_decide_eq_true same
  have known := (traced.client k).held.shared.runs r member
  cases reply : r.reply with
  | none =>
      have zero := (known.absent reply).2
      rw [traced.cltNonce k] at zero
      exact absurd zero.symm (UInt32.ne_of_lt (N.client_pos k))
  | some v =>
      obtain ⟨_, args, args', made, _, _, read, executed⟩ :=
        traced.replied (known.replied v reply)
      refine ⟨_, executed, rfl, rfl, v, read, ?_⟩
      rw [← reply]
      exact member

variable [DecidableEq κ]

theorem reachable_settling {k : κ}
    (run : Reachable (system S κ Unit) (ReadsSettled k) (start S N) net) :
    RpcClient.Settling (IsResult N net k) (net.client k) := by
  apply run.invariant (I := fun net => RpcClient.Settling (IsResult N net k) (net.client k))
  · refine ⟨⟨fun x h built => (by cases built), ?_⟩, fun _ => ⟨Nat.le_refl _, fun _ => rfl⟩,
      fun x i issued => (by cases issued), fun x received => by cases received⟩
    intro t member
    cases List.mem_singleton.mp member
    trivial
  intro net a net' run settling safe moved
  have traced := reachable_traced run
  have known := (traced.client k).held.shared
  have grown := (stepped moved).changed.grown traced
  refine RpcClient.Settling.mono (G := IsResult N net k) ?_ fun h u => ?_
  · rcases (stepped moved).atClient k with same | ⟨m, os, moved, _, cause⟩
    · rw [same]; exact settling
    have pos : 0 < (net.client k).shared.cltNonce := traced.cltNonce k ▸ N.client_pos k
    refine settling.move moved (traced.client k) pos
      (traced.rebinds_never k) (traced.front_early k) (fun x => traced.received_early) ?_ ?_
    · rintro i x p req rfl taken
      rcases cause with rfl | ⟨i, j, buf, _, other⟩
      · exact safe rfl (Move.runs_act taken _)
      · cases other
    · intro h u member pending
      exact traced.claim_result settling.held.shared ((traced.client k).held.task _ member).1 pending
  · rintro ⟨ex, member, rest⟩
    exact ⟨ex, (grown.server ()).executions ex member, rest⟩

/-- Where the result of `ex` stands on its way through `GotPdu`. -/
def Completing (ex : Execution S) : ClientTask S → Prop
  | .claim h u | .claimed h u | .deliver h u => (h, u) = resultOf ex
  | _ => False

/-- As long as client `k` acknowledges no pending call, whatever takes a caller out of
`callers_` is the result of its handler. A call with a received reply was executed once,
and where the reply type reads that result back it completes the call: `GotPdu` can go
on with it, or the callback ran. -/
theorem reply_not_overtaken (N : Nonces κ Unit) (k : κ) (net : Network S κ Unit)
    (run : Reachable (system S κ Unit) (ReadsSettled k) (start S N) net) :
    (∀ h u, .claim h u ∈ (net.client k).pool → h.xid ∈ (net.client k).shared.callers →
        IsResult N net k h u) ∧
      (∀ h u, .claimed h u ∈ (net.client k).pool → IsResult N net k h u) ∧
      ∀ x ∈ (net.client k).shared.received, ∃ ex,
        (net.server ()).shared.executionsOf (N.client k) x = [ex] ∧
        ∀ v, (S.rep ex.proc).readback ex.reply = .ok v →
          (∃ t ∈ (net.client k).pool, Completing ex t ∧ ((net.client k).shared.act t .go).isSome) ∨
            ⟨x, ex.proc, ex.err, some v⟩ ∈ (net.client k).shared.callbacks := by
  have traced := reachable_traced run
  have settling := reachable_settling run
  have claim : ∀ h u, .claim h u ∈ (net.client k).pool →
      h.xid ∈ (net.client k).shared.callers → IsResult N net k h u := fun h u member pending =>
    traced.claim_result settling.held.shared ((traced.client k).held.task _ member).1 pending
  refine ⟨claim, fun h u member => (settling.held.task _ member).1, fun x received => ?_⟩
  obtain ⟨h, u, got, here⟩ := (traced.client k).held.shared.received x received
  obtain ⟨i, issued⟩ := traced.got_issued got
  rw [here] at issued
  -- the reply that claims the call, or has claimed it, holds the result of its execution
  have claimed : ∃ h u, IsResult N net k h u ∧ h.xid = x := by
    rcases settling.taken x i issued with pending | taken
    · obtain ⟨h, u, member, rfl⟩ := settling.claims x received pending
      exact ⟨h, u, claim h u member pending, rfl⟩
    · exact taken
  obtain ⟨_, _, ⟨ex, executed, client, same⟩, xid⟩ := claimed
  cases same
  have alone := (execution_alone run executed (client ▸ N.client_pos k)).1
  rw [client, show ex.xid = x from xid] at alone
  refine ⟨ex, alone, fun v readable => ?_⟩
  have only : ∀ h u, IsResult N net k h u → h.xid = x → (h, u) = resultOf ex := by
    rintro h u ⟨ex', member, client', same⟩ rfl
    cases same
    have listed := RpcServer.mem_executionsOf.mpr ⟨member, client', rfl⟩
    rw [alone, List.mem_singleton] at listed
    rw [listed]
    rfl
  by_cases pending : x ∈ (net.client k).shared.callers
  · obtain ⟨h, u, member, rfl⟩ := settling.claims x received pending
    have stage : Completing ex (.claim h u) := only h u (claim h u member pending) rfl
    exact .inl ⟨_, member, stage, by simp [RpcClient.act, pending]⟩
  have fate := (settling.fate x).2 (traced.extracts alone readable)
  rw [issued, RpcClient.settled, if_neg pending] at fate
  by_cases carried : ∃ t ∈ (net.client k).pool, RpcClient.carrying x t ≠ 0
  · obtain ⟨t, member, carries⟩ := carried
    left
    refine ⟨t, member, ?_⟩
    cases t with
    | claimed h u =>
        obtain ⟨result, caller, live, undone⟩ := settling.held.task _ member
        exact ⟨only h u result (ite_ne_right_iff.mp carries).1, by simp [RpcClient.act, live]⟩
    | deliver h u =>
        obtain ⟨result, caller, live⟩ := settling.held.task _ member
        exact ⟨only h u result (ite_ne_right_iff.mp carries).1, by simp [RpcClient.act, live]⟩
    | _ => exact absurd rfl carries
  · push Not at carried
    rw [weigh_eq_zero carried] at fate
    have ran : 0 < RpcClient.ran (net.client k).shared x := by
      have one : RpcClient.present (some i) = 1 := rfl
      omega
    obtain ⟨ex', member, client', xid', v', read, called⟩ := traced.ran_result ran
    have listed := RpcServer.mem_executionsOf.mpr ⟨member, client', xid'⟩
    rw [alone, List.mem_singleton] at listed
    subst listed
    cases readable.symm.trans read
    exact .inr called

/-- Call 3 is answered while a copy of its request is in flight, and `GotPdu` has not
claimed it yet. -/
def answered : List (NetworkAction .sample Unit Unit) :=
  bindRun () ++
  [.client () (.spawn (.call 7 (1 : UInt32))), .client () (.act 0 .go), .client () (.act 0 .go),
    .client () (.act 0 .transmit), .copyRequest 0, .client () (.act 0 (.sent .ok)),
    .client () (.act 1 .go), .request () 0 0, .server () (.act 0 .go), .server () (.act 0 .go),
    .server () (.act 0 .go), .server () (.act 0 .go),
    .server () (.act 0 (.returns 7 (9 : UInt32) .ok)), .server () (.act 0 .go),
    .server () (.act 0 .transmit), .server () (.act 0 (.sent .ok)), .reply () 0 0,
    .client () (.act 0 .go)]

theorem answered_run : ∃ net : Network .sample Unit Unit,
    (system .sample Unit Unit).exec (fun net a => decide (ReadsSettled () net a))
      (start .sample pair) answered = some net ∧ (net.client ()).shared.received = [3, 2] :=
  System.exec_any (by decide +kernel)

theorem reply_not_overtaken_answered : ∃ net : Network .sample Unit Unit,
    Reachable (system .sample Unit Unit) (ReadsSettled ()) (start .sample pair) net ∧
      ∃ ex, (net.server ()).shared.executionsOf (pair.client ()) 3 = [ex] := by
  obtain ⟨net, ran, received⟩ := answered_run
  have run := (System.exec_reachable ran).mono fun _ _ met => of_decide_eq_true met
  obtain ⟨ex, one, _⟩ := (reply_not_overtaken pair () net run).2.2 3 (by simp [received])
  exact ⟨net, run, ex, one⟩

/-- Call 4 acknowledges 3 while 3 is pending, and then the copy reaches the server. -/
def overtaken : List (NetworkAction .sample Unit Unit) :=
  answered ++
  [.client () (.spawn (.call 7 (2 : UInt32))), .client () (.act 0 .go), .client () (.act 0 .go),
    .client () (.act 0 .transmit), .request () 0 0, .server () (.act 0 .go),
    .server () (.act 0 .go), .server () (.act 0 .go), .server () (.act 0 .go),
    .server () (.act 0 (.returns 7 (9 : UInt32) .ok)), .server () (.act 0 .go),
    .server () (.act 0 .transmit), .server () (.act 0 (.sent .ok)), .request () 0 0,
    .server () (.act 0 .go), .server () (.act 0 .go), .server () (.act 0 .go),
    .server () (.act 0 .transmit), .reply () 3 0, .client () (.act 0 .go), .client () (.act 0 .go)]

/-- The reply with which a caller was taken out of `callers_`. -/
def claimedBy : ClientTask S → Option ReplyHeader
  | .claimed h _ => some h
  | _ => none

theorem overtaken_run : ∃ net : Network .sample Unit Unit,
    (system .sample Unit Unit).exec (fun _ _ => true) (start .sample pair) overtaken = some net ∧
      (∃ t ∈ (net.client ()).pool, claimedBy t = some ⟨3, .atmostOnceFailure⟩) ∧
      (net.server ()).shared.executions.all (fun ex => ex.err = .ok) = true :=
  System.exec_any (by decide +kernel)

theorem claimed_by_failure : ¬ ∀ net : Network .sample Unit Unit,
    Reachable (system .sample Unit Unit) anyStep (start .sample pair) net →
      ∀ h u, .claimed h u ∈ (net.client ()).pool → IsResult pair net () h u := by
  intro always
  obtain ⟨net, ran, ⟨t, taken, by_failure⟩, fine⟩ := overtaken_run
  cases t with
  | claimed h u =>
      cases by_failure
      obtain ⟨ex, member, _, same⟩ := always net (System.exec_reachable ran).any _ u taken
      have failed : ex.err = .atmostOnceFailure := (congrArg (fun r => r.1.err) same).symm
      have worked : ex.err = .ok := by simpa using List.all_eq_true.mp fine ex member
      rw [failed] at worked
      cases worked
  | _ => cases by_failure

end Network

end AsyncRpc
