import AsyncRpc.Callback
import AsyncRpc.ClientHistory

/-! `callers_` against the calls that are pending: a handler that completes a call has to
take it out as well. -/
namespace AsyncRpc.RpcClient
open Interleaving Transition

variable {S : Services}

/-- The activity is an operation of the socket or a deadline that has passed, and no
handler or `Call` has begun with it. -/
def waits : ClientTask S → Bool
  | .connect | .receive | .send _ _ _ | .reconnect _ | .onTimerExpired _ => true
  | _ => false

def BetweenHandlers (c : ClientCfg S) : Prop := ∀ t ∈ c.pool, waits t = true

instance (c : ClientCfg S) : Decidable (BetweenHandlers c) :=
  inferInstanceAs (Decidable (∀ t ∈ c.pool, waits t = true))

/-- The `Call` that an activity is part of. -/
def callOf : ClientTask S → Option Nat
  | .callWindow x _ _ | .callSend x _ _ _ | .callWait x => some x
  | _ => none

theorem waits_idle {t : ClientTask S} (waiting : waits t = true) (x : Nat) :
    callOf t = none ∧ carrying x t = 0 ∧ owes x t = 0 := by
  cases t with
  | connect | receive | send | reconnect | onTimerExpired => exact ⟨rfl, rfl, rfl⟩
  | _ => cases waiting

/-- A `Call` was given this xid, built its request and has returned OK. -/
def ReturnedOk (c : ClientCfg S) (x : Nat) : Prop :=
  (c.shared.headers x).isSome ∧ ∀ t ∈ c.pool, callOf t ≠ some x

/-- A `Call` was given this xid and no exception has left it. -/
def Called (c : ClientCfg S) (x : Nat) : Prop :=
  (c.shared.headers x).isSome ∨ ∃ t ∈ c.pool, callOf t = some x

/-- Where no activity is about to complete it, a call is in `callers_` until its callback
runs. -/
def ExactlyPending (c : ClientCfg S) : Prop := ∀ x,
  (x ∈ c.shared.callers → Called c x ∧ ran c.shared x = 0) ∧
    (Called c x → ran c.shared x = 0 →
      (∀ t ∈ c.pool, carrying x t = 0 ∧ owes x t = 0) → x ∈ c.shared.callers)

/-- What a section has to respect: `Buf` takes the request of a registered call, the timer
and a failed send complete only calls that are out of `callers_`, and a reply that was
claimed can be extracted, unless its call is settled without it. -/
def RetiresEntry (c : RpcClient S) (settled : Nat → Prop) : ClientTask S → Prop
  | .callSend x p req xidRep =>
      x ∈ c.callers → ((req.putRequest (c.header x p xidRep)).buf S.toCodec).isOk = true
  | .onTimerExpired x => c.cltNonce = 0 → ∀ caller ∈ c.heap x, caller.done = false → x ∉ c.callers
  | .failCallback x _ => x ∉ c.callers
  | .deliver h u => ∀ caller ∈ c.heap h.xid,
      (u.get (S.rep caller.proc)).1.toOption.isSome = true ∨ settled h.xid
  | _ => True

/-- Another handler completes the call too, or an exception has left its `Call`. -/
def SettledElsewhere (c : ClientCfg S) (x : Nat) : Prop := 1 < completions x c ∨ ¬ Called c x

def Retires (c : ClientCfg S) : Move (ClientLabel S) (ClientEvent S) → Prop
  | .act i _ => ∀ t ∈ c.pool[i]?, RetiresEntry c.shared (SettledElsewhere c) t
  | .spawn _ => True

instance (c : ClientCfg S) (x : Nat) : Decidable (Called c x) :=
  inferInstanceAs (Decidable ((c.shared.headers x).isSome = true ∨ ∃ t ∈ c.pool, callOf t = some x))

instance (c : ClientCfg S) : DecidablePred (SettledElsewhere c) := fun x =>
  inferInstanceAs (Decidable (1 < completions x c ∨ ¬ Called c x))

instance (c : RpcClient S) (settled : Nat → Prop) [DecidablePred settled] (t : ClientTask S) :
    Decidable (RetiresEntry c settled t) := by
  cases t <;> unfold RetiresEntry <;> infer_instance

instance (c : ClientCfg S) : DecidablePred (Retires c)
  | .act i _ => inferInstanceAs (Decidable (∀ t ∈ c.pool[i]?, RetiresEntry c.shared _ t))
  | .spawn _ => isTrue trivial

def listed (c : RpcClient S) (x : Nat) : Nat := if x ∈ c.callers then 1 else 0

/-- The account of one call, when `w` activities are to build its header, `k` carry it and
`o` owe it its callback. -/
structure Accounted (x : Nat) (c : RpcClient S) (w k o : Nat) : Prop where
  once : listed c x + k ≤ present (c.issued x)
  sent : listed c x ≤ w + present (c.headers x)
  unanswered : x ∈ c.callers → ran c x = 0
  issued : ran c x + o ≠ 0 → present (c.issued x) = 1
  kept : w + present (c.headers x) ≤ listed c x + ran c x + k + o
  done : ∀ caller, c.heap x = some caller → caller.done = true → ran c x + o ≠ 0

variable {x y w k o : Nat} {c c' : RpcClient S} {caller caller' : Caller S} {R : S.Buf → Prop}

theorem listed_gone (gone : x ∉ c.callers) : listed c x = 0 := if_neg gone

theorem listed_le (c : RpcClient S) (x : Nat) : listed c x ≤ 1 := by
  unfold listed
  split_ifs <;> omega

theorem Accounted.congr (h : Accounted x c w k o) (callers : x ∈ c'.callers ↔ x ∈ c.callers)
    (issued : c'.issued x = c.issued x) (headers : c'.headers x = c.headers x)
    (runs : ran c' x = ran c x) (heap : ∀ caller, c'.heap x = some caller → caller.done = true →
      ∃ old, c.heap x = some old ∧ old.done = true) : Accounted x c' w k o := by
  have same : listed c' x = listed c x := by simp only [listed, callers]
  constructor
  · rw [same, issued]
    exact h.once
  · rw [same, headers]
    exact h.sent
  · rw [callers, runs]
    exact h.unanswered
  · rw [runs, issued]
    exact h.issued
  · rw [same, runs, headers]
    exact h.kept
  · intro caller live done
    obtain ⟨old, live, done⟩ := heap caller live done
    rw [runs]
    exact h.done old live done

/-- An update of a caller that does not set `done_`. -/
theorem Accounted.store (h : Accounted x c w k o) (live : c.heap y = some caller)
    (keep : caller'.done = true → caller.done = true) :
    Accounted x (c.store y (some caller')) w k o := by
  refine h.congr .rfl rfl rfl rfl ?_
  intro found here done
  by_cases same : x = y
  · subst same
    cases (store_same c x _).symm.trans here
    exact ⟨caller, live, keep done⟩
  · exact ⟨found, (store_other same).symm.trans here, done⟩

theorem Accounted.destroy (h : Accounted x c w k o) (y : Nat) :
    Accounted x (c.store y none) w k o := by
  refine h.congr .rfl rfl rfl rfl ?_
  intro found here done
  by_cases same : x = y
  · subst same
    cases (store_same c x _).symm.trans here
  · exact ⟨found, (store_other same).symm.trans here, done⟩

/-- An update that sets `done_` for a callback that is owed from now on. -/
theorem Accounted.owe (h : Accounted x c w k o) (known : Known R c)
    (live : c.heap y = some caller) :
    Accounted x (c.store y (some caller')) w k (o + if y = x then 1 else 0) := by
  by_cases same : y = x
  · subst same
    obtain ⟨args, issued⟩ := (known.callers y caller live).issued
    rw [if_pos rfl]
    refine ⟨h.once, h.sent, h.unanswered, fun _ => ?_, h.kept.trans (Nat.le_succ _), fun _ _ _ => ?_⟩
    · show present (c.issued y) = 1
      rw [issued]
      rfl
    · exact Nat.succ_ne_zero _
  · rw [if_neg same]
    refine h.congr .rfl rfl rfl rfl ?_
    intro found here done
    exact ⟨found, (store_other (Ne.symm same)).symm.trans here, done⟩

/-- A callback that was owed has run. -/
theorem Accounted.paid (h : Accounted x c w k (o + if y = x then 1 else 0)) {e : Err}
    {reply : Option (S.Rep caller.proc)} (gone : y ∉ c.callers) :
    Accounted x (c.ranCallback y caller e reply) w k o := by
  have runs := ranCallback_ran c y caller e reply x
  have total : ran (c.ranCallback y caller e reply) x + o = ran c x + (o + if y = x then 1 else 0) := by
    rw [runs, Nat.add_assoc, Nat.add_comm o]
  refine ⟨h.once, h.sent, fun member => ?_, ?_, ?_, ?_⟩
  · have other : y ≠ x := fun same => gone (same ▸ member)
    rw [runs, if_neg other]
    exact h.unanswered member
  · rw [total]
    exact h.issued
  · have kept := h.kept
    show w + present (c.headers x) ≤ listed c x + ran (c.ranCallback y caller e reply) x + k + o
    omega
  · rw [total]
    exact h.done

theorem Accounted.claim (h : Accounted x c w k o) (member : y ∈ c.callers) :
    Accounted x { c with callers := c.callers.erase y } w (k + if y = x then 1 else 0) o := by
  by_cases same : y = x
  · subst same
    have once := h.once
    have kept := h.kept
    have before : listed c y = 1 := if_pos member
    have after : listed { c with callers := c.callers.erase y } y = 0 :=
      listed_gone (Finset.notMem_erase y c.callers)
    rw [before] at once kept
    rw [if_pos rfl]
    refine ⟨?_, after.le.trans (Nat.zero_le _),
      fun member => absurd member (Finset.notMem_erase y c.callers), h.issued, ?_, h.done⟩
    · rw [after]
      show 0 + (k + 1) ≤ present (c.issued y)
      omega
    · rw [after]
      show w + present (c.headers y) ≤ 0 + ran c y + (k + 1) + o
      omega
  · rw [if_neg same]
    refine h.congr ?_ rfl rfl rfl fun caller live done => ⟨caller, live, done⟩
    simp [Ne.symm same]

/-- An activity that carried the call lets go of it, which is completed elsewhere. -/
theorem Accounted.drop {j : Nat} (h : Accounted x c w (j + k) o)
    (bound : w + present (c.headers x) ≤ 1) (completed : j ≠ 0 → ran c x + o ≠ 0) :
    Accounted x c w k o := by
  have once := h.once
  have kept := h.kept
  refine ⟨by omega, h.sent, h.unanswered, h.issued, ?_, h.done⟩
  by_cases idle : j = 0
  · omega
  · have some := completed idle
    omega

/-- A caller that is destroyed owes no callback any more, and is not waited for. -/
theorem Accounted.absent (h : Accounted x c w (1 + k) (1 + o))
    (bound : w + present (c.headers x) ≤ 1)
    (completed : ran c x + o ≠ 0 ∨ w + present (c.headers x) = 0) :
    Accounted x (c.store x none) w k o := by
  refine ⟨?_, h.sent, h.unanswered, fun _ => h.issued (by omega), ?_, fun caller live => ?_⟩
  · have once := h.once
    show listed c x + k ≤ present (c.issued x)
    omega
  · show w + present (c.headers x) ≤ listed c x + ran c x + k + o
    omega
  · cases (store_same c x _).symm.trans live

/-- A new `Call` registers its xid and is going to build its header. -/
theorem Accounted.call (h : Accounted x c w k o) (known : Known R c) (p : Nat) (args : S.Args p)
    (cb : Callback) : Accounted x (c.call p args cb).1 (weigh (unsent x) (c.call p args cb).2 + w)
      (weigh (carrying x) (c.call p args cb).2 + k) (weigh (owes x) (c.call p args cb).2 + o) := by
  have carried : weigh (carrying x) (c.call p args cb).2 = 0 := weigh_call (fun _ _ _ => rfl) c p args cb
  have owed : weigh (owes x) (c.call p args cb).2 = 0 := weigh_call (fun _ _ _ => rfl) c p args cb
  rw [carried, owed, Nat.zero_add, Nat.zero_add]
  rcases call_cases c p args cb with ⟨same, _⟩ | ⟨same, _⟩ <;> rw [same]
  · rw [weigh_nil, Nat.zero_add]
    exact h
  have fresh : present (c.issued c.xid) = 0 := by
    rw [known.fresh c.xid (Nat.le_refl _)]
    rfl
  by_cases new : x = c.xid
  · subst new
    have once := h.once
    have sent := h.sent
    have kept := h.kept
    have quiet : ran c c.xid + o = 0 := by
      by_contra some
      rw [h.issued some] at fresh
      cases fresh
    have one : present (Function.update c.issued c.xid (some ⟨p, args⟩) c.xid) = 1 := by
      rw [Function.update_self]
      rfl
    have here : (if c.xid ∈ insert c.xid c.callers then 1 else 0) = 1 :=
      if_pos (Finset.mem_insert_self _ _)
    have calls : weigh (unsent c.xid) [ClientTask.callWindow (S := S) c.xid p
        (({} : Marshall).put ((S.args p).toJson args))] = 1 := if_pos rfl
    refine ⟨?_, ?_, fun _ => Nat.eq_zero_of_add_eq_zero_right quiet, fun _ => one, ?_, ?_⟩
    · rw [one, listed, here]
      omega
    · rw [listed, here, calls]
      omega
    · rw [listed, here, calls]
      show 1 + w + present (c.headers c.xid) ≤ 1 + ran c c.xid + k + o
      omega
    · intro caller live done
      cases (store_same c c.xid _).symm.trans live
      cases done
  · rw [weigh_cons, weigh_nil, unsent, if_neg (Ne.symm new), Nat.zero_add]
    apply h.congr
    · simp [new]
    · exact Function.update_of_ne new _ _
    · rfl
    · rfl
    · intro caller live done
      exact ⟨caller, (store_other new).symm.trans live, done⟩

/-- `Call` builds the header and goes on to its `Send`. -/
theorem Accounted.build (h : Accounted x c ((if y = x then 1 else 0) + w) k o)
    (live : c.heap y = some caller) (keep : caller'.done = caller.done) (header : RequestHeader) :
    Accounted x { c.store y (some caller') with
      headers := Function.update c.headers y (some header) } w k o := by
  have stored : Accounted x (c.store y (some caller')) _ k o := h.store live fun done => keep ▸ done
  by_cases same : y = x
  · subst same
    rw [if_pos rfl] at stored
    have one : present (Function.update c.headers y (some header) y) = 1 := by
      rw [Function.update_self]
      rfl
    refine ⟨stored.once, ?_, stored.unanswered, stored.issued, ?_, stored.done⟩
    · rw [one]
      exact (listed_le c y).trans (Nat.le_add_left _ _)
    · have kept := stored.kept
      rw [one]
      show w + 1 ≤ listed c y + ran c y + k + o
      have kept : 1 + w + present (c.headers y) ≤ listed c y + ran c y + k + o := kept
      omega
  · rw [if_neg same, Nat.zero_add] at stored
    refine stored.congr .rfl rfl ?_ rfl fun caller live done => ⟨caller, live, done⟩
    exact Function.update_of_ne (Ne.symm same) _ _

/-- An exception leaves the `Call` of an xid that is not registered any more. -/
theorem Accounted.leave (h : Accounted x c ((if y = x then 1 else 0) + w) k o)
    (gone : y ∉ c.callers) : Accounted x c w k o := by
  refine ⟨h.once, ?_, h.unanswered, h.issued, (Nat.add_le_add_right (Nat.le_add_left _ _) _).trans
    h.kept, h.done⟩
  by_cases same : y = x
  · subst same
    exact (listed_gone gone).le.trans (Nat.zero_le _)
  · have sent := h.sent
    rw [if_neg same, Nat.zero_add] at sent
    exact sent

/-- One section, beside the `w`, `k` and `o` of the other activities. -/
theorem Accounted.act {t : ClientTask S} {l : ClientLabel S} {ts : List (ClientTask S)}
    {os : List S.Buf} (step : Acted c t l c' ts os) (known : Known R c) (task : TaskKnown R c t)
    {settled : Nat → Prop} (guard : RetiresEntry c settled t)
    (bound : unsent x t + w + present (c.headers x) ≤ 1)
    (elsewhere : settled x → 1 < ran c x + (owes x t + o) ∨ w + present (c.headers x) = 0)
    (h : Accounted x c (unsent x t + w) (carrying x t + k) (owes x t + o)) :
    Accounted x c' (weigh (unsent x) ts + w) (weigh (carrying x) ts + k) (weigh (owes x) ts + o) := by
  cases step with
  | @callSend y p req xidRep caller buf live =>
      have built : Accounted x _ (0 + w) (0 + k) (0 + o) :=
        (Nat.zero_add w).symm ▸ h.build live
          (rfl : Caller.done { caller with buf := buf } = caller.done) (c.header y p xidRep)
      exact built
  | @callThrew y p req xidRep caller e live threw =>
      have gone : y ∉ c.callers := by
        intro member
        have written := guard member
        rw [threw] at written
        cases written
      have left : Accounted x c (0 + w) (0 + k) (0 + o) := (Nat.zero_add w).symm ▸ h.leave gone
      exact left.congr .rfl rfl rfl rfl fun caller live done => ⟨caller, live, done⟩
  | callWait live => exact h.store live id
  | @timedOut y caller live undone zero =>
      have owed : Accounted x (c.store y (some { caller with done := true, err := .timeoutFailure })) _
          _ _ := h.owe known live
      rw [weigh_afterCallback rfl, weigh_afterCallback rfl, weigh_afterCallback rfl]
      refine Accounted.paid ?_ (guard zero caller live undone)
      simpa [unsent, carrying, owes] using owed
  | @sendGaveUp y e caller live zero =>
      have owed : Accounted x (c.store y (some { caller with done := true, err := e })) _ _ _ :=
        h.owe known live
      simpa [unsent, carrying, owes, Nat.add_comm] using owed
  | @failCallback y e caller live =>
      rw [weigh_afterCallback rfl, weigh_afterCallback rfl, weigh_afterCallback rfl]
      refine Accounted.paid ?_ guard
      simpa [unsent, carrying, owes, Nat.add_comm] using h
  | @claim hd u member =>
      have claimed := h.claim member
      simpa [unsent, carrying, owes, Nat.add_comm] using claimed
  | @claimedDone hd u caller live done =>
      have dropped := h.drop bound fun carried => by
        have same : hd.xid = x := by
          by_contra other
          exact carried (if_neg other)
        exact h.done caller (same ▸ live) done
      simpa [unsent, carrying, owes] using dropped
  | @claimed hd u caller live undone =>
      have owed : Accounted x (c.store hd.xid (some { caller with done := true, err := hd.err })) _ _ _ :=
        h.owe known live
      simpa [unsent, carrying, owes, Nat.add_comm] using owed
  | @deliverThrew hd u caller e live threw =>
      have left : Accounted x (c.store hd.xid none) (0 + w) (0 + k) (0 + o) := by
        by_cases same : hd.xid = x
        · subst same
          have completed : ran c hd.xid + o ≠ 0 ∨ w + present (c.headers hd.xid) = 0 := by
            rcases guard caller live with value | more
            · rw [threw] at value
              cases value
            · refine (elsewhere more).imp_left fun more => ?_
              rw [owes, if_pos rfl] at more
              omega
          simp only [unsent, carrying, owes, if_true, Nat.zero_add] at h bound
          rw [Nat.zero_add, Nat.zero_add, Nat.zero_add]
          exact h.absent bound completed
        · simpa [unsent, carrying, owes, same] using h.destroy hd.xid
      exact left.congr .rfl rfl rfl rfl fun caller live done => ⟨caller, live, done⟩
  | @delivered hd u caller v live value =>
      have carried := h.drop bound fun carried => by
        have same : hd.xid = x := by
          by_contra other
          exact carried (if_neg other)
        rw [owes, if_pos same]
        omega
      rw [weigh_cons, weigh_afterCallback rfl, weigh_cons, weigh_afterCallback rfl, weigh_cons,
        weigh_afterCallback rfl, bindCallback_eq]
      have paid : Accounted x (c.ranCallback hd.xid caller hd.err (some v)) (0 + w) (0 + k) (0 + o) := by
        refine Accounted.paid ?_ task.2.1
        simpa [unsent, owes, Nat.add_comm] using carried
      exact paid.congr .rfl rfl rfl rfl fun caller live done => ⟨caller, live, done⟩
  | finish => exact h.destroy _
  | rebind =>
      simp only [unsent, carrying, owes, Nat.zero_add] at h
      exact h.call known _ _ _
  | _ =>
      exact h.congr .rfl rfl rfl rfl fun caller live done => ⟨caller, live, done⟩

theorem Accounted.spawn {e : ClientEvent S} {ts : List (ClientTask S)} (h : Accounted x c w k o)
    (step : Spawned c e c' ts) (known : Known R c) :
    Accounted x c' (weigh (unsent x) ts + w) (weigh (carrying x) ts + k) (weigh (owes x) ts + o) := by
  cases step with
  | call => exact h.call known _ _ _
  | bind =>
      have counted : Accounted x c.countBind w k o :=
        h.congr .rfl rfl rfl rfl fun caller live done => ⟨caller, live, done⟩
      exact counted.call (counted_known known) _ _ _
  | @expire y caller live armed =>
      have stored : Accounted x (c.store y (some { caller with timer := .expired })) (0 + w) (0 + k)
          (0 + o) := by
        rw [Nat.zero_add, Nat.zero_add, Nat.zero_add]
        exact h.store live id
      exact stored

/-- Every call is accounted for, and what the activities rely on holds. -/
structure InBooks (c : ClientCfg S) : Prop where
  traced : Traced (fun _ => True) c
  account : ∀ x, Accounted x c.shared (weigh (unsent x) c.pool) (weigh (carrying x) c.pool)
    (weigh (owes x) c.pool)

theorem start_inBooks (nonce : UInt32) : InBooks (start S nonce) := by
  refine ⟨start_traced _ nonce, fun x => ⟨Nat.le_refl _, Nat.zero_le _, fun member => ?_,
    fun some => ?_, ?_, ?_⟩⟩
  · cases member
  · exact absurd rfl some
  · exact Nat.zero_le _
  · intro caller live
    cases live

/-- The `Call` of an xid goes on in one of its activities, or has built the header. -/
theorem called_iff {c : ClientCfg S} (traced : Traced R c) (x : Nat) :
    Called c x ↔ 0 < weigh (unsent x) c.pool + present (c.shared.headers x) := by
  constructor
  · rintro (built | ⟨t, member, calls⟩)
    · exact Nat.add_pos_right _ (by rw [present, if_pos built]; exact Nat.one_pos)
    · have task := traced.held.task t member
      have here := weigh_pos (w := unsent x) member
      cases t with
      | callWindow | callSend =>
          cases calls
          rw [unsent, if_pos rfl] at here
          exact Nat.add_pos_left here _
      | callWait =>
          cases calls
          rw [present, if_pos (Option.isSome_iff_ne_none.mpr task)]
          exact Nat.succ_pos _
      | _ => cases calls
  · intro some
    by_cases built : (c.shared.headers x).isSome
    · exact .inl built
    · rw [present, if_neg built] at some
      by_contra none
      have idle : weigh (unsent x) c.pool = 0 := by
        apply weigh_eq_zero
        intro t member
        cases t with
        | callWindow | callSend => exact if_neg fun same => none (.inr ⟨_, member, congrArg _ same⟩)
        | _ => rfl
      rw [idle] at some
      cases some

theorem InBooks.move {c c' : ClientCfg S} {m : Move (ClientLabel S) (ClientEvent S)}
    {os : List S.Buf} (h : InBooks c) (moved : (machine S).Moved c c' os m) (retires : Retires c m) :
    InBooks c' := by
  refine ⟨h.traced.move moved fun _ _ _ => trivial, fun x => ?_⟩
  have before := h.account x
  have known := h.traced.held.shared
  have bound := (h.traced.headers x).trans (present_le _)
  have called := called_iff h.traced x
  cases moved with
  | act t rest ts taken split ran left =>
      have task := h.traced.held.task t (List.mem_of_getElem? taken)
      have total := weigh_perm (owes x) split
      rw [weigh_perm (unsent x) split, weigh_perm (carrying x) split, weigh_perm (owes x) split,
        weigh_cons, weigh_cons, weigh_cons] at before
      rw [weigh_perm (unsent x) split, weigh_cons] at bound called
      rw [left, weigh_append, weigh_append, weigh_append]
      apply before.act (acted ran) known task (retires t taken) bound
      rintro (more | uncalled)
      · rw [completions, total, weigh_cons] at more
        exact .inl more
      · rw [called] at uncalled
        exact .inr (by omega)
  | spawn ts ran quiet left =>
      rw [left, weigh_append, weigh_append, weigh_append]
      exact before.spawn (spawned ran) known

/-- Where no section is under way the books are the table. -/
theorem InBooks.exactlyPending {c : ClientCfg S} (h : InBooks c) : ExactlyPending c := by
  intro x
  have account := h.account x
  constructor
  · intro member
    refine ⟨(called_iff h.traced x).mpr ?_, account.unanswered member⟩
    have sent := account.sent
    rw [listed, if_pos member] at sent
    exact sent
  · intro called unanswered idle
    have called := (called_iff h.traced x).mp called
    have kept := account.kept
    have carried : weigh (carrying x) c.pool = 0 := weigh_eq_zero fun t member => (idle t member).1
    have owed : weigh (owes x) c.pool = 0 := weigh_eq_zero fun t member => (idle t member).2
    rw [unanswered, carried, owed] at kept
    by_contra gone
    rw [listed_gone gone] at kept
    omega

/-- Where an exception leaves a claimed call that is not settled elsewhere, nobody is left
to answer it. -/
theorem InBooks.dropped {c : ClientCfg S} {d : RpcClient S} {rest : List (ClientTask S)}
    {hd : ReplyHeader} {u : Unmarshall} (h : InBooks c) (split : c.pool.Perm (.deliver hd u :: rest))
    (traced' : Traced (fun _ => True) ⟨d, rest⟩) (headers : d.headers = c.shared.headers)
    (callbacks : d.callbacks = c.shared.callbacks) (alone : ¬ SettledElsewhere c hd.xid) :
    Called ⟨d, rest⟩ hd.xid ∧ ran d hd.xid = 0 ∧
      ∀ t ∈ rest, carrying hd.xid t = 0 ∧ owes hd.xid t = 0 := by
  obtain ⟨single, called⟩ := not_or.mp alone
  have once := (h.account hd.xid).once
  rw [weigh_perm (carrying hd.xid) split, weigh_cons, carrying, if_pos rfl] at once
  rw [completions, weigh_perm (owes hd.xid) split, weigh_cons, owes, if_pos rfl] at single
  have bound := present_le (c.shared.issued hd.xid)
  have called := (called_iff h.traced hd.xid).mp (not_not.mp called)
  rw [weigh_perm (unsent hd.xid) split, weigh_cons] at called
  have idle : unsent (S := S) hd.xid (.deliver hd u) = 0 := rfl
  rw [idle, Nat.zero_add] at called
  have same : ran d hd.xid = ran c.shared hd.xid := by rw [ran, callbacks]; rfl
  refine ⟨(called_iff traced' hd.xid).mpr (headers ▸ called), by omega, fun t member => ?_⟩
  have carried := weigh_pos (w := carrying hd.xid) member
  have owed := weigh_pos (w := owes hd.xid) member
  omega

/-- A section that does not respect the condition leaves a call in `callers_` whose
callback has run or whose `Call` was left, or one that is neither there nor answered. -/
theorem InBooks.respects {c c' : ClientCfg S} {i : Nat} {l : ClientLabel S} {os : List S.Buf}
    {t : ClientTask S} (h : InBooks c) (taken : c.pool[i]? = some t)
    (moved : (machine S).Moved c c' os (.act i l)) (pending : ExactlyPending c') :
    RetiresEntry c.shared (SettledElsewhere c) t := by
  have known := h.traced.held.shared
  have task := h.traced.held.task t (List.mem_of_getElem? taken)
  have traced' := h.traced.move moved fun _ _ _ => trivial
  obtain ⟨d, pool⟩ := c'
  cases moved with
  | act t' rest ts taken' split acts left =>
      cases taken.symm.trans taken'
      have step : Acted c.shared t l d ts os := acted acts
      cases t with
      | callSend x p req xidRep =>
          intro member
          cases step with
          | callSend live written => rw [written]; rfl
          | callThrew live threw =>
              -- its header was still to be built, and nobody is left to build it
              have called := (called_iff traced' x).mp ((pending x).1 member).1
              have account := h.traced.headers x
              have bound := present_le (c.shared.issued x)
              rw [weigh_perm (unsent x) split, weigh_cons, unsent, if_pos rfl] at account
              rw [left, List.nil_append] at called
              have called : 0 < weigh (unsent x) rest + present (c.shared.headers x) := called
              omega
      | onTimerExpired x =>
          intro zero caller live undone member
          cases step with
          | timerDone live' done =>
              cases live.symm.trans live'
              rw [done] at undone
              cases undone
          | timedOut live' =>
              have unanswered := ((pending x).1 member).2
              rw [ranCallback_ran, if_pos rfl] at unanswered
              cases unanswered
          | timerRetry _ _ retries => exact retries zero
      | failCallback x e =>
          intro member
          cases step with
          | failCallback live =>
              have unanswered := ((pending x).1 member).2
              rw [ranCallback_ran, if_pos rfl] at unanswered
              cases unanswered
      | deliver hd u =>
          intro caller live
          by_contra alone
          obtain ⟨unreadable, alone⟩ := not_or.mp alone
          cases step with
          | delivered live' value =>
              cases live.symm.trans live'
              exact unreadable (by rw [value]; rfl)
          | deliverThrew live' threw =>
              rw [List.nil_append] at left
              cases left
              obtain ⟨called, unanswered, idle⟩ := h.dropped split traced' rfl rfl alone
              exact task.2.1 ((pending hd.xid).2 called unanswered idle)
      | _ => trivial

theorem reachable_inBooks {nonce : UInt32} {c : ClientCfg S}
    (run : Reachable (machine S).system Retires (start S nonce) c) : InBooks c := by
  apply Machine.invariant run (start_inBooks nonce)
  intro c m c' os books retires moved
  exact books.move moved retires

theorem ExactlyPending.between {c : ClientCfg S} (h : ExactlyPending c) (between : BetweenHandlers c)
    (x : Nat) : x ∈ c.shared.callers ↔ ReturnedOk c x ∧ ran c.shared x = 0 := by
  constructor
  · intro member
    obtain ⟨called, unanswered⟩ := (h x).1 member
    have quiet : ∀ t ∈ c.pool, callOf t ≠ some x := by
      intro t here
      rw [(waits_idle (between t here) x).1]
      exact (Option.some_ne_none x).symm
    exact ⟨⟨called.resolve_right fun ⟨t, here, calls⟩ => quiet t here calls, quiet⟩, unanswered⟩
  · rintro ⟨⟨built, _⟩, unanswered⟩
    exact (h x).2 (.inl built) unanswered fun t here => (waits_idle (between t here) x).2

/-- As long as no section breaks the condition, `callers_` holds between two handlers
the calls that returned OK and wait for their callback, a refused call changes nothing,
and a section keeps the table exact if and only if it respects the condition. -/
theorem callers_are_pending (nonce : UInt32) (c : ClientCfg S)
    (run : Reachable (machine S).system Retires (start S nonce) c) :
    (BetweenHandlers c → ∀ x, x ∈ c.shared.callers ↔ ReturnedOk c x ∧ ran c.shared x = 0) ∧
      (∀ p args cb, ¬ c.shared.Accepts p → c.shared.call p args cb = (c.shared, [])) ∧
      ∀ m c', (machine S).system.next c m = some c' → (ExactlyPending c' ↔ Retires c m) := by
  have books := reachable_inBooks run
  refine ⟨books.exactlyPending.between, fun p args cb refused => if_neg refused, ?_⟩
  intro m c' moved
  obtain ⟨os, moved⟩ := Machine.moved_of_system moved
  constructor
  · intro pending
    cases m with
    | act i l => exact fun t taken => books.respects taken moved pending
    | spawn e => trivial
  · intro retires
    exact (books.move moved retires).exactlyPending

theorem boundCall_retires :
    ∃ c, (machine .sample).system.exec (fun c m => decide (Retires c m)) (start .sample 0)
        boundCall = some c ∧ BetweenHandlers c ∧ 3 ∈ c.shared.callers :=
  System.exec_any (by decide +kernel)

theorem callers_are_pending_bound : ∃ c,
    Reachable (machine .sample).system Retires (start .sample 0) c ∧
      3 ∈ c.shared.callers ∧ ReturnedOk c 3 ∧ ran c.shared 3 = 0 := by
  obtain ⟨c, ran, between, member⟩ := boundCall_retires
  have run := (System.exec_reachable ran).mono fun _ _ met => of_decide_eq_true met
  have pending := ((callers_are_pending 0 c run).1 between 3).mp member
  exact ⟨c, run, member, pending⟩

/-- The deadline of that call passes. -/
theorem boundCall_expires :
    ∃ c, (machine .sample).system.exec (fun _ _ => true) (start .sample 0)
        (boundCall ++ [.spawn (.expire 3), .act 0 .go]) = some c ∧
      BetweenHandlers c ∧ 3 ∈ c.shared.callers ∧ ran c.shared 3 = 1 :=
  System.exec_any (by decide +kernel)

theorem timed_out_left_in_callers : ¬ ∀ (nonce : UInt32) (c : ClientCfg .sample),
    Reachable (machine .sample).system anyStep (start .sample nonce) c → BetweenHandlers c →
      ∀ x, x ∈ c.shared.callers ↔ ReturnedOk c x ∧ ran c.shared x = 0 := by
  intro always
  obtain ⟨c, ran, between, member, once⟩ := boundCall_expires
  have pending := (always 0 c (System.exec_reachable ran).any between 3).mp member
  rw [once] at pending
  cases pending.2

end AsyncRpc.RpcClient
