import AsyncRpc.RpcClient

/-! How often the callback of a call runs, whatever order the reply, the deadline
and the completion of the send come in. -/
namespace AsyncRpc.RpcClient
open Interleaving Transition

variable {S : Services}

abbrev ClientCfg (S : Services) := Cfg (RpcClient S) (ClientTask S)

/-- A handler that set `done_` and has not run the callback yet. -/
def owes (x : Nat) : ClientTask S → Nat
  | .deliver h _ => if h.xid = x then 1 else 0
  | .failCallback y _ => if y = x then 1 else 0
  | _ => 0

/-- The caller is out of `callers_` and its callback has not run. -/
def carrying (x : Nat) : ClientTask S → Nat
  | .claimed h _ | .deliver h _ => if h.xid = x then 1 else 0
  | _ => 0

def ran (c : RpcClient S) (x : Nat) : Nat := c.callbacks.countP fun r => r.xid = x

/-- Callbacks run and callbacks owed for one xid. -/
def completions (x : Nat) (c : ClientCfg S) : Nat := ran c.shared x + weigh (owes x) c.pool

def failedSend : ClientTask S → Option Nat
  | .sendFailed x _ => some x
  | _ => none

/-- `OnSendFinished` of a client that does not retransmit meets a caller that is not
done when it takes `c->mu_`, which it does not check. -/
def FailsUndone (c : ClientCfg S) : Move (ClientLabel S) (ClientEvent S) → Prop
  | .act i _ => c.shared.cltNonce = 0 → ∀ t ∈ c.pool[i]?, ∀ x ∈ failedSend t,
      ∀ caller ∈ c.shared.heap x, caller.done = false
  | .spawn _ => True

instance (c : ClientCfg S) (m : Move (ClientLabel S) (ClientEvent S)) :
    Decidable (FailsUndone c m) :=
  match m with
  | .act i _ => inferInstanceAs (Decidable (c.shared.cltNonce = 0 → ∀ t ∈ c.pool[i]?,
      ∀ x ∈ failedSend t, ∀ caller ∈ c.shared.heap x, caller.done = false))
  | .spawn _ => isTrue trivial

/-- `n` completions of `x` agree with the heap: a caller that is not done has had
none, nor has an xid not given out yet, which has no object either. -/
structure Settled (x : Nat) (c : RpcClient S) (n : Nat) : Prop where
  once : n ≤ 1
  undone : ∀ caller, c.heap x = some caller → caller.done = false → n = 0
  unborn : c.xid ≤ x → c.heap x = none ∧ n = 0

variable {x y n : Nat} {c c' : RpcClient S} {caller caller' : Caller S}

theorem Settled.congr (h : Settled x c n) (heap : c'.heap = c.heap) (xid : c'.xid = c.xid) :
    Settled x c' n :=
  ⟨h.once, heap ▸ h.undone, heap ▸ xid ▸ h.unborn⟩

theorem Settled.born (h : Settled x c n) (live : c.heap x = some caller) : ¬ c.xid ≤ x := by
  intro early
  have dead := (h.unborn early).1
  rw [live] at dead
  cases dead

/-- An update of a caller that does not clear `done_`. -/
theorem Settled.store (h : Settled x c n) (live : c.heap y = some caller)
    (keep : caller'.done = false → caller.done = false) :
    Settled x (c.store y (some caller')) n := by
  by_cases same : y = x
  · subst same
    refine ⟨h.once, fun found eq undone => ?_, fun early => absurd early (h.born live)⟩
    cases (store_same c y _).symm.trans eq
    exact h.undone caller live (keep undone)
  · have other : (c.store y (some caller')).heap x = c.heap x := store_other (Ne.symm same)
    exact ⟨h.once, other ▸ h.undone, fun early => other ▸ h.unborn early⟩

theorem Settled.destroy (h : Settled x c n) (y : Nat) : Settled x (c.store y none) n := by
  by_cases same : y = x
  · subst same
    refine ⟨h.once, fun found eq => ?_, fun early => ⟨store_same c y none, (h.unborn early).2⟩⟩
    cases (store_same c y none).symm.trans eq
  · have other : (c.store y none).heap x = c.heap x := store_other (Ne.symm same)
    exact ⟨h.once, other ▸ h.undone, fun early => other ▸ h.unborn early⟩

/-- Setting `done_` on a caller that was not done pays for one completion. -/
theorem Settled.complete (h : Settled x c n) (live : c.heap y = some caller)
    (undone : caller.done = false) (done : caller'.done = true) :
    Settled x (c.store y (some caller')) (n + if y = x then 1 else 0) := by
  by_cases same : y = x
  · subst same
    have none := h.undone caller live undone
    refine ⟨by simp [none], fun found eq unset => ?_, fun early => absurd early (h.born live)⟩
    cases (store_same c y _).symm.trans eq
    rw [done] at unset
    cases unset
  · rw [if_neg same]
    exact h.store live fun unset => absurd unset (by simp [done])

theorem Settled.call (h : Settled x c n) (p : Nat) (args : S.Args p) (cb : Callback) :
    Settled x (c.call p args cb).1 n := by
  unfold RpcClient.call
  split_ifs
  · by_cases same : c.xid = x
    · have fresh := h.unborn (Nat.le_of_eq same)
      refine ⟨h.once, fun _ _ _ => fresh.2, fun early => absurd early ?_⟩
      show ¬ c.xid + 1 ≤ x
      omega
    · have other : (c.store c.xid (some { proc := p, cb := cb, buf := S.empty })).heap x = c.heap x :=
        store_other (Ne.symm same)
      refine ⟨h.once, fun found eq => h.undone found (other ▸ eq), fun early => ?_⟩
      have early : c.xid + 1 ≤ x := early
      exact ⟨other.trans (h.unborn (by omega)).1, (h.unborn (by omega)).2⟩
  · exact h

@[simp] theorem call_ran (c : RpcClient S) (p : Nat) (args : S.Args p) (cb : Callback) (x : Nat) :
    ran (c.call p args cb).1 x = ran c x := by
  unfold RpcClient.call
  split_ifs <;> rfl

theorem ranCallback_ran (c : RpcClient S) (y : Nat) (caller : Caller S) (e : Err)
    (reply : Option (S.Rep caller.proc)) (x : Nat) :
    ran (c.ranCallback y caller e reply) x = ran c x + if y = x then 1 else 0 := by
  simp [ran, ranCallback, List.countP_cons]

/-- One section, beside `k` completions that other activities owe. -/
theorem Settled.act {t : ClientTask S} {l : ClientLabel S} {ts : List (ClientTask S)}
    {os : List S.Buf} (step : Acted c t l c' ts os)
    (guard : ∀ y e caller, t = .sendFailed y e → c.cltNonce = 0 → c.heap y = some caller →
      caller.done = false) (k : Nat) (h : Settled x c (ran c x + owes x t + k)) :
    Settled x c' (ran c' x + weigh (owes x) ts + k) := by
  cases step with
  | @callSend y p req xidRep caller buf live _ =>
      have kept : Settled x (c.store y (some { caller with
          buf := buf })) _ := h.store live id
      exact kept.congr rfl rfl
  | callWait live => exact h.store live id
  | @timedOut y caller live undone _ =>
      have paid : Settled x (c.store y (some { caller with done := true, err := .timeoutFailure }))
          _ := h.complete live undone rfl
      rw [ranCallback_ran, weigh_afterCallback rfl]
      refine Settled.congr (c := c.store y _) ?_ rfl rfl
      convert paid using 1
      simp only [owes, Nat.add_zero]
      exact Nat.add_right_comm _ _ _
  | @sendGaveUp y e caller live zero =>
      have paid : Settled x (c.store y (some { caller with done := true, err := e })) _ :=
        h.complete live (guard y e caller rfl zero live) rfl
      convert paid using 1
      simp only [owes, weigh_cons, weigh_nil, Nat.add_zero]
      exact Nat.add_right_comm _ _ _
  | failCallback live =>
      rw [ranCallback_ran, weigh_afterCallback rfl]
      exact h.congr rfl rfl
  | @claimed hd u caller live undone =>
      have paid : Settled x (c.store hd.xid (some { caller with done := true, err := hd.err })) _ :=
        h.complete live undone rfl
      convert paid using 1
      simp only [owes, weigh_cons, weigh_nil, Nat.add_zero]
      exact Nat.add_right_comm _ _ _
  | @deliverThrew hd u caller e live _ =>
      have less : ran c x + k ≤ ran c x + owes (S := S) x (.deliver hd u) + k := by omega
      refine Settled.congr (c := c.store hd.xid none) ?_ rfl rfl
      refine Settled.destroy ⟨less.trans h.once, fun found eq undone => ?_, fun early => ?_⟩ hd.xid
      · have := h.undone found eq undone
        omega
      · have := h.unborn early
        exact ⟨this.1, by omega⟩
  | @delivered hd u caller v live _ =>
      have same : ran ((c.ranCallback hd.xid caller hd.err (some v)).bindCallback caller hd.err v) x =
          ran c x + if hd.xid = x then 1 else 0 := by
        rw [bindCallback_eq]
        exact ranCallback_ran c hd.xid caller hd.err (some v) x
      rw [same, weigh_cons, weigh_afterCallback rfl, bindCallback_eq]
      exact h.congr rfl rfl
  | finish => exact h.destroy _
  | rebind =>
      rw [call_ran, weigh_call fun _ _ _ => rfl]
      exact h.call BIND S.bindArgs .bind
  | _ => exact h.congr rfl rfl

/-- The same for the start of an activity. -/
theorem Settled.spawn {e : ClientEvent S} {ts : List (ClientTask S)} (step : Spawned c e c' ts)
    (k : Nat) (h : Settled x c (ran c x + k)) :
    Settled x c' (ran c' x + weigh (owes x) ts + k) := by
  cases step with
  | @call p args =>
      rw [call_ran, weigh_call fun _ _ _ => rfl]
      exact h.call p args .app
  | bind =>
      rw [call_ran, weigh_call fun _ _ _ => rfl]
      exact Settled.call (c := c.countBind) (h.congr rfl rfl) BIND S.bindArgs .bind
  | expire live => exact h.store live id

theorem reachable_settled {nonce : UInt32} {c : ClientCfg S}
    (run : Reachable (machine S).system FailsUndone (start S nonce) c) (x : Nat) :
    Settled x c.shared (completions x c) := by
  apply Machine.invariant run (I := fun c => Settled x c.shared (completions x c))
  · exact ⟨Nat.zero_le _, fun _ live => (by cases live), fun _ => ⟨rfl, rfl⟩⟩
  intro c m c' os inv guard moved
  unfold completions at inv ⊢
  cases moved with
  | @act i l t rest ts taken split ran left =>
      rw [weigh_perm (owes x) split, weigh_cons, ← Nat.add_assoc] at inv
      rw [left, weigh_append, ← Nat.add_assoc]
      refine inv.act (acted ran) (fun y e caller same zero live => ?_)
      exact guard zero t taken y (same ▸ rfl) caller live
  | spawn ts ran _ left =>
      rw [left, weigh_append, ← Nat.add_assoc]
      exact inv.spawn (spawned ran) _

/-- If no failed send of a client without retransmission meets a caller that already
timed out or was answered, each callback runs at most once. -/
theorem callback_at_most_once (nonce : UInt32) (c : ClientCfg S)
    (run : Reachable (machine S).system FailsUndone (start S nonce) c) (x : Nat) :
    ran c.shared x ≤ 1 :=
  (Nat.le_add_right _ _).trans (reachable_settled run x).once

/-- A client with nonce 0 connects and binds, and then calls procedure 7 with xid 3. -/
def boundCall : List (Move (ClientLabel .sample) (ClientEvent .sample)) :=
  let bound : Json := (replyDoc .sample BIND ⟨2, .ok⟩ (77 : UInt32)).json
  [.act 0 (.connected .ok), .spawn .bind, .act 0 .go, .act 0 .go, .act 0 .transmit,
    .act 0 (.sent .ok), .act 1 .go, .act 0 (.received bound .ok), .act 0 .go, .act 0 .go,
    .act 0 .go, .act 0 .go, .act 0 .go, .spawn (.call 7 (1 : UInt32)), .act 0 .go, .act 0 .go,
    .act 1 .go]

/-- Its send fails before the deadline passes. -/
def sendFailureThenTimeout : List (Move (ClientLabel .sample) (ClientEvent .sample)) :=
  boundCall ++ [.act 0 (.sent .sendFailure), .act 0 .go, .act 0 .go, .spawn (.expire 3), .act 0 .go]

theorem sendFailureThenTimeout_run :
    ∃ c, (machine .sample).system.exec (fun c m => decide (FailsUndone c m)) (start .sample 0)
        sendFailureThenTimeout = some c ∧ ran c.shared 3 = 1 :=
  System.exec_any (by decide +kernel)

theorem callback_at_most_once_failed : ∃ c,
    Reachable (machine .sample).system FailsUndone (start .sample 0) c ∧
      ran c.shared 3 = 1 ∧ ran c.shared 3 ≤ 1 := by
  obtain ⟨c, ran, once⟩ := sendFailureThenTimeout_run
  have run := (System.exec_reachable ran).mono fun _ _ met => of_decide_eq_true met
  exact ⟨c, run, once, callback_at_most_once 0 c run 3⟩

/-- The deadline passes before the send completes, and then the send fails. -/
def timeoutThenSendFailure : List (Move (ClientLabel .sample) (ClientEvent .sample)) :=
  boundCall ++ [.spawn (.expire 3), .act 0 .go, .act 0 (.sent .sendFailure), .act 0 .go, .act 0 .go]

theorem timeoutThenSendFailure_run :
    ∃ c, (machine .sample).system.exec (fun _ _ => true) (start .sample 0)
        timeoutThenSendFailure = some c ∧ ran c.shared 3 = 2 :=
  System.exec_any (by decide +kernel)

theorem callback_twice : ¬ ∀ (nonce : UInt32) (c : ClientCfg .sample),
    Reachable (machine .sample).system anyStep (start .sample nonce) c →
      ∀ x, ran c.shared x ≤ 1 := by
  intro always
  obtain ⟨c, ran, twice⟩ := timeoutThenSendFailure_run
  have once := always 0 c (System.exec_reachable ran).any 3
  omega

end AsyncRpc.RpcClient
