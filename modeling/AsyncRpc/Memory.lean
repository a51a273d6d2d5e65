import AsyncRpc.Acknowledgement
import AsyncRpc.CallLife

/-! What a server remembers of a client. The window is no more and no less than the part
of the history that the client has not acknowledged, and it stays within the calls that
the client made. -/
namespace AsyncRpc
open Interleaving Transition

/-- Acknowledged entries are gone. -/
def DupFilter.Above {β : Type} (f : DupFilter β) : Prop :=
  ∀ n, ∀ r ∈ f.window n, f.maxAckowledgedRep n < r.xid

theorem DupFilter.Above.check {β : Type} {f : DupFilter β} (above : f.Above) (sorted : f.Sorted)
    (empty : β) (m : UInt32) (xid xidRep : Nat) :
    (checkDuplicateAndUpdate empty f m xid xidRep).2.Above := by
  intro n r member
  rw [check_ack]
  rw [check_window] at member
  split_ifs at member ⊢ with same
  · subst same
    rw [trim_eq_filter (judge_ascending empty f n xid xidRep sorted), newAck_eq_max] at member
    exact of_decide_eq_true (List.mem_filter.mp member).2
  · exact above n r member

theorem DupFilter.Above.addReply {β : Type} {f f' : DupFilter β} {m : UInt32} {xid : Nat} {buf : β}
    (above : f.Above) (ok : DupFilter.addReply f m xid buf = .ok f') : f'.Above := by
  intro n r member
  have listed := List.mem_map_of_mem (f := ReplyT.xid) member
  rw [addReply_xids ok] at listed
  obtain ⟨old, here, same⟩ := List.mem_map.mp listed
  rw [addReply_ack ok, ← same]
  exact above n old here

namespace RpcServer

variable {S : Services} {ς : Type} [DecidableEq ς]
variable {sv sv' : RpcServer S ς} {t : ServerTask S ς} {l : ServerLabel S ς}
variable {ts : List (ServerTask S ς)} {os : List (ς × S.Buf)}
variable {c c' : Cfg (RpcServer S ς) (ServerTask S ς)}

/-- A reply that was made and is not recorded yet. -/
def toRecord (n : UInt32) (x : Nat) : ServerTask S ς → Nat
  | .record _ h _ => if (h.cltNonce, h.xid) = (n, x) then 1 else 0
  | _ => 0

theorem acted_above (step : Acted sv t l sv' ts os) (above : sv.filter.Above)
    (sorted : sv.filter.Sorted) : sv'.filter.Above := by
  cases step with
  | newWindow =>
      intro n r member
      rw [DupFilter.createWindow_window] at member
      rw [DupFilter.createWindow_ack]
      exact above n r member
  | check => exact above.check sorted _ _ _ _
  | recorded ok => exact above.addReply ok
  | _ => exact above

/-- An entry is one of a call that was made or is owed. -/
theorem acted_owed (step : Acted sv t l sv' ts os) {n : UInt32}
    {r : ReplyT S.Buf} (member : r ∈ sv'.filter.window n) :
    (∃ r₀ ∈ sv.filter.window n, r₀.xid = r.xid) ∨
      0 < sv'.invoked.count (n, r.xid) + weigh (aboutToInvoke n r.xid) ts := by
  cases step with
  | newWindow =>
      rw [DupFilter.createWindow_window] at member
      exact .inl ⟨r, member, rfl⟩
  | @check s h req =>
      rcases DupFilter.check_mem _ _ _ _ _ member with old | ⟨rfl, new, rfl⟩
      · exact .inl ⟨r, old, rfl⟩
      · right
        simp [new, onVerdict, aboutToInvoke, ReplyT.fresh]
  | recorded ok =>
      have listed := List.mem_map_of_mem (f := ReplyT.xid) member
      rw [DupFilter.addReply_xids ok] at listed
      exact .inl (List.mem_map.mp listed)
  | _ => exact .inl ⟨r, member, rfl⟩

/-- A reply is recorded once for each run. -/
theorem acted_toRecord (step : Acted sv t l sv' ts os) (n : UInt32) (x : Nat) :
    weigh (toRecord n x) ts + (sv.executionsOf n x).length ≤
      toRecord n x t + (sv'.executionsOf n x).length := by
  cases step with
  | dispatched ok =>
      cases dispatched ok <;> exact Nat.le_refl _
  | check =>
      rw [weigh_cons]
      refine Nat.le_of_eq (congrArg (· + _) ?_)
      generalize (sv.filter.checkDuplicateAndUpdate _ _ _ _).1 = verdict
      cases verdict <;> rfl
  | @recording s h args =>
      rw [executed_executionsOf sv s h args, weigh_cons, weigh_nil]
      simp only [RpcServer.toRecord, inHandler]
      omega
  | @answered s h args | @answerThrew s h args =>
      refine Nat.add_le_add (Nat.zero_le _) ?_
      exact (Nat.le_add_right _ _).trans_eq (executed_executionsOf sv s h args _ _ n x).symm
  | sent => rw [weigh_onSent fun _ => rfl]; exact Nat.add_le_add_right (Nat.zero_le _) _
  | recorded | recordThrew | bufThrew => exact Nat.add_le_add_right (Nat.zero_le _) _
  | _ => exact Nat.le_refl _

/-- The handler of a call came back with a result that `Buf` can write. -/
def Writable (sv : RpcServer S ς) (n : UInt32) (x : Nat) : Prop :=
  ∃ ex ∈ sv.executionsOf n x, ∃ buf, ex.buf = .ok buf

/-- The window of a client, entry by entry: which calls it is about, and which of them it
has a reply for. -/
structure Recalls (n : UInt32) (c : Cfg (RpcServer S ς) (ServerTask S ς)) : Prop where
  sorted : c.shared.filter.Sorted
  above : c.shared.filter.Above
  owed : ∀ r ∈ c.shared.filter.window n, 0 < calls n r.xid c
  toRecord : ∀ x, weigh (toRecord n x) c.pool ≤ (c.shared.executionsOf n x).length
  answered : ∀ r ∈ c.shared.filter.window n, r.cbPresent = true ↔
    weigh (RpcServer.toRecord n r.xid) c.pool = 0 ∧ c.shared.Writable n r.xid

/-- What a section leaves of an entry: the same answer, or it is the section that took the
call, made its reply, recorded it or failed to write it. -/
inductive Answer (sv sv' : RpcServer S ς) (t : ServerTask S ς) (ts : List (ServerTask S ς))
    (n : UInt32) (r : ReplyT S.Buf) : Prop
  | same (old : r ∈ sv.filter.window n)
      (executions : sv'.executionsOf n r.xid = sv.executionsOf n r.xid)
      (weight : weigh (toRecord n r.xid) ts = toRecord n r.xid t)
  | taken (free : ¬ sv.filter.Covers n r.xid) (absent : r.cbPresent = false)
      (executions : sv'.executionsOf n r.xid = sv.executionsOf n r.xid)
  | made (old : r ∈ sv.filter.window n) (running : inHandler n r.xid t = 1)
      (weight : weigh (toRecord n r.xid) ts = 1) (before : toRecord n r.xid t = 0)
  | recorded (present : r.cbPresent = true) (writable : sv'.Writable n r.xid)
      (executions : sv'.executionsOf n r.xid = sv.executionsOf n r.xid)
      (weight : weigh (toRecord n r.xid) ts = 0) (before : toRecord n r.xid t = 1)
  | unwritten (old : r ∈ sv.filter.window n) (refused : ∃ ex ∈ sv.executionsOf n r.xid, ∃ e,
        ex.buf = .error e) (executions : sv'.executionsOf n r.xid = sv.executionsOf n r.xid)
      (before : toRecord n r.xid t = 1)

omit [DecidableEq ς] in
theorem executed_other {h : RequestHeader} {args : S.Args h.proc} {v : S.Rep h.proc} {e : Err}
    {n : UInt32} {x : Nat} (other : (h.cltNonce, h.xid) ≠ (n, x)) :
    (sv.executed h args v e).executionsOf n x = sv.executionsOf n x := by
  simp only [executed, executionsOf, List.filter_cons, decide_eq_true_iff, if_neg other]

theorem acted_answer {Q : ς → S.Buf → Prop} (step : Acted sv t l sv' ts os)
    (sorted : sv.filter.Sorted) (task : TaskKnown Q sv t) {n : UInt32} (pos : 0 < n)
    {r : ReplyT S.Buf} (member : r ∈ sv'.filter.window n) : Answer sv sv' t ts n r := by
  cases step with
  | dispatched ok =>
      refine .same member rfl ?_
      cases dispatched ok <;> rfl
  | newWindow =>
      rw [DupFilter.createWindow_window] at member
      exact .same member rfl rfl
  | @check s h req =>
      rcases DupFilter.check_mem _ _ _ _ _ member with old | ⟨rfl, new, rfl⟩
      · refine .same old rfl ?_
        rw [weigh_cons]
        generalize (sv.filter.checkDuplicateAndUpdate _ _ _ _).1 = verdict
        cases verdict <;> rfl
      · exact .taken (DupFilter.check_new_fresh _ _ _ _ _ sorted new) rfl rfl
  | @recording s h args l v e =>
      by_cases same : (h.cltNonce, h.xid) = (n, r.xid)
      · exact .made member (if_pos same) (if_pos same) rfl
      · exact .same member (executed_other same) (if_neg same)
  | answered _ zero | answerThrew _ zero =>
      exact .same member (executed_other (anonymous_ne pos zero _ _)) rfl
  | @recorded s h rep buf f ok written =>
      obtain ⟨_, ex, made, client, number, _, bytes⟩ := task
      by_cases same : (h.cltNonce, h.xid) = (n, r.xid)
      · obtain ⟨rfl, xid⟩ := Prod.mk.inj same
        refine .recorded (DupFilter.addReply_filled ok sorted member xid.symm).1 ?_ rfl rfl
          (if_pos same)
        exact ⟨ex, mem_executionsOf.mpr ⟨made, client, number.trans xid⟩, buf,
          bytes.symm.trans written⟩
      · rcases DupFilter.addReply_mem ok member with old | ⟨rfl, xid, _⟩
        · exact .same old rfl (if_neg same).symm
        · exact absurd (congrArg _ xid.symm) same
  | @recordThrew s h rep buf e threw =>
      refine .same member rfl (if_neg ?_).symm
      rintro same
      obtain ⟨rfl, xid⟩ := Prod.mk.inj same
      exact DupFilter.addReply_absent threw r member xid.symm
  | @bufThrew s h rep e threw =>
      obtain ⟨_, ex, made, client, number, _, bytes⟩ := task
      by_cases same : (h.cltNonce, h.xid) = (n, r.xid)
      · obtain ⟨rfl, xid⟩ := Prod.mk.inj same
        refine .unwritten member ⟨ex, ?_, e, bytes.symm.trans threw⟩ rfl (if_pos same)
        exact mem_executionsOf.mpr ⟨made, client, number.trans xid⟩
      · exact .same member rfl (if_neg same).symm
  | sent =>
      refine .same member rfl ?_
      rw [weigh_onSent fun _ => rfl]
      rfl
  | _ => exact .same member rfl rfl

omit [DecidableEq ς] in
/-- Of the entries that a section leaves, those have a reply whose reply was written and recorded. -/
theorem Recalls.answer {n : UInt32} {r : ReplyT S.Buf} (inv : Recalls n c)
    (counted : CallInv n r.xid c)
    (handled : (c.shared.executionsOf n r.xid).length + weigh (inHandler n r.xid) c.pool ≤
      c.shared.invoked.count (n, r.xid))
    {rest : List (ServerTask S ς)} (split : c.pool.Perm (t :: rest))
    (account : weigh (RpcServer.toRecord n r.xid) c'.pool + RpcServer.toRecord n r.xid t =
      weigh (RpcServer.toRecord n r.xid) c.pool + weigh (RpcServer.toRecord n r.xid) ts)
    (answer : Answer c.shared c'.shared t ts n r) :
    r.cbPresent = true ↔
      weigh (RpcServer.toRecord n r.xid) c'.pool = 0 ∧ c'.shared.Writable n r.xid := by
  have once := counted.once
  simp only [calls] at once
  cases answer with
  | same old executions weight =>
      have kept : weigh (RpcServer.toRecord n r.xid) c'.pool =
          weigh (RpcServer.toRecord n r.xid) c.pool := by omega
      rw [kept, Writable, executions]
      exact inv.answered r old
  | taken free absent executions =>
      have none : c.shared.executionsOf n r.xid = [] := by
        have uncalled : ¬ 0 < calls n r.xid c := fun some => free (counted.covered some)
        simp only [calls] at uncalled
        apply List.eq_nil_of_length_eq_zero
        omega
      rw [Writable, executions, none, absent]
      simp
  | made old running weight before =>
      have here : inHandler n r.xid t ≤ weigh (inHandler n r.xid) c.pool :=
        weigh_pos (split.mem_iff.mpr List.mem_cons_self)
      have none : c.shared.executionsOf n r.xid = [] := by
        apply List.eq_nil_of_length_eq_zero
        omega
      have absent : r.cbPresent ≠ true := by
        rw [ne_eq, inv.answered r old, Writable, none]
        simp
      constructor
      · intro present
        exact absurd present absent
      · rintro ⟨idle, _⟩
        omega
  | recorded present writable executions weight before =>
      have here : RpcServer.toRecord n r.xid t ≤ weigh (RpcServer.toRecord n r.xid) c.pool :=
        weigh_pos (split.mem_iff.mpr List.mem_cons_self)
      have made := inv.toRecord r.xid
      exact ⟨fun _ => ⟨by omega, writable⟩, fun _ => present⟩
  | unwritten old refused executions before =>
      have here : RpcServer.toRecord n r.xid t ≤ weigh (RpcServer.toRecord n r.xid) c.pool :=
        weigh_pos (split.mem_iff.mpr List.mem_cons_self)
      constructor
      · intro present
        obtain ⟨idle, _⟩ := (inv.answered r old).mp present
        omega
      · -- the handler came back once, with the result that was refused
        rintro ⟨_, ex', listed', buf, written⟩
        obtain ⟨ex, listed, e, threw⟩ := refused
        rw [executions] at listed'
        have some := List.length_pos_of_mem listed
        have one : (c.shared.executionsOf n r.xid).length = 1 := by omega
        obtain ⟨only, same⟩ := List.length_eq_one_iff.mp one
        rw [same, List.mem_singleton] at listed listed'
        rw [listed'.trans listed.symm, threw] at written
        cases written

theorem Recalls.next {n : UInt32} (pos : 0 < n) {m : Move (ServerLabel S ς) ServerEvent}
    (inv : Recalls n c) (known : Traced (fun _ _ => True) c) (counted : ∀ x, CallInv n x c)
    (handled : ∀ x, (c.shared.executionsOf n x).length + weigh (inHandler n x) c.pool ≤
      c.shared.invoked.count (n, x))
    (moved : (machine S ς).Moved c c' os m) : Recalls n c' := by
  cases moved with
  | spawn ts ran _ left =>
      obtain ⟨ps, shared, rfl⟩ := spawn_spec ran
      rw [List.nil_append] at left
      have same : ∀ x, calls n x c' = calls n x c := fun x => by simp [calls, left, shared]
      refine ⟨shared ▸ inv.sorted, shared ▸ inv.above, ?_, ?_, ?_⟩
      · intro r member
        rw [same]
        exact inv.owed r (by rwa [shared] at member)
      · intro x
        rw [left, shared]
        exact inv.toRecord x
      · intro r member
        rw [left, shared]
        exact inv.answered r (by rwa [shared] at member)
  | act t rest ts taken split ran left =>
      have step := acted ran
      have task := known.task t (List.mem_of_getElem? taken)
      have account := fun x => weigh_act (RpcServer.toRecord n x) split left
      refine ⟨acted_sorted step inv.sorted, acted_above step inv.above inv.sorted, ?_, ?_, ?_⟩
      · intro r member
        have more := weigh_act (aboutToInvoke n r.xid) split left
        rcases acted_owed step member with ⟨old, here, same⟩ | owed
        · have before := inv.owed old here
          rw [same] at before
          have kept := acted_calls step pos r.xid inv.sorted
          simp only [calls] at before ⊢
          omega
        · simp only [calls, left, weigh_append]
          omega
      · intro x
        have before := inv.toRecord x
        have more := acted_toRecord step n x
        have := account x
        omega
      · intro r member
        exact inv.answer (counted r.xid) (handled r.xid) split (account r.xid)
          (acted_answer step inv.sorted task pos member)

theorem reachable_known {nonce : UInt32}
    (run : Reachable (machine S ς).system anyStep (start S ς nonce) c) :
    Traced (fun _ _ => True) c := by
  apply Machine.invariant run (start_traced _ nonce)
  intro c m c' os traced _ moved
  exact traced.move moved fun _ _ _ _ _ => trivial

theorem reachable_recalls {nonce : UInt32}
    (run : Reachable (machine S ς).system anyStep (start S ς nonce) c) {n : UInt32} (pos : 0 < n) :
    Recalls n c := by
  apply run.invariant
  · refine ⟨fun _ => List.Pairwise.nil, ?_, ?_, fun _ => Nat.le_refl _, ?_⟩
    · intro n r member; cases member
    · intro r member; cases member
    · intro r member; cases member
  · intro c m c' reached inv _ moved
    obtain ⟨os, moved⟩ := Machine.moved_of_system moved
    exact inv.next pos (reachable_known reached) (reachable_callInv reached pos)
      (reachable_executions reached n) moved

/-- Whatever is sent to the server, the window of a client lists by ascending xid the calls
above the mark that were made or are owed. An entry has a reply from the moment that
`AddReply` got the one of the run, unless `Buf` refused it, and has its bytes. -/
theorem window_is_history (nonce : UInt32) (c : Cfg (RpcServer S ς) (ServerTask S ς))
    (run : Reachable (machine S ς).system anyStep (start S ς nonce) c) (n : UInt32) (pos : 0 < n) :
    DupFilter.Ascending (c.shared.filter.window n) ∧
      (∀ x, x ∈ (c.shared.filter.window n).map ReplyT.xid ↔
        c.shared.filter.maxAckowledgedRep n < x ∧ 0 < calls n x c) ∧
      ∀ r ∈ c.shared.filter.window n, r.cbPresent = true ↔
        weigh (toRecord n r.xid) c.pool = 0 ∧
          ∃ ex, c.shared.executionsOf n r.xid = [ex] ∧ ex.buf = .ok r.buf := by
  have inv := reachable_recalls run pos
  refine ⟨inv.sorted n, fun x => ⟨?_, ?_⟩, fun r member => ⟨fun present => ?_, ?_⟩⟩
  · intro listed
    obtain ⟨r, member, rfl⟩ := List.mem_map.mp listed
    exact ⟨inv.above n r member, inv.owed r member⟩
  · rintro ⟨above, owed⟩
    rcases (reachable_callInv run pos x).covered owed with acked | ⟨r, member, rfl⟩
    · exact absurd above (Nat.not_lt_of_le acked)
    · exact List.mem_map_of_mem member
  · obtain ⟨idle, _⟩ := (inv.answered r member).mp present
    obtain ⟨ex, executed, client, xid, bytes⟩ := (reachable_known run).shared.entries n r member present
    have once := (reachable_callInv run pos r.xid).once
    have handled := reachable_executions run n r.xid
    have here : ex ∈ c.shared.executionsOf n r.xid :=
      List.mem_filter.mpr ⟨executed, by simp [client, xid]⟩
    have some := List.length_pos_of_mem here
    simp only [calls] at once
    have one : (c.shared.executionsOf n r.xid).length = 1 := by omega
    obtain ⟨ex', only⟩ := List.length_eq_one_iff.mp one
    rw [only] at here
    exact ⟨idle, ex, by rw [only, List.mem_singleton.mp here], bytes⟩
  · rintro ⟨idle, ex, only, bytes⟩
    refine (inv.answered r member).mpr ⟨idle, ex, ?_, r.buf, bytes⟩
    rw [only]
    exact List.mem_singleton_self ex

theorem window_is_history_duplicated :
    ∃ c, Reachable (machine .sample Nat).system anyStep (start .sample Nat 77) c ∧
      c.shared.invoked = [(5, 2)] ∧ 2 ∈ (c.shared.filter.window 5).map ReplyT.xid := by
  obtain ⟨c, ran, made⟩ := duplicatedRequest_run
  have run := (System.exec_reachable ran).any
  have fresh : c.shared.filter.maxAckowledgedRep 5 = 0 := by
    cases ran
    rfl
  refine ⟨c, run, made, ((window_is_history 77 c run 5 (by decide)).2.1 2).mpr ⟨?_, ?_⟩⟩
  · rw [fresh]
    decide
  · rw [calls, made]
    exact Nat.lt_of_lt_of_le Nat.one_pos (Nat.le_add_right _ _)

end RpcServer

namespace Network

variable {S : Services} {κ ι : Type}

theorem ascending_between {w : List Nat} (ascending : w.Pairwise (· < ·)) {low high : Nat}
    (within : ∀ x ∈ w, low < x ∧ x < high) (room : low < high) : w.length + low < high := by
  have distinct : w.Nodup := ascending.imp Nat.ne_of_lt
  have inside : w ⊆ List.range' (low + 1) (high - low - 1) := by
    intro x member
    obtain ⟨above, below⟩ := within x member
    rw [List.mem_range'_1]
    omega
  have short := (distinct.subperm inside).length_le
  rw [List.length_range'] at short
  omega

/-- A request that an instance has read is of a call that its client made. -/
theorem Traced.asked_issued {N : Nonces κ ι} {net : Network S κ ι} (traced : Traced N net)
    {s : κ × Nat} {h : RequestHeader} {req : Unmarshall}
    (asked : RpcServer.Asked net.arriving s h req) : h.cltNonce = N.client s.1 ∧
      2 ≤ h.xid ∧ h.xid < (net.client s.1).shared.xid := by
  obtain ⟨_, client, args, issued, _⟩ := traced.asked asked
  have known := (traced.client s.1).held.shared
  refine ⟨client, known.least.2 _ _ issued, Nat.lt_of_not_le fun late => ?_⟩
  rw [known.fresh _ late] at issued
  cases issued

/-- A client acknowledges calls that it made. -/
theorem Traced.front_issued {N : Nonces κ ι} {net : Network S κ ι} (traced : Traced N net) (k : κ) :
    max 1 (XidWindow.front (net.client k).shared.xidRepWindow) < (net.client k).shared.xid := by
  have known := (traced.client k).held.shared
  refine max_lt known.least.1 ?_
  cases window : (net.client k).shared.xidRepWindow with
  | nil => exact Nat.lt_of_lt_of_le Nat.two_pos known.least.1
  | cons x rest =>
      obtain ⟨h, u, got, rfl⟩ := known.received x (known.window x (window ▸ List.mem_cons_self))
      obtain ⟨i, issued⟩ := traced.got_issued got
      refine Nat.lt_of_not_le fun late => ?_
      have late : (net.client k).shared.xid ≤ h.xid := late
      rw [known.fresh _ late] at issued
      cases issued

/-- The server remembers nothing of strangers, and of a client no more than the calls that
it made and has not acknowledged. -/
theorem memory_bounded [DecidableEq κ] [DecidableEq ι] (N : Nonces κ ι) (net : Network S κ ι)
    (run : Reachable (system S κ ι) anyStep (start S N) net) (v : ι) :
    (∀ k, ((net.server v).shared.filter.window (N.client k)).length +
        max 1 ((net.server v).shared.filter.maxAckowledgedRep (N.client k)) <
      (net.client k).shared.xid) ∧
    ∀ n, (∀ k, N.client k ≠ n) → (net.server v).shared.filter.window n = [] ∧
      (net.server v).shared.filter.maxAckowledgedRep n = 0 := by
  have traced := reachable_traced run
  have known := (traced.server v).shared
  constructor
  · intro k
    have inv := RpcServer.reachable_recalls (server_reachable run v) (N.client_pos k)
    rw [← List.length_map (f := ReplyT.xid)]
    refine ascending_between (DupFilter.ascending_iff.mp (inv.sorted _)) ?_ ?_
    · intro x listed
      obtain ⟨r, member, rfl⟩ := List.mem_map.mp listed
      obtain ⟨s, h, req, asked, client, same⟩ := known.taken _ r member
      obtain ⟨client', low, high⟩ := traced.asked_issued asked
      obtain rfl : s.1 = k := N.client_injective (client'.symm.trans client)
      rw [same] at low high
      exact ⟨max_lt low (inv.above _ r member), high⟩
    · exact (max_le_max_left 1 (traced.acked_le_front v k)).trans_lt (traced.front_issued k)
  · intro n stranger
    have unasked : ∀ s h req, RpcServer.Asked net.arriving s h req → h.cltNonce ≠ n := by
      intro s h req asked client
      exact stranger s.1 ((traced.asked_issued asked).1.symm.trans client)
    constructor
    · apply List.eq_nil_iff_forall_not_mem.mpr
      intro r member
      obtain ⟨s, h, req, asked, client, _⟩ := known.taken n r member
      exact unasked s h req asked client
    · by_contra some
      obtain ⟨s, h, req, asked, client, _⟩ := known.acked n some
      exact unasked s h req asked client

/-- `Bind` is acknowledged and the call that runs is the one entry: the bound is met. -/
theorem memory_bounded_called : ∃ net : Network .sample Unit Bool,
    Reachable (system .sample Unit Bool) anyStep (start .sample restarted) net ∧
      (net.server false).shared.invoked.count (5, 3) = 1 ∧
      ((net.server false).shared.filter.window 5).length +
        max 1 ((net.server false).shared.filter.maxAckowledgedRep 5) < (net.client ()).shared.xid := by
  obtain ⟨net, ran, _, called⟩ := callAfterRestart_run
  have run := (System.exec_reachable ran).any
  exact ⟨net, run, called, (memory_bounded restarted net run false).1 ()⟩

end Network

end AsyncRpc
