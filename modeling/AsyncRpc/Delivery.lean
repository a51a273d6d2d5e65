import AsyncRpc.ServerHistory
import AsyncRpc.RpcClient

/-! Which replies of a server `GotPdu` can hand to a callback. -/
namespace AsyncRpc.Delivery
open Interleaving Transition

variable {S : Services} {ς : Type}

/-- A connection may deliver anything. -/
def anyBuffer : ς → S.Buf → Prop := fun _ _ => True

theorem reachable_traced [DecidableEq ς] {nonce : UInt32}
    {c : Cfg (RpcServer S ς) (ServerTask S ς)}
    (run : Reachable (RpcServer.machine S ς).system anyStep (RpcServer.start S ς nonce) c) :
    RpcServer.Traced anyBuffer c := by
  apply Machine.invariant run (RpcServer.start_traced _ _)
  intro c m c' os inv _ moved
  exact inv.move moved fun _ _ _ _ _ => trivial

/-- The section answers with an error: the request names another instance, or its xid
is acknowledged by then. -/
def Refuses (sv : RpcServer S ς) : ServerTask S ς → Prop
  | .dispatch _ buf => ∃ h req, RpcServer.Reads buf h req ∧ h.srvNonce ≠ 0 ∧ h.srvNonce ≠ sv.nonce
  | .check _ h _ => h.xid ≤ max (sv.filter.maxAckowledgedRep h.cltNonce) h.xidRep
  | _ => False

/-- The execution whose result a section hands over: the one it has just made, or the
one of its client and xid. -/
def replyOf (sv' : RpcServer S ς) : ServerTask S ς → Option (Execution S)
  | .running _ _ _ => sv'.executions.head?
  | .record _ h _ => (sv'.executionsOf h.cltNonce h.xid).head?
  | .remembered _ n x => (sv'.executionsOf n x).head?
  | _ => none

/-- A section that hands a buffer to `Send` has either the result of a handler in it
or a bare error header. -/
inductive Answer (sv sv' : RpcServer S ς) (t : ServerTask S ς) (buf : S.Buf) : Prop
  | result (fine : ¬ Refuses sv t) {ex} (made : replyOf sv' t = some ex) (bytes : ex.buf = .ok buf)
  | bare (refused : Refuses sv t) {h : ReplyHeader} (same : buf = errorBuf S.toCodec h)

theorem dispatched_answer {sv : RpcServer S ς} {s s' : ς} {o : Origin} {req buf : S.Buf} {b : Bool}
    (ok : sv.dispatch s req = .ok (.send s' o buf b)) : Answer sv sv (.dispatch s req) buf := by
  cases RpcServer.dispatched ok with
  | oldServer reads bound other => exact .bare ⟨_, _, reads, bound, other⟩ rfl

theorem acted_answer [DecidableEq ς] {sv sv' : RpcServer S ς} {t : ServerTask S ς}
    {l : ServerLabel S ς} {ts : List (ServerTask S ς)} {os : List (ς × S.Buf)}
    (step : RpcServer.Acted sv t l sv' ts os) (known : RpcServer.Known anyBuffer sv)
    (task : RpcServer.TaskKnown anyBuffer sv t)
    (alone : ∀ ex ∈ sv.executions, 0 < ex.cltNonce → sv.executionsOf ex.cltNonce ex.xid = [ex])
    {s : ς} {o : Origin} {buf : S.Buf} (sends : .send s o buf false ∈ ts) : Answer sv sv' t buf := by
  have kept : ∀ ex ∈ sv.executions, 0 < ex.cltNonce →
      (sv.executionsOf ex.cltNonce ex.xid).head? = some ex := by
    intro ex member pos
    rw [alone ex member pos, List.head?_cons]
  cases step with
  | dispatched ok =>
      cases List.mem_singleton.mp sends
      exact dispatched_answer ok
  | @check s h req =>
      have sends := List.mem_singleton.mp sends
      cases verdict : (sv.filter.checkDuplicateAndUpdate S.empty h.cltNonce h.xid h.xidRep).1 with
      | new | inprogress | done => rw [verdict] at sends; cases sends
      | forgotten =>
          rw [verdict] at sends
          cases sends
          exact .bare ((DupFilter.check_forgotten_iff _ _ _ _ _).mp verdict) rfl
  | answered _ _ written =>
      cases List.mem_singleton.mp sends
      exact .result id rfl written
  | recorded _ written =>
      cases List.mem_singleton.mp sends
      obtain ⟨⟨_, pos⟩, ex, member, client, xid, _, same⟩ := task
      refine .result id ?_ (same.symm.trans written)
      have found := kept ex member (client ▸ pos)
      rw [client, xid] at found
      exact found
  | remembered entry here =>
      cases List.mem_singleton.mp sends
      obtain ⟨_, pos, _, present⟩ := task
      obtain ⟨ex, member, rfl, xid, bytes⟩ := known.entries _ _ entry (present _ entry here)
      refine .result id ?_ bytes
      have found := kept ex member pos
      rw [xid, here] at found
      exact found
  | sent => cases RpcServer.mem_onSent sends
  | _ => simp at sends

/-- `GotPdu` from its first section to its callback, with nothing in between. -/
def gotPdu (c : RpcClient S) (buf : S.Buf) : Option (Cfg (RpcClient S) (ClientTask S)) :=
  (RpcClient.machine S).system.exec (fun _ _ => true) ⟨c, [.gotPdu buf]⟩
    [.act 0 .go, .act 0 .go, .act 0 .go, .act 0 .go]

/-- No exception, the caller is gone, and its callback has run once, with the error
code of the header. -/
def Delivers (c : RpcClient S) (buf : S.Buf) (h : ReplyHeader) : Prop :=
  ∃ c', gotPdu c buf = some c' ∧ c'.shared.escaped = c.escaped ∧ h.xid ∉ c'.shared.callers ∧
    ∃ run, c'.shared.callbacks = run :: c.callbacks ∧ run.xid = h.xid ∧ run.err = h.err

theorem exec_go {c c' : RpcClient S} {t : ClientTask S} {ts : List (ClientTask S)} {os : List S.Buf}
    (step : c.act t .go = some (c', ts, os)) (moves : List (Move (ClientLabel S) (ClientEvent S))) :
    (RpcClient.machine S).system.exec (fun _ _ => true) ⟨c, [t]⟩ (.act 0 .go :: moves) =
      (RpcClient.machine S).system.exec (fun _ _ => true) ⟨c', ts⟩ moves := by
  have moved : (RpcClient.machine S).system.next ⟨c, [t]⟩ (.act 0 .go) = some ⟨c', ts⟩ := by
    simp [Machine.system, Machine.next, RpcClient.machine, step]
  rw [System.exec, if_pos rfl, moved]
  rfl

def acknowledged (c : RpcClient S) (x : Nat) : RpcClient S :=
  { c with
    xidRepWindow := XidWindow.updateXidRep c.xidRepWindow x
    received := x :: c.received }

def answered (caller : Caller S) (e : Err) : Caller S := { caller with done := true, err := e }

/-- The state in which `GotPdu` extracts the reply for a caller that is not done. -/
def taken (c : RpcClient S) (h : ReplyHeader) (caller : Caller S) : RpcClient S :=
  { acknowledged c h.xid with callers := c.callers.erase h.xid }.store h.xid
    (some (answered caller h.err))

theorem gotPdu_extracts {c : RpcClient S} {buf : S.Buf} {h : ReplyHeader} {u : Unmarshall}
    {caller : Caller S} (reads : RpcClient.readReply buf = .ok (h, u)) (pending : h.xid ∈ c.callers)
    (live : c.heap h.xid = some caller) (undone : caller.done = false) :
    gotPdu c buf = (RpcClient.machine S).system.exec (fun _ _ => true)
      ⟨taken c h caller, [.deliver h u]⟩ [.act 0 .go] := by
  have read : c.act (.gotPdu buf) .go = some (acknowledged c h.xid, [.claim h u], []) := by
    simp only [RpcClient.act, reads]; rfl
  have claimed : (acknowledged c h.xid).act (.claim h u) .go = some
      ({ acknowledged c h.xid with callers := c.callers.erase h.xid }, [.claimed h u], []) :=
    if_pos pending
  unfold gotPdu
  rw [exec_go read, exec_go claimed]
  have extracts : RpcClient.act { acknowledged c h.xid with callers := c.callers.erase h.xid }
      (.claimed h u) .go = some (taken c h caller, [.deliver h u], []) := by
    simp [RpcClient.act, acknowledged, live, undone, taken, answered]
  exact exec_go extracts _

theorem deliver_result {c : RpcClient S} {h : ReplyHeader} {u : Unmarshall} {caller : Caller S}
    {v : S.Rep caller.proc} (live : c.heap h.xid = some caller)
    (value : (u.get (S.rep caller.proc)).1 = .ok v) :
    ∃ c' ts, c.act (.deliver h u) .go = some (c', ts, []) ∧ c'.escaped = c.escaped ∧
      c'.callers = c.callers ∧
      c'.callbacks = ⟨h.xid, caller.proc, h.err, some v⟩ :: c.callbacks := by
  refine ⟨_, _, by simp only [RpcClient.act, live, Option.map_some, value]; rfl, ?_, ?_, ?_⟩ <;>
    rw [RpcClient.bindCallback_eq] <;> rfl

/-- The result in a reply, as the parser reads it, unmarshals as a reply of procedure `p`. -/
def Unmarshals (ex : Execution S) (p : Nat) : Prop :=
  ∃ v, (S.rep p).fromJson ((S.rep ex.proc).toJson ex.reply).normal = .ok v

theorem result_delivered {c : RpcClient S} {ex : Execution S} {buf : S.Buf} {caller : Caller S}
    (bytes : ex.buf = .ok buf) (pending : ex.xid ∈ c.callers) (live : c.heap ex.xid = some caller)
    (undone : caller.done = false) (unmarshals : Unmarshals ex caller.proc) :
    Delivers c buf ⟨ex.xid, ex.err⟩ := by
  obtain ⟨v, value⟩ := unmarshals
  rw [← replyDoc_get (S.rep caller.proc) ex.proc ⟨ex.xid, ex.err⟩ ex.reply] at value
  have extracts := gotPdu_extracts (RpcClient.readReply_replyDoc bytes) pending live undone
  have there : (taken c ⟨ex.xid, ex.err⟩ caller).heap ex.xid =
      some (answered caller ex.err) := Function.update_self _ _ _
  obtain ⟨c', ts, step, quiet, callers, callbacks⟩ :=
    deliver_result (h := ⟨ex.xid, ex.err⟩) there value
  rw [exec_go step] at extracts
  refine ⟨_, extracts, quiet, ?_, _, callbacks, rfl, rfl⟩
  rw [callers]
  exact Finset.notMem_erase ex.xid c.callers

/-- A reply whose value does not unmarshal is thrown at. -/
theorem undelivered {c : RpcClient S} {buf : S.Buf} {h : ReplyHeader} {u : Unmarshall}
    {caller : Caller S} {e : Exn} (reads : RpcClient.readReply buf = .ok (h, u))
    (pending : h.xid ∈ c.callers) (live : c.heap h.xid = some caller) (undone : caller.done = false)
    (fails : (u.get (S.rep caller.proc)).1 = .error e) : ¬ Delivers c buf h := by
  rintro ⟨c', ran, quiet, _⟩
  rw [gotPdu_extracts reads pending live undone] at ran
  have fails : (u.get (S.rep (answered caller h.err).proc)).1 = .error e := fails
  have threw : (taken c h caller).act (.deliver h u) .go =
      some (((taken c h caller).store h.xid none).throwing e, [], []) := by
    simp [RpcClient.act, taken, RpcClient.store, fails]
  rw [exec_go threw] at ran
  cases ran
  have longer := congrArg List.length quiet
  simp [RpcClient.throwing, RpcClient.store, taken, acknowledged] at longer

theorem bare_undelivered {c : RpcClient S} {h : ReplyHeader} {caller : Caller S}
    (pending : h.xid ∈ c.callers) (live : c.heap h.xid = some caller)
    (undone : caller.done = false) : ¬ Delivers c (errorBuf S.toCodec h) h :=
  undelivered (RpcClient.readReply_errorDoc S h) pending live undone (errorDoc_get _ h)

/-- In every run of a server, a buffer handed to `Send` reaches the callback of a
pending caller if and only if the section that sends it does not refuse the request,
and the result in it unmarshals as the reply that the caller waits for. -/
theorem reply_delivered_iff [DecidableEq ς] (nonce : UInt32)
    (c : Cfg (RpcServer S ς) (ServerTask S ς))
    (run : Reachable (RpcServer.machine S ς).system anyStep (RpcServer.start S ς nonce) c)
    (t : ServerTask S ς) (inPool : t ∈ c.pool) (l : ServerLabel S ς) (sv' : RpcServer S ς)
    (ts : List (ServerTask S ς)) (os : List (ς × S.Buf))
    (ran : c.shared.act t l = some (sv', ts, os)) (s : ς) (o : Origin) (buf : S.Buf)
    (sends : .send s o buf false ∈ ts) :
    ∃ h u, RpcClient.readReply buf = .ok (h, u) ∧
      ∀ (client : RpcClient S) (caller : Caller S), h.xid ∈ client.callers →
        client.heap h.xid = some caller → caller.done = false →
        (Delivers client buf h ↔ ¬ Refuses c.shared t ∧
          ∃ ex, replyOf sv' t = some ex ∧ Unmarshals ex caller.proc) := by
  have traced := reachable_traced run
  cases acted_answer (RpcServer.acted ran) traced.shared (traced.task t inPool)
    (fun ex member pos => (RpcServer.execution_alone run member pos).1) sends with
  | @result fine ex made bytes =>
      have reads := RpcClient.readReply_replyDoc bytes
      refine ⟨_, _, reads, fun client caller pending live undone => ⟨fun delivers => ?_, ?_⟩⟩
      · refine ⟨fine, ex, made, ?_⟩
        cases value : (S.rep caller.proc).fromJson ((S.rep ex.proc).toJson ex.reply).normal with
        | ok v => exact ⟨v, value⟩
        | error e =>
            rw [← replyDoc_get (S.rep caller.proc) ex.proc ⟨ex.xid, ex.err⟩ ex.reply] at value
            exact absurd delivers (undelivered reads pending live undone value)
      · rintro ⟨_, ex', made', unmarshals⟩
        cases made.symm.trans made'
        exact result_delivered bytes pending live undone unmarshals
  | @bare refused h same =>
      subst same
      refine ⟨_, _, RpcClient.readReply_errorDoc S h, fun client caller pending live undone => ?_⟩
      exact ⟨fun delivers => absurd delivers (bare_undelivered pending live undone),
        fun fine => absurd refused fine.1⟩

/-- A client with nonce 5 that waits for the reply to its call of `p` with xid `x`. -/
def waiting (x p : Nat) (srvNonce : UInt32) : RpcClient .sample where
  cltNonce := 5
  srvNonce := srvNonce
  bindDone := srvNonce ≠ 0
  xid := x + 1
  callers := {x}
  heap := fun y => if y = x then some { proc := p, cb := .app, buf := Json.null } else none

/-- A server that runs `Bind` for the first request of that client. -/
def boundOnce : List (Move (ServerLabel .sample Nat) ServerEvent) :=
  let buf : Json := (requestDoc .sample ⟨2, BIND, 5, 0, 0⟩ (0 : UInt32)).json
  [.act 0 (.accepted 0 .ok), .act 0 (.received buf .ok), .act 0 .go, .act 0 .go, .act 0 .go,
    .act 0 .go, .act 0 .go]

theorem boundOnce_run : ∃ c t sv' s o buf,
    (RpcServer.machine .sample Nat).system.exec (fun _ _ => true) (RpcServer.start .sample Nat 77)
      boundOnce = some c ∧ t ∈ c.pool ∧
    c.shared.act t .go = some (sv', [.send s o buf false], []) ∧ ¬ Refuses c.shared t ∧
    RpcClient.readReply buf = .ok (⟨2, .ok⟩, ⟨buf, 0⟩) ∧
    ∃ ex, replyOf sv' t = some ex ∧ Unmarshals ex BIND :=
  ⟨_, _, _, _, _, _, rfl, List.mem_cons_self, rfl, id, rfl, _, rfl, (77 : UInt32), rfl⟩

theorem reply_delivered_iff_bound : ∃ buf, Delivers (waiting 2 BIND 0) buf ⟨2, .ok⟩ := by
  obtain ⟨c, t, sv', s, o, buf, ran, inPool, step, fine, reads, ex, made, unmarshals⟩ := boundOnce_run
  obtain ⟨h, u, same, delivers⟩ := reply_delivered_iff 77 c (System.exec_reachable ran).any t inPool
    .go sv' _ _ step s o buf List.mem_cons_self
  rw [reads] at same
  cases same
  exact ⟨buf, (delivers (waiting 2 BIND 0) _ (by simp [waiting]) rfl rfl).mpr
    ⟨fine, ex, made, unmarshals⟩⟩

/-- A server with nonce 77 gets a request of a client that bound to nonce 66. -/
def requestForOldInstance : List (Move (ServerLabel .sample Nat) ServerEvent) :=
  let buf : Json := (requestDoc .sample ⟨3, 7, 5, 66, 2⟩ (1 : UInt32)).json
  [.act 0 (.accepted 0 .ok), .act 0 (.received buf .ok)]

theorem requestForOldInstance_run : ∃ c t, (RpcServer.machine .sample Nat).system.exec
      (fun _ _ => true) (RpcServer.start .sample Nat 77) requestForOldInstance = some c ∧
    t ∈ c.pool ∧ c.shared.act t .go = some (c.shared,
      [.send 0 .oldServer (errorBuf Services.sample.toCodec ⟨3, .oldserverFailure⟩) false],
      []) :=
  ⟨_, _, rfl, List.mem_cons_self, rfl⟩

theorem old_instance_reply_lost : ¬ ∀ (nonce : UInt32)
    (c : Cfg (RpcServer .sample Nat) (ServerTask .sample Nat)),
    Reachable (RpcServer.machine .sample Nat).system anyStep (RpcServer.start .sample Nat nonce) c →
    ∀ t ∈ c.pool, ∀ l sv' ts os, c.shared.act t l = some (sv', ts, os) →
    ∀ s o buf, .send s o buf false ∈ ts → ∀ h u, RpcClient.readReply buf = .ok (h, u) →
    ∀ (client : RpcClient .sample) (caller : Caller .sample), h.xid ∈ client.callers →
      client.heap h.xid = some caller → caller.done = false → Delivers client buf h := by
  intro always
  obtain ⟨c, t, ran, inPool, step⟩ := requestForOldInstance_run
  have pending : 3 ∈ (waiting 3 7 66).callers := by simp [waiting]
  have delivered := always 77 c (System.exec_reachable ran).any t inPool .go _ _ _ step 0 .oldServer
    _ List.mem_cons_self _ _ (RpcClient.readReply_errorDoc _ _) (waiting 3 7 66) _ pending rfl rfl
  exact bare_undelivered pending rfl rfl delivered

end AsyncRpc.Delivery
