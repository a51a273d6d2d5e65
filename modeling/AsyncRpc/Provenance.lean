import AsyncRpc.Network

/-! Every packet in flight is the request of an issued call or a reply to one, and
every party is in a state that such packets explain. -/
namespace AsyncRpc.Network
open Interleaving Transition

variable {S : Services} {κ ι : Type}

/-- The request of some call of client `k`. -/
def IsRequest (net : Network S κ ι) (k : κ) (buf : S.Buf) : Prop :=
  ∃ x, RpcClient.RequestOf (net.client k).shared x buf

/-- A reply of some instance to some call of client `k`. -/
def IsReply (net : Network S κ ι) (k : κ) (buf : S.Buf) : Prop :=
  ∃ v h o, (net.client k).shared.headers h.xid = some h ∧
    RpcServer.ReplyTo (net.server v).shared h o buf

def arriving (net : Network S κ ι) (s : κ × Nat) (buf : S.Buf) : Prop := net.IsRequest s.1 buf

structure Traced (N : Nonces κ ι) (net : Network S κ ι) : Prop where
  client : ∀ k, RpcClient.Traced (net.IsReply k) (net.client k)
  server : ∀ v, RpcServer.Traced net.arriving (net.server v)
  requests : ∀ p ∈ net.requests, net.IsRequest p.1 p.2
  replies : ∀ p ∈ net.replies, net.IsReply p.1 p.2
  cltNonce : ∀ k, (net.client k).shared.cltNonce = N.client k
  nonce : ∀ v, (net.server v).shared.nonce = N.server v

structure Grown (net net' : Network S κ ι) : Prop where
  client : ∀ k, RpcClient.Grown (net.client k).shared (net'.client k).shared
  server : ∀ v, RpcServer.Grown (net.server v).shared (net'.server v).shared

variable {N : Nonces κ ι} {net net' : Network S κ ι}

theorem IsRequest.mono (grown : Grown net net') {k : κ} {buf : S.Buf} (h : net.IsRequest k buf) :
    net'.IsRequest k buf :=
  h.imp fun _ request => request.mono (grown.client k)

theorem IsReply.mono (grown : Grown net net') {k : κ} {buf : S.Buf} (h : net.IsReply k buf) :
    net'.IsReply k buf := by
  obtain ⟨v, h, o, header, reply⟩ := h
  exact ⟨v, h, o, (grown.client k).headers _ _ header, reply.mono (grown.server v)⟩

/-- What a request holds is the header and the arguments of the call. -/
theorem request_reads {c : RpcClient S} {x : Nat} {buf : S.Buf}
    (request : RpcClient.RequestOf c x buf) {h : RequestHeader} {req : Unmarshall}
    (reads : RpcServer.Reads buf h req) :
    c.headers x = some h ∧ ∃ args, c.issued x = some ⟨h.proc, args⟩ ∧
      (req.get (S.args h.proc)).1 = (S.args h.proc).readback args := by
  obtain ⟨h', args, header, issued, written⟩ := request
  obtain ⟨parsed, headed⟩ := reads
  rw [ofBuf_buf written] at parsed
  cases parsed
  rw [requestDoc_getRequest] at headed
  cases headed
  exact ⟨header, args, issued, requestDoc_get _ h args⟩

/-- A request that an instance read is a call of the client at the other end. -/
theorem Traced.asked (traced : Traced N net) {s : κ × Nat} {h : RequestHeader} {req : Unmarshall}
    (asked : RpcServer.Asked net.arriving s h req) :
    (net.client s.1).shared.headers h.xid = some h ∧ h.cltNonce = N.client s.1 ∧
      ∃ args, (net.client s.1).shared.issued h.xid = some ⟨h.proc, args⟩ ∧
        (req.get (S.args h.proc)).1 = (S.args h.proc).readback args := by
  obtain ⟨buf, ⟨x, request⟩, reads⟩ := asked
  obtain ⟨header, args, issued, read⟩ := request_reads request reads
  have known := (traced.client s.1).held.shared.headers x h header
  obtain rfl : h.xid = x := known.xid
  exact ⟨header, known.cltNonce.trans (traced.cltNonce s.1), args, issued, read⟩

theorem start_traced (N : Nonces κ ι) : Traced N (start S N) where
  client k := RpcClient.start_traced _ _
  server v := RpcServer.start_traced _ _
  requests p member := by cases member
  replies p member := by cases member
  cltNonce _ := rfl
  nonce _ := rfl

/-- An execution is one of an issued call, on what came of the arguments of that call. -/
theorem Traced.execution (traced : Traced N net) {v : ι} {ex : Execution S}
    (member : ex ∈ (net.server v).shared.executions) : ∃ k h, ex.cltNonce = N.client k ∧
      (net.client k).shared.headers ex.xid = some h ∧ h.proc = ex.proc ∧
      (net.server v).shared.Current h ∧ ∃ args,
      (net.client k).shared.issued ex.xid = some ⟨ex.proc, args⟩ ∧
      (S.args ex.proc).readback args = .ok ex.args := by
  obtain ⟨⟨s, h, req, args, e, r, asked, current, read, rfl⟩, _⟩ :=
    (traced.server v).shared.performed ex member
  obtain ⟨header, client, args', issued, read'⟩ := traced.asked asked
  exact ⟨s.1, h, client, header, rfl, current, args', issued, read'.symm.trans read⟩

/-- What client `k` can read from the packets that come for it. -/
inductive ReplyRead (N : Nonces κ ι) (net : Network S κ ι) (k : κ) (h : ReplyHeader)
    (u : Unmarshall) : Prop
  | result {v ex} (member : ex ∈ (net.server v).shared.executions)
      (client : ex.cltNonce = N.client k) (header : h = ⟨ex.xid, ex.err⟩)
      (rest : u = ⟨(replyDoc S ex.proc ⟨ex.xid, ex.err⟩ ex.reply).json.normal, 0⟩)
  | oldServer {v req} (built : (net.client k).shared.headers h.xid = some req)
      (bound : req.srvNonce ≠ 0) (other : req.srvNonce ≠ N.server v)
      (err : h.err = .oldserverFailure) (rest : u = ⟨(errorDoc h).json.normal, 0⟩)
  | forgotten {v req} (built : (net.client k).shared.headers h.xid = some req)
      (acked : h.xid ≤ (net.server v).shared.filter.maxAckowledgedRep (N.client k))
      (err : h.err = .atmostOnceFailure) (rest : u = ⟨(errorDoc h).json.normal, 0⟩)

theorem Traced.got (traced : Traced N net) {k : κ} {h : ReplyHeader} {u : Unmarshall}
    (got : RpcClient.Got (net.IsReply k) h u) : ReplyRead N net k h u := by
  obtain ⟨buf, ⟨v, req, o, header, reply⟩, reads⟩ := got
  have client : req.cltNonce = N.client k :=
    ((traced.client k).held.shared.headers _ _ header).cltNonce.trans (traced.cltNonce k)
  cases reply with
  | handled member key _ _ written =>
      cases (RpcClient.readReply_replyDoc written).symm.trans reads
      exact .result member (key.trans client) rfl rfl
  | remembered member key _ _ written =>
      cases (RpcClient.readReply_replyDoc written).symm.trans reads
      exact .result member (key.trans client) rfl rfl
  | oldServer bound other =>
      cases (RpcClient.readReply_errorDoc S _).symm.trans reads
      exact .oldServer header bound (traced.nonce v ▸ other) rfl rfl
  | forgotten _ acked =>
      cases (RpcClient.readReply_errorDoc S _).symm.trans reads
      exact .forgotten header (client ▸ acked) rfl rfl

/-- A packet that comes for a client is about a call of its own. -/
theorem Traced.got_issued (traced : Traced N net) {k : κ} {h : ReplyHeader} {u : Unmarshall}
    (got : RpcClient.Got (net.IsReply k) h u) :
    ∃ i, (net.client k).shared.issued h.xid = some i := by
  have issued : ∀ {req}, (net.client k).shared.headers h.xid = some req →
      ∃ i, (net.client k).shared.issued h.xid = some i := by
    intro req built
    obtain ⟨args, issued⟩ := ((traced.client k).held.shared.headers h.xid req built).issued
    exact ⟨_, issued⟩
  cases traced.got got with
  | @result v ex member client header =>
      obtain ⟨k', hd, client', _, _, _, args, issued', _⟩ := traced.execution member
      obtain rfl : k = k' := N.client_injective (client.symm.trans client')
      subst header
      exact ⟨_, issued'⟩
  | oldServer built => exact issued built
  | forgotten built => exact issued built

/-- A value that a reply gave to a call is what came of the result of an execution of
that call. -/
theorem Traced.replied (traced : Traced N net) {k : κ} {x p : Nat} {e : Err} {v : S.Rep p}
    (replied : RpcClient.Replied (net.IsReply k) (net.client k).shared x p e v) :
    ∃ i args args' r, (net.client k).shared.issued x = some ⟨p, args⟩ ∧
      (S.args p).readback args = .ok args' ∧ (S.rep p).readback r = .ok v ∧
      ⟨N.client k, x, p, args', e, r⟩ ∈ (net.server i).shared.executions := by
  obtain ⟨h, u, args, got, rfl, rfl, issued, value⟩ := replied
  cases traced.got got.1 with
  | @result i ex member client header rest =>
      subst header rest
      obtain ⟨k', hd, client', _, _, _, args', issued', read⟩ := traced.execution member
      obtain rfl : k = k' := N.client_injective (client.symm.trans client')
      cases issued.symm.trans issued'
      rw [replyDoc_get] at value
      exact ⟨i, args', ex.args, ex.reply, issued, read, value, client ▸ member⟩
  | oldServer _ _ _ _ rest =>
      subst rest
      rw [errorDoc_get] at value
      cases value
  | forgotten _ _ _ rest =>
      subst rest
      rw [errorDoc_get] at value
      cases value

/-! With types that read what they wrote, values arrive as they left. -/

theorem Traced.replied_same (traced : Traced N net) (faithful : S.Faithful) {k : κ} {x p : Nat}
    {e : Err} {v : S.Rep p}
    (replied : RpcClient.Replied (net.IsReply k) (net.client k).shared x p e v) :
    ∃ i args, (net.client k).shared.issued x = some ⟨p, args⟩ ∧
      ⟨N.client k, x, p, args, e, v⟩ ∈ (net.server i).shared.executions := by
  obtain ⟨i, args, args', r, issued, read, value, executed⟩ := traced.replied replied
  obtain rfl := (faithful p).1 args args' read
  obtain rfl := (faithful p).2 r v value
  exact ⟨i, args', issued, executed⟩

/-- An instance that runs a handler was asked for it by a call of the client with that
nonce, in a request that names this instance or none. -/
theorem Traced.invoked (traced : Traced N net) {v : ι} {n : UInt32} {x : Nat}
    (member : (n, x) ∈ (net.server v).shared.invoked) : ∃ k h, N.client k = n ∧
      (net.client k).shared.headers x = some h ∧ (h.srvNonce ≠ 0 → h.srvNonce = N.server v) := by
  obtain ⟨s, h, req, asked, current, same⟩ := (traced.server v).shared.invoked (n, x) member
  obtain ⟨rfl, rfl⟩ := Prod.mk.inj same
  obtain ⟨header, client, _⟩ := traced.asked asked
  refine ⟨s.1, h, client.symm, header, fun bound => ?_⟩
  exact (current bound).trans (traced.nonce v)

/-- The nonce of a Bind reply that reached a callback is that of an instance. -/
theorem Traced.bound (traced : Traced N net) {k : κ} {n : UInt32}
    (bound : (net.client k).shared.Bound n) : ∃ v, n = N.server v := by
  obtain ⟨x, r, ran, rfl⟩ := bound
  have known := (traced.client k).held.shared.runs _ ran
  obtain ⟨v, _, args, r', _, _, value, executed⟩ := traced.replied (known.replied r rfl)
  obtain ⟨_, isNonce⟩ := ((traced.server v).shared.performed _ executed).2 rfl
  cases (S.nonce_travels r').2.symm.trans value
  have isNonce : r = S.nonce.symm (net.server v).shared.nonce := isNonce
  exact ⟨v, by rw [isNonce, Equiv.apply_symm_apply, traced.nonce v]⟩

/-- A retransmitting client never binds again: no execution of `BIND` fails, and a reply
without a result runs no callback. -/
theorem Traced.rebinds_never (traced : Traced N net) (k : κ) :
    ClientTask.rebind ∉ (net.client k).pool := by
  intro member
  have pos : 0 < (net.client k).shared.cltNonce := traced.cltNonce k ▸ N.client_pos k
  obtain ⟨x, e, v, failed, replied⟩ := (traced.client k).held.task _ member pos
  obtain ⟨i, _, args, r, _, _, _, executed⟩ := traced.replied replied
  exact failed (((traced.server i).shared.performed _ executed).2 rfl).1

variable [DecidableEq κ] [DecidableEq ι]

theorem Changed.grown (traced : Traced N net) (changed : Changed net net') : Grown net net' := by
  cases changed with
  | @client k m c os ran _ client server =>
      constructor
      · intro k'
        rw [client]
        by_cases same : k' = k
        · subst same
          rw [Function.update_self]
          exact (traced.client k').grown (Machine.moved ran)
        · rw [Function.update_of_ne same]
          exact .refl _
      · intro v
        rw [server]
        exact .refl _
  | @server v m c os ran _ client server =>
      constructor
      · intro k
        rw [client]
        exact .refl _
      · intro v'
        rw [server]
        by_cases same : v' = v
        · subst same
          rw [Function.update_self]
          exact RpcServer.moved_grown (Machine.moved ran)
        · rw [Function.update_of_ne same]
          exact .refl _
  | packets client server =>
      constructor
      · intro k
        rw [client]
        exact .refl _
      · intro v
        rw [server]
        exact .refl _

theorem Traced.step (traced : Traced N net) (changed : Changed net net') : Traced N net' := by
  have grown := changed.grown traced
  have moreRequests : ∀ s buf, net.arriving s buf → net'.arriving s buf :=
    fun _ _ => IsRequest.mono grown
  have moreReplies : ∀ k buf, net.IsReply k buf → net'.IsReply k buf := fun _ _ => IsReply.mono grown
  refine ⟨fun k => ?_, fun v => ?_, fun p member => ?_, fun p member => ?_,
    fun k => (grown.client k).cltNonce.trans (traced.cltNonce k),
    fun v => (grown.server v).nonce.trans (traced.nonce v)⟩
  · refine RpcClient.Traced.mono (R := net.IsReply k) ?_ (moreReplies k)
    cases changed with
    | @client k' m c os ran arrives client =>
        rw [client]
        by_cases same : k = k'
        · subst same
          rw [Function.update_self]
          exact (traced.client k).move (Machine.moved ran) fun i buf label =>
            traced.replies _ (arrives i buf label)
        · rw [Function.update_of_ne same]
          exact traced.client k
    | server _ _ client => rw [client]; exact traced.client k
    | packets client => rw [client]; exact traced.client k
  · refine RpcServer.Traced.mono (Q := net.arriving) ?_ moreRequests
    cases changed with
    | client _ _ _ server => rw [server]; exact traced.server v
    | @server v' m c os ran arrives _ server =>
        rw [server]
        by_cases same : v = v'
        · subst same
          rw [Function.update_self]
          exact (traced.server v).move (Machine.moved ran) fun i s buf label taken =>
            traced.requests _ (arrives i s buf label taken)
        · rw [Function.update_of_ne same]
          exact traced.server v
    | packets _ server => rw [server]; exact traced.server v
  · cases changed with
    | @client k m c os ran _ client _ requests =>
        rcases requests p member with old | ⟨buf, out, rfl⟩
        · exact (traced.requests p old).mono grown
        · obtain ⟨x, request⟩ := (traced.client k).output (Machine.moved ran) out
          exact ⟨x, by rw [client, Function.update_self]; exact request⟩
    | server _ _ _ _ requests => exact (traced.requests p (requests p member)).mono grown
    | packets _ _ requests => exact (traced.requests p (requests p member)).mono grown
  · cases changed with
    | client _ _ _ _ _ replies => exact (traced.replies p (replies p member)).mono grown
    | @server v m c os ran _ _ server _ replies =>
        rcases replies p member with old | ⟨⟨s, buf⟩, out, rfl⟩
        · exact (traced.replies p old).mono grown
        · obtain ⟨h, req, o, asked, reply⟩ := (traced.server v).output (Machine.moved ran) out
          refine ⟨v, h, o, ?_, by rw [server, Function.update_self]; exact reply⟩
          exact (grown.client s.1).headers _ _ (traced.asked asked).1
    | packets _ _ _ replies => exact (traced.replies p (replies p member)).mono grown

/-- Whatever the network does. -/
theorem reachable_traced {ok : Network S κ ι → NetworkAction S κ ι → Prop}
    (run : Reachable (system S κ ι) ok (start S N) net) : Traced N net :=
  run.invariant (start_traced N) fun _ _ _ _ traced _ moved => traced.step (stepped moved).changed

/-- An instance in the network is a server on its own, whose connections deliver what
they like. -/
theorem server_reachable {ok : Network S κ ι → NetworkAction S κ ι → Prop}
    (run : Reachable (system S κ ι) ok (start S N) net) (v : ι) :
    Reachable (RpcServer.machine S (κ × Nat)).system anyStep
      (RpcServer.start S (κ × Nat) (N.server v)) (net.server v) := by
  apply run.project (fun net => net.server v)
  intro net a net' _ moved
  cases (stepped moved).changed with
  | client _ _ _ server => exact .inl (congrFun server v)
  | @server v' m c os ran _ _ server =>
      by_cases same : v = v'
      · subst same
        refine .inr ⟨m, trivial, ?_⟩
        rw [server, Function.update_self]
        exact congrArg (Option.map Prod.fst) ran
      · rw [server, Function.update_of_ne same]
        exact .inl rfl
  | packets _ server => exact .inl (congrFun server v)

end AsyncRpc.Network
