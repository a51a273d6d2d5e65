import AsyncRpc.CallLife
import AsyncRpc.Retry

/-! What is sent twice is sent the same: the packets of one call agree, whenever they are
found in flight. -/
namespace AsyncRpc.Network
open Interleaving Transition

variable {S : Services} {κ ι : Type} {N : Nonces κ ι} {net net' : Network S κ ι}

/-- The request of a call is settled by its header and its arguments. -/
theorem request_unique {c : RpcClient S} {x : Nat} {buf buf' : S.Buf}
    (request : RpcClient.RequestOf c x buf) (request' : RpcClient.RequestOf c x buf') : buf = buf' := by
  obtain ⟨h, args, header, issued, written⟩ := request
  obtain ⟨h', args', header', issued', written'⟩ := request'
  cases header.symm.trans header'
  cases issued.symm.trans issued'
  exact Except.ok.inj (written.symm.trans written')

variable [DecidableEq κ] [DecidableEq ι]

/-- Every transmission of a call, first or repeated, carries the bytes that `Call` built: a
later acknowledgement or binding of the client does not show in it. -/
theorem transmissions_identical (N : Nonces κ ι) (net net' : Network S κ ι)
    (run : Reachable (system S κ ι) anyStep (start S N) net)
    (later : Reachable (system S κ ι) anyStep net net') {k : κ} {buf buf' : S.Buf}
    (first : (k, buf) ∈ net.requests) (second : (k, buf') ∈ net'.requests)
    (same : requestXid buf = requestXid buf') : buf = buf' := by
  have traced := reachable_traced run
  obtain ⟨traced', grown⟩ := grown_later traced later
  obtain ⟨x, request⟩ := traced.requests _ first
  obtain ⟨x', request'⟩ := traced'.requests _ second
  have request := request.mono (grown.client k)
  have known := (traced'.client k).held.shared
  rw [request.xid known, request'.xid known] at same
  cases same
  exact request_unique request request'

/-- The request of a call leaves the client. -/
def firstAsk : List (NetworkAction .sample Unit Bool) :=
  bindRun false ++
  [.client () (.spawn (.call 7 (1 : UInt32))), .client () (.act 0 .go), .client () (.act 0 .go),
    .client () (.act 0 .transmit), .client () (.act 1 .go)]

/-- The deadline of the call expires and the request leaves again. -/
def askedAgain : List (NetworkAction .sample Unit Bool) :=
  [.client () (.act 0 (.sent .ok)), .client () (.spawn (.expire 3)), .client () (.act 0 .go),
    .client () (.act 0 .go), .client () (.act 0 .transmit)]

theorem askedAgain_run : ∃ net net' : Network .sample Unit Bool,
    (system .sample Unit Bool).exec (fun _ _ => true) (start .sample restarted) firstAsk = some net ∧
      (system .sample Unit Bool).exec (fun _ _ => true) net askedAgain = some net' ∧
      net.requests.length = 1 ∧ net'.requests.length = 2 ∧
      (∀ p ∈ net.requests, requestXid (S := .sample) p.2 = some 3) ∧
      ∀ p ∈ net'.requests, requestXid (S := .sample) p.2 = some 3 :=
  System.exec_any_later (by decide +kernel)

theorem transmissions_identical_again : ∃ net net' : Network .sample Unit Bool,
    net.requests.length = 1 ∧ net'.requests.length = 2 ∧
      ∀ p ∈ net.requests, ∀ p' ∈ net'.requests, p.2 = p'.2 := by
  obtain ⟨net, net', ran, ran', one, two, first, second⟩ := askedAgain_run
  refine ⟨net, net', one, two, fun p member p' member' => ?_⟩
  exact transmissions_identical restarted net net' (System.exec_reachable ran).any
    (System.exec_reachable ran').any (k := ()) member member'
    ((first p member).trans (second p' member').symm)

omit [DecidableEq κ] [DecidableEq ι] in
/-- A reply in flight that is not a refusal has the bytes of a run of its call. -/
theorem Traced.reply_executed (traced : Traced N net) {k : κ} {buf : S.Buf}
    (reply : net.IsReply k buf) {x : Nat} (xid : RpcClient.replyXid buf = some x) :
    (buf = oldServerBuf S x ∨ buf = forgottenBuf S x) ∨
      ∃ v ex, ex ∈ (net.server v).shared.executionsOf (N.client k) x ∧ ex.buf = .ok buf := by
  obtain ⟨v, h, o, header, reply⟩ := reply
  have client : h.cltNonce = N.client k :=
    ((traced.client k).held.shared.headers _ _ header).cltNonce.trans (traced.cltNonce k)
  have refused : ∀ e, buf = errorBuf S.toCodec ⟨h.xid, e⟩ → h.xid = x := by
    rintro e rfl
    rw [RpcClient.replyXid_reads (RpcClient.readReply_errorDoc S _)] at xid
    exact Option.some.inj xid
  have made : ∀ ex : Execution S, ex.buf = .ok buf → ex.xid = x := fun ex bytes =>
    Option.some.inj ((replyXid_execution bytes).symm.trans xid)
  cases reply with
  | @handled ex _ member key _ _ bytes =>
      have listed := RpcServer.mem_executionsOf.mpr ⟨member, key.trans client, made ex bytes⟩
      exact .inr ⟨v, ex, listed, bytes⟩
  | @remembered ex _ member key _ _ bytes =>
      have listed := RpcServer.mem_executionsOf.mpr ⟨member, key.trans client, made ex bytes⟩
      exact .inr ⟨v, ex, listed, bytes⟩
  | oldServer =>
      obtain rfl := refused _ rfl
      exact .inl (.inl rfl)
  | forgotten =>
      obtain rfl := refused _ rfl
      exact .inl (.inr rfl)

/-- Two replies to a call of an application that are not refusals are the same bytes, whichever
copies of the request led to them and however much later. -/
theorem replies_identical (N : Nonces κ ι) (nonzero : ∀ v, N.server v ≠ 0) (net net' : Network S κ ι)
    (run : Reachable (system S κ ι) anyStep (start S N) net)
    (later : Reachable (system S κ ι) anyStep net net') {k : κ} {x : Nat}
    (app : Application net' k x) {buf buf' : S.Buf} (first : (k, buf) ∈ net.replies)
    (second : (k, buf') ∈ net'.replies) (xid : RpcClient.replyXid buf = some x)
    (xid' : RpcClient.replyXid buf' = some x)
    (taken : buf ≠ oldServerBuf S x ∧ buf ≠ forgottenBuf S x)
    (taken' : buf' ≠ oldServerBuf S x ∧ buf' ≠ forgottenBuf S x) : buf = buf' := by
  have traced := reachable_traced run
  obtain ⟨traced', grown⟩ := grown_later traced later
  have reached := run.trans later
  rcases traced'.reply_executed ((traced.replies _ first).mono grown) xid with refused | made
  · exact absurd refused (not_or.mpr taken)
  rcases traced'.reply_executed (traced'.replies _ second) xid' with refused | made'
  · exact absurd refused (not_or.mpr taken')
  obtain ⟨v, ex, member, bytes⟩ := made
  obtain ⟨v', ex', member', bytes'⟩ := made'
  obtain ⟨here, elsewhere⟩ := execution_only nonzero reached app member
  have same : v' = v := by
    by_contra other
    rw [elsewhere v' other] at member'
    cases member'
  rw [same, here] at member'
  rw [List.mem_singleton.mp member'] at bytes'
  exact Except.ok.inj (bytes.symm.trans bytes')

/-- The handler of the call returns and its reply leaves. -/
def firstAnswer : List (NetworkAction .sample Unit Bool) :=
  firstAsk ++
  [.request false 0 0, .server false (.act 0 .go), .server false (.act 0 .go),
    .server false (.act 0 .go), .server false (.act 0 .go),
    .server false (.act 0 (.returns 7 (9 : UInt32) .ok)), .server false (.act 0 .go),
    .server false (.act 0 .transmit)]

/-- That reply is lost, and the request that leaves again gets the remembered one. -/
def answeredAgain : List (NetworkAction .sample Unit Bool) :=
  [.loseReply 0, .server false (.act 0 (.sent .ok))] ++ askedAgain ++
  [.request false 0 0, .server false (.act 0 .go), .server false (.act 0 .go),
    .server false (.act 0 .go), .server false (.act 0 .go), .server false (.act 0 .transmit)]

def replyErr (buf : S.Buf) : Option Err :=
  (RpcClient.readReply buf).toOption.map fun r => r.1.err

omit [DecidableEq κ] [DecidableEq ι] in
theorem ne_refusal {buf : S.Buf} {x : Nat} (ok : replyErr buf = some .ok) :
    buf ≠ oldServerBuf S x ∧ buf ≠ forgottenBuf S x := by
  have refused : ∀ e, buf = errorBuf S.toCodec ⟨x, e⟩ → e = .ok := by
    rintro e rfl
    simpa [replyErr, RpcClient.readReply_errorDoc, Except.toOption] using ok
  refine ⟨fun old => ?_, fun forgotten => ?_⟩
  · cases refused _ old
  · cases refused _ forgotten

theorem answeredAgain_run : ∃ net net' : Network .sample Unit Bool,
    (system .sample Unit Bool).exec (fun _ _ => true) (start .sample restarted) firstAnswer = some net ∧
      (system .sample Unit Bool).exec (fun _ _ => true) net answeredAgain = some net' ∧
      net.replies.length = 1 ∧ net'.replies.length = 1 ∧
      (∀ p ∈ net.replies, RpcClient.replyXid (S := .sample) p.2 = some 3 ∧
        replyErr (S := .sample) p.2 = some .ok) ∧
      (∀ p ∈ net'.replies, RpcClient.replyXid (S := .sample) p.2 = some 3 ∧
        replyErr (S := .sample) p.2 = some .ok) ∧
      ((net'.client ()).shared.issued 3).map Issue.proc = some 7 :=
  System.exec_any_later (by decide +kernel)

theorem replies_identical_again : ∃ net net' : Network .sample Unit Bool,
    net.replies.length = 1 ∧ net'.replies.length = 1 ∧
      ∀ p ∈ net.replies, ∀ p' ∈ net'.replies, p.2 = p'.2 := by
  obtain ⟨net, net', ran, ran', one, one', first, second, issued⟩ := answeredAgain_run
  have app : Application net' () 3 := by
    intro i here
    rw [here] at issued
    rw [Option.some.inj issued]
    decide
  refine ⟨net, net', one, one', fun p member p' member' => ?_⟩
  exact replies_identical restarted instanceNonce_ne_zero net net' (System.exec_reachable ran).any
    (System.exec_reachable ran').any app (k := ()) member member' (first p member).1
    (second p' member').1 (ne_refusal (first p member).2) (ne_refusal (second p' member').2)

end AsyncRpc.Network
