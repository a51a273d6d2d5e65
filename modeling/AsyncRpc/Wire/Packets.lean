import AsyncRpc.Acknowledgement
import AsyncRpc.Restart
import AsyncRpc.Wire.Accepted
import AsyncRpc.Wire.Messages

/-! The network on the text of nlohmann: what the codec of a service promises, `dump` and
`parse` keep for every message that the library sends. -/
namespace AsyncRpc.Wire
open Interleaving Transition

variable (dumpFloat : ℚ → Bytes) (strtod : Bytes → Option ℚ)

/-- A type whose JSON has a text where `dump` does not throw. -/
structure TextSupport (α : Type) extends JsonSupport α where
  storable : ∀ a, (toJson a).utf8 → Storable dumpFloat strtod (toJson a)

def TextSupport.uint32 : TextSupport dumpFloat strtod UInt32 where
  toJsonSupport := .uint32
  storable n _ := .numberUnsigned (Nat.lt_trans n.toNat_lt (by decide))

/-- The text of a document that is read back from it. -/
def IsMessage (t : Bytes) : Prop :=
  ∃ j, Storable dumpFloat strtod j ∧ Container j ∧ t = dump dumpFloat j

open Classical in
/-- A message is its text. A document without one is no value of nlohmann, and is not sent. -/
noncomputable def codec : Codec where
  Buf := Bytes ⊕ Json
  empty := .inl []
  text j := if Storable dumpFloat strtod j then .inl (dump dumpFloat j) else .inr j
  parse
    | .inl bytes => parse strtod bytes
    | .inr j => .ok j.normal
  parse_text j _ := by
    split_ifs with storable
    · exact parse_dump dumpFloat strtod storable
    · rfl

/-- An application, and its conversions of doubles. -/
structure TextServices where
  dumpFloat : ℚ → Bytes
  strtod : Bytes → Option ℚ
  Args : Nat → Type
  Rep : Nat → Type
  args : ∀ p, TextSupport dumpFloat strtod (Args p)
  rep : ∀ p, TextSupport dumpFloat strtod (Rep p)
  bindArgs : Args BIND
  bindArgs_travels : (args BIND).Travels bindArgs
  nonce : Rep BIND ≃ UInt32
  nonce_travels : ∀ r, (rep BIND).Travels r

namespace TextServices

noncomputable def services (T : TextServices) : Services where
  toCodec := codec T.dumpFloat T.strtod
  Args := T.Args
  Rep := T.Rep
  args p := (T.args p).toJsonSupport
  rep p := (T.rep p).toJsonSupport
  bindArgs := T.bindArgs
  bindArgs_travels := T.bindArgs_travels
  nonce := T.nonce
  nonce_travels := T.nonce_travels

variable (T : TextServices)

/-- The text of a request. -/
def requestText (h : RequestHeader) (args : T.Args h.proc) : Bytes :=
  dump T.dumpFloat ((({} : Marshall).put ((T.args h.proc).toJson args)).putRequest h).json

/-- The text of the reply with the result of a handler. -/
def replyText (p : Nat) (h : ReplyHeader) (r : T.Rep p) : Bytes :=
  dump T.dumpFloat ((({} : Marshall).put ((T.rep p).toJson r)).putReply h).json

def errorText (h : ReplyHeader) : Bytes := dump T.dumpFloat (errorDoc h).json

end TextServices

section

variable {dumpFloat strtod}

theorem codec_text {j : Json} (storable : Storable dumpFloat strtod j) :
    (codec dumpFloat strtod).text j = .inl (dump dumpFloat j) := if_pos storable

/-- A value with a header. -/
theorem codec_pair {v w : Json} (k : String) (value : Storable dumpFloat strtod v)
    (header : Storable dumpFloat strtod w) :
    (codec dumpFloat strtod).text ((Json.null.set (toKey 0) v).set k w) =
        .inl (dump dumpFloat ((Json.null.set (toKey 0) v).set k w)) ∧
      IsMessage dumpFloat strtod (dump dumpFloat ((Json.null.set (toKey 0) v).set k w)) := by
  have storable := (Storable.null.set value (toKey 0)).set header k
  exact ⟨codec_text storable, _, storable, .object _, rfl⟩

theorem codec_header {w : Json} (k : String) (header : Storable dumpFloat strtod w) :
    (codec dumpFloat strtod).text (Json.null.set k w) = .inl (dump dumpFloat (Json.null.set k w)) ∧
      IsMessage dumpFloat strtod (dump dumpFloat (Json.null.set k w)) := by
  have storable := Storable.null.set header k
  exact ⟨codec_text storable, _, storable, .object _, rfl⟩

end

variable (T : TextServices) {κ ι : Type}

/-- Every call so far has an xid and a procedure of 64 bits. -/
def Fits {S : Services} (net : Network S κ ι) : Prop :=
  ∀ k x i, (net.client k).shared.issued x = some i → x < 2 ^ 64 ∧ i.proc < 2 ^ 64

variable {N : Nonces κ ι} {net : Network T.services κ ι}

theorem header_fits (traced : net.Traced N) (fits : Fits net) {k : κ} {x : Nat} {h : RequestHeader}
    (header : (net.client k).shared.headers x = some h) :
    h.xid < 2 ^ 64 ∧ h.proc < 2 ^ 64 ∧ h.xidRep < 2 ^ 64 := by
  have held := (traced.client k).held.shared
  have known := held.headers x h header
  obtain ⟨args, issued⟩ := known.issued
  obtain ⟨xid, proc⟩ := fits k x _ issued
  refine ⟨known.xid.symm ▸ xid, proc, known.xidRep.trans_lt ?_⟩
  cases window : (net.client k).shared.xidRepWindow with
  | nil => exact Nat.two_pow_pos 64
  | cons y rest =>
      obtain ⟨r, u, got, rfl⟩ := held.received y (held.window y (window ▸ List.mem_cons_self))
      obtain ⟨i, issued⟩ := traced.got_issued got
      exact (fits k r.xid i issued).1

theorem request_text (traced : net.Traced N) (fits : Fits net) {k : κ} {buf : T.services.Buf}
    (request : net.IsRequest k buf) : ∃ (h : RequestHeader) (args : T.Args h.proc),
      (net.client k).shared.headers h.xid = some h ∧
        (net.client k).shared.issued h.xid = some ⟨h.proc, args⟩ ∧
        buf = .inl (T.requestText h args) ∧ IsMessage T.dumpFloat T.strtod (T.requestText h args) := by
  obtain ⟨x, h, args, header, issued, written⟩ := request
  obtain rfl : h.xid = x := ((traced.client k).held.shared.headers x h header).xid
  obtain ⟨plain, same⟩ := buf_ok_iff.mp written
  rw [requestDoc_utf8] at plain
  obtain ⟨text, message⟩ := codec_pair "req" ((T.args h.proc).storable args plain)
    (requestHeader_storable _ _ (header_fits T traced fits header))
  exact ⟨h, args, header, issued, same.symm.trans text, message⟩

theorem reply_text (traced : net.Traced N) (fits : Fits net) {k : κ} {buf : T.services.Buf}
    (reply : net.IsReply k buf) : ∃ t, buf = .inl t ∧ IsMessage T.dumpFloat T.strtod t ∧
      ((∃ v, ∃ ex ∈ (net.server v).shared.executions, ex.cltNonce = N.client k ∧
        t = T.replyText ex.proc ⟨ex.xid, ex.err⟩ ex.reply) ∨
      ∃ h : ReplyHeader, (h.err = .oldserverFailure ∨ h.err = .atmostOnceFailure) ∧
        t = T.errorText h) := by
  obtain ⟨v, h, o, header, reply⟩ := reply
  have small := (header_fits T traced fits header).1
  have client : h.cltNonce = N.client k :=
    ((traced.client k).held.shared.headers _ h header).cltNonce.trans (traced.cltNonce k)
  have result : ∀ ex : Execution T.services, ex.xid = h.xid → ex.buf = .ok buf →
      buf = .inl (T.replyText ex.proc ⟨ex.xid, ex.err⟩ ex.reply) ∧
        IsMessage T.dumpFloat T.strtod (T.replyText ex.proc ⟨ex.xid, ex.err⟩ ex.reply) := by
    intro ex xid written
    obtain ⟨plain, same⟩ := buf_ok_iff.mp written
    rw [replyDoc_utf8] at plain
    obtain ⟨text, message⟩ := codec_pair "rep" ((T.rep ex.proc).storable ex.reply plain)
      (replyHeader_storable _ _ (h := ⟨ex.xid, ex.err⟩) (xid ▸ small))
    exact ⟨same.symm.trans text, message⟩
  have refusal : ∀ e, errorBuf T.services.toCodec ⟨h.xid, e⟩ = .inl (T.errorText ⟨h.xid, e⟩) ∧
      IsMessage T.dumpFloat T.strtod (T.errorText ⟨h.xid, e⟩) :=
    fun e => codec_header "rep" (replyHeader_storable T.dumpFloat T.strtod (h := ⟨h.xid, e⟩) small)
  cases reply with
  | @handled ex _ executed client' xid _ bytes =>
      obtain ⟨text, message⟩ := result ex xid bytes
      exact ⟨_, text, message, .inl ⟨v, ex, executed, client'.trans client, rfl⟩⟩
  | @remembered ex _ executed client' xid _ bytes =>
      obtain ⟨text, message⟩ := result ex xid bytes
      exact ⟨_, text, message, .inl ⟨v, ex, executed, client'.trans client, rfl⟩⟩
  | oldServer =>
      obtain ⟨text, message⟩ := refusal .oldserverFailure
      exact ⟨_, text, message, .inr ⟨_, .inl rfl, rfl⟩⟩
  | forgotten =>
      obtain ⟨text, message⟩ := refusal .atmostOnceFailure
      exact ⟨_, text, message, .inr ⟨_, .inr rfl, rfl⟩⟩

variable [DecidableEq κ] [DecidableEq ι]

/-- Every packet in flight is the text that `dump` writes for a request of the client, for
the result of a handler that ran for it, or for a refusal. -/
theorem packets_are_text (N : Nonces κ ι) (net : Network T.services κ ι)
    (run : Reachable (Network.system T.services κ ι) anyStep (Network.start T.services N) net)
    (fits : Fits net) :
    (∀ p ∈ net.requests, ∃ (h : RequestHeader) (args : T.Args h.proc),
      (net.client p.1).shared.headers h.xid = some h ∧
        (net.client p.1).shared.issued h.xid = some ⟨h.proc, args⟩ ∧
          p.2 = .inl (T.requestText h args)) ∧
    ∀ p ∈ net.replies,
      (∃ v, ∃ ex ∈ (net.server v).shared.executions, ex.cltNonce = N.client p.1 ∧
        p.2 = .inl (T.replyText ex.proc ⟨ex.xid, ex.err⟩ ex.reply)) ∨
      ∃ h : ReplyHeader, (h.err = .oldserverFailure ∨ h.err = .atmostOnceFailure) ∧
        p.2 = .inl (T.errorText h) := by
  have traced := Network.reachable_traced run
  constructor
  · intro p member
    obtain ⟨h, args, header, issued, text, -⟩ := request_text T traced fits (traced.requests p member)
    exact ⟨h, args, header, issued, text⟩
  · intro p member
    obtain ⟨t, text, -, forms⟩ := reply_text T traced fits (traced.replies p member)
    rcases forms with ⟨v, ex, executed, client, rfl⟩ | ⟨h, refused, rfl⟩
    · exact .inl ⟨v, ex, executed, client, text⟩
    · exact .inr ⟨h, refused, text⟩

/-- An application whose arguments and replies are `uint32_t`. -/
def wholeNumbers : TextServices where
  dumpFloat := half.1
  strtod := half.2
  Args _ := UInt32
  Rep _ := UInt32
  args _ := .uint32 _ _
  rep _ := .uint32 _ _
  bindArgs := (0 : UInt32)
  bindArgs_travels := Services.sample.bindArgs_travels
  nonce := Equiv.refl _
  nonce_travels := JsonSupport.uint32_travels

/-- The client connects and sends the request of `Bind`. -/
noncomputable def bindSent : List (NetworkAction wholeNumbers.services Unit Bool) :=
  [.client () (.act 0 (.connected .ok)), .client () (.spawn .bind), .client () (.act 0 .go),
    .client () (.act 0 .go), .client () (.act 0 .transmit)]

theorem bindSent_run : ∃ net : Network wholeNumbers.services Unit Bool,
    (Network.system wholeNumbers.services Unit Bool).exec (fun _ _ => true)
      (Network.start wholeNumbers.services Network.restarted) bindSent = some net ∧
      net.requests.length = 1 ∧ (net.client ()).shared.xid = 3 ∧
      (net.client ()).shared.issued 2 = some ⟨BIND, (0 : UInt32)⟩ ∧
      (net.client ()).shared.headers 2 = some ⟨2, BIND, 5, 0, 0⟩ :=
  ⟨_, rfl, rfl, rfl, rfl, rfl⟩

def bindText : Bytes := text
  "\x7b\"0\":0,\"req\":\x7b\"clt_nonce\":5,\"proc\":1000,\"srv_nonce\":0,\"xid\":2,\"xid_rep\":0\x7d\x7d"

theorem requestText_bind : wholeNumbers.requestText ⟨2, BIND, 5, 0, 0⟩ (0 : UInt32) = bindText := by
  decide +kernel

theorem packets_are_text_bind : ∃ net : Network wholeNumbers.services Unit Bool,
    net.requests = [((), .inl bindText)] := by
  obtain ⟨net, ran, one, next, issued, header⟩ := bindSent_run
  have run := (System.exec_reachable ran).any
  have known := ((Network.reachable_traced run).client ()).held.shared
  have only : ∀ x i, (net.client ()).shared.issued x = some i → x = 2 := by
    intro x i here
    have low := known.least.2 x i here
    have high : ¬ 3 ≤ x := by
      intro late
      rw [known.fresh x (next ▸ late)] at here
      cases here
    omega
  have fits : Fits net := by
    intro k x i here
    obtain rfl := only x i here
    cases issued.symm.trans here
    decide
  obtain ⟨p, same⟩ := List.length_eq_one_iff.mp one
  obtain ⟨h, args, header', issued', is⟩ :=
    (packets_are_text wholeNumbers Network.restarted net run fits).1 p (same ▸ List.mem_cons_self)
  have xid := only h.xid _ issued'
  rw [xid] at header' issued'
  cases header.symm.trans header'
  cases issued.symm.trans issued'
  exact ⟨net, by rw [same, ← requestText_bind, ← is]⟩

end AsyncRpc.Wire
