import AsyncRpc.Foundation.Interleaving
import AsyncRpc.Marshall
import AsyncRpc.XidWindow
import Mathlib.Data.Finset.Insert
import Mathlib.Data.Finset.Erase

/-! The client as a machine of atomic sections. Handlers hold a `Caller *`, which
is its xid here: a pointer can be followed while the object is in the heap, and a
section that would follow a dangling one has no step. -/
namespace AsyncRpc
open Interleaving

/-- The callback of a `Call`: one of the application, or the lambda of `Bind`. -/
inductive Callback where
  | app | bind
  deriving DecidableEq

/-- The deadline timer of a caller. Once expired, its handler is queued and
destroying the timer does not take it back. -/
inductive Deadline where
  | idle | armed | expired
  deriving DecidableEq

/-- `proc` stands for the reply type that `re_` extracts. -/
structure Caller (S : Services) where
  proc : Nat
  cb : Callback
  buf : S.Buf
  done : Bool := false
  err : Err := .ok
  timer : Deadline := .idle

/-- One run of a callback; `none` is the empty `std::any`. -/
structure CallbackRun (S : Services) where
  xid : Nat
  proc : Nat
  err : Err
  reply : Option (S.Rep proc)

structure Issue (S : Services) where
  proc : Nat
  args : S.Args proc

/-- `callers` holds the keys of `callers_`; the objects are in the heap, where a
claimed one stays until `GotPdu` returns. From `issued` on the fields are history:
accepted calls, the headers put into their requests, callbacks that ran, xids given
to `UpdateXidRep`, `Bind`s of the application, exceptions that left a handler or `Call`. -/
structure RpcClient (S : Services) where
  cltNonce : UInt32
  srvNonce : UInt32 := 0
  bindDone : Bool := false
  xid : Nat := 2
  callers : Finset Nat := ∅
  heap : Nat → Option (Caller S) := fun _ => none
  xidRepWindow : List Nat := []
  connected : Bool := false
  issued : Nat → Option (Issue S) := fun _ => none
  headers : Nat → Option RequestHeader := fun _ => none
  callbacks : List (CallbackRun S) := []
  received : List Nat := []
  binds : Nat := 0
  escaped : List Exn := []

inductive ClientTask (S : Services) where
  | connect
  | receive
  | callWindow (x : Nat) (p : Nat) (req : Marshall)
  | callSend (x : Nat) (p : Nat) (req : Marshall) (xidRep : Nat)
  | callWait (x : Nat)
  | onTimerExpired (x : Nat)
  | resend (x : Nat)
  | send (x : Nat) (buf : S.Buf) (transmitted : Bool)
  | sendFailed (x : Nat) (e : Err)
  | failCallback (x : Nat) (e : Err)
  | reconnect (x : Nat)
  | gotPdu (buf : S.Buf)
  | claim (h : ReplyHeader) (u : Unmarshall)
  | claimed (h : ReplyHeader) (u : Unmarshall)
  | deliver (h : ReplyHeader) (u : Unmarshall)
  | finish (x : Nat)
  | rebind

inductive ClientLabel (S : Services) where
  | go
  | connected (e : Err)
  | received (buf : S.Buf) (e : Err)
  | transmit
  | sent (e : Err)

inductive ClientEvent (S : Services) where
  | call (p : Nat) (args : S.Args p)
  | bind
  | expire (x : Nat)

namespace RpcClient

variable {S : Services}

def store (c : RpcClient S) (x : Nat) (caller : Option (Caller S)) : RpcClient S :=
  { c with heap := Function.update c.heap x caller }

@[simp] theorem store_same (c : RpcClient S) (x : Nat) (caller : Option (Caller S)) :
    (c.store x caller).heap x = caller :=
  Function.update_self _ _ _

theorem store_other {c : RpcClient S} {x y : Nat} {caller : Option (Caller S)} (other : y ≠ x) :
    (c.store x caller).heap y = c.heap y :=
  Function.update_of_ne other _ _

def throwing (c : RpcClient S) (e : Exn) : RpcClient S :=
  { c with escaped := e :: c.escaped }

def ranCallback (c : RpcClient S) (x : Nat) (caller : Caller S) (e : Err)
    (reply : Option (S.Rep caller.proc)) : RpcClient S :=
  { c with callbacks := ⟨x, caller.proc, e, reply⟩ :: c.callbacks }

/-- The binding check of `Call`. -/
def Accepts (c : RpcClient S) (p : Nat) : Prop :=
  ¬ ((p ≠ BIND ∧ c.bindDone = false) ∨ (p = BIND ∧ c.bindDone = true))

instance (c : RpcClient S) (p : Nat) : Decidable (c.Accepts p) := by
  unfold Accepts; infer_instance

/-- The section of `Call` under `callers_mu_`. A refused call returns `BIND_FAILURE`
and leaves nothing behind. -/
def call (c : RpcClient S) (p : Nat) (args : S.Args p) (cb : Callback) :
    RpcClient S × List (ClientTask S) :=
  if c.Accepts p then
    ({ c.store c.xid (some { proc := p, cb := cb, buf := S.empty }) with
        xid := c.xid + 1
        callers := insert c.xid c.callers
        issued := Function.update c.issued c.xid (some ⟨p, args⟩) },
      [.callWindow c.xid p (({} : Marshall).put ((S.args p).toJson args))])
  else (c, [])

/-- The callback of `Bind` asks again after an error. -/
def afterCallback (caller : Caller S) (e : Err) : List (ClientTask S) :=
  if caller.cb = .bind ∧ e ≠ .ok then [.rebind] else []

/-- The callback of `Bind` keeps the nonce it got. -/
def bindCallback (c : RpcClient S) (caller : Caller S) (e : Err) (v : S.Rep caller.proc) :
    RpcClient S :=
  if isBind : caller.cb = .bind ∧ caller.proc = BIND then
    if e = .ok then { c with srvNonce := S.nonce (isBind.2 ▸ v), bindDone := true } else c
  else c

/-- The header `Call` builds, reading `srv_nonce_` without the lock. -/
def header (c : RpcClient S) (x p xidRep : Nat) : RequestHeader :=
  ⟨x, p, c.cltNonce, c.srvNonce, xidRep⟩

/-- The start of `GotPdu`. -/
def readReply (buf : S.Buf) : Except Exn (ReplyHeader × Unmarshall) := do
  let u ← Unmarshall.ofBuf S.toCodec buf
  let h ← u.getReply
  return (h, u)

theorem readReply_replyDoc {p : Nat} {h : ReplyHeader} {r : S.Rep p} {buf : S.Buf}
    (written : (replyDoc S p h r).buf S.toCodec = .ok buf) :
    readReply buf = .ok (h, ⟨(replyDoc S p h r).json.normal, 0⟩) := by
  simp [readReply, ofBuf_buf written, replyDoc_getReply, bind, Except.bind, pure, Except.pure]

theorem readReply_errorDoc (S : Services) (h : ReplyHeader) :
    readReply (errorBuf S.toCodec h) = .ok (h, ⟨(errorDoc h).json.normal, 0⟩) := by
  simp [readReply, ofBuf_buf (errorDoc_buf S.toCodec h), errorDoc_getReply, bind, Except.bind, pure,
    Except.pure]

/-- The xid that `GotPdu` reads from a buffer. -/
def replyXid (buf : S.Buf) : Option Nat := (readReply buf).toOption.map fun r => r.1.xid

theorem replyXid_reads {buf : S.Buf} {h : ReplyHeader} {u : Unmarshall}
    (reads : readReply buf = .ok (h, u)) : replyXid buf = some h.xid := by
  simp [replyXid, reads, Except.toOption]

theorem reads_replyXid {buf : S.Buf} {x : Nat} (same : replyXid buf = some x) :
    ∃ h u, readReply buf = .ok (h, u) ∧ h.xid = x := by
  cases reads : readReply buf with
  | error e => simp [replyXid, reads, Except.toOption] at same
  | ok r =>
      rw [replyXid_reads reads] at same
      exact ⟨r.1, r.2, rfl, Option.some.inj same⟩

def act (c : RpcClient S) : ClientTask S → ClientLabel S →
    Option (RpcClient S × List (ClientTask S) × List S.Buf)
  | .connect, .connected e =>
      if e = .ok then some ({ c with connected := true }, [.receive], [])
      else some (c.throwing (.runtimeError "cannot connect to server"), [], [])
  | .receive, .received buf e =>
      if e ≠ .ok then some (c, [], []) else some (c, [.gotPdu buf], [])
  | .callWindow x p req, .go =>
      some (c, [.callSend x p req (XidWindow.front c.xidRepWindow)], [])
  | .callSend x p req xidRep, .go =>
      (c.heap x).bind fun caller =>
        match (req.putRequest (c.header x p xidRep)).buf S.toCodec with
        -- the caller stays in `callers_`, with no `Send` and no timer
        | .error e => some (c.throwing e, [], [])
        | .ok buf => some
            ({ c.store x (some { caller with buf := buf }) with
                headers := Function.update c.headers x (some (c.header x p xidRep)) },
              [.send x buf false, .callWait x], [])
  | .callWait x, .go =>
      (c.heap x).map fun caller => (c.store x (some { caller with timer := .armed }), [], [])
  | .onTimerExpired x, .go =>
      (c.heap x).map fun caller =>
        if caller.done then (c, [], [])
        else if c.cltNonce = 0 then
          let caller' := { caller with done := true, err := .timeoutFailure }
          ((c.store x (some caller')).ranCallback x caller' .timeoutFailure none,
            afterCallback caller' .timeoutFailure, [])
        else (c, [.resend x], [])
  | .resend x, .go => (c.heap x).map fun caller => (c, [.send x caller.buf false], [])
  | .send x buf false, .transmit => some (c, [.send x buf true], [buf])
  | .send x _ transmitted, .sent e =>
      if e = .ok then (if transmitted then some (c, [.receive], []) else none)
      else if x ∈ c.callers then some (c, [.sendFailed x e], [])
      else some (c, [], [])
  | .sendFailed x e, .go =>
      (c.heap x).map fun caller =>
        if c.cltNonce > 0 then
          (c, [if e = .brokenPipe then .reconnect x else .send x caller.buf false], [])
        else (c.store x (some { caller with done := true, err := e }), [.failCallback x e], [])
  | .failCallback x e, .go =>
      (c.heap x).map fun caller => (c.ranCallback x caller e none, afterCallback caller e, [])
  | .reconnect x, .connected e =>
      if e ≠ .ok then some (c.throwing (.runtimeError "cannot connect to server"), [], [])
      else (c.heap x).map fun caller => (c, [.send x caller.buf false], [])
  | .gotPdu buf, .go =>
      match readReply buf with
      | .error e => some (c.throwing e, [], [])
      | .ok (h, u) =>
          some ({ c with
              xidRepWindow := XidWindow.updateXidRep c.xidRepWindow h.xid
              received := h.xid :: c.received }, [.claim h u], [])
  | .claim h u, .go =>
      if h.xid ∈ c.callers then
        some ({ c with callers := c.callers.erase h.xid }, [.claimed h u], [])
      else some (c, [], [])
  | .claimed h u, .go =>
      (c.heap h.xid).map fun caller =>
        if caller.done then (c, [.finish h.xid], [])
        else (c.store h.xid (some { caller with done := true, err := h.err }), [.deliver h u], [])
  | .deliver h u, .go =>
      (c.heap h.xid).map fun caller =>
        match (u.get (S.rep caller.proc)).1 with
        -- unwinding destroys the caller without running the callback
        | .error e => ((c.store h.xid none).throwing e, [], [])
        | .ok v =>
            ((c.ranCallback h.xid caller h.err (some v)).bindCallback caller h.err v,
              .finish h.xid :: afterCallback caller h.err, [])
  | .finish x, .go => some (c.store x none, [], [])
  | .rebind, .go =>
      let r := c.call BIND S.bindArgs .bind
      some (r.1, r.2, [])
  | _, _ => none

def countBind (c : RpcClient S) : RpcClient S := { c with binds := c.binds + 1 }

def spawn (c : RpcClient S) : ClientEvent S → Option (RpcClient S × List (ClientTask S))
  | .call p args => some (c.call p args .app)
  | .bind => some (c.countBind.call BIND S.bindArgs .bind)
  | .expire x =>
      match c.heap x with
      | some caller =>
          if caller.timer = .armed then
            some (c.store x (some { caller with timer := .expired }), [.onTimerExpired x])
          else none
      | none => none

/-- Everything a section of the client can do, with the guards it passed. -/
inductive Acted (c : RpcClient S) : ClientTask S → ClientLabel S →
    RpcClient S → List (ClientTask S) → List S.Buf → Prop
  | connected : Acted c .connect (.connected .ok) { c with connected := true } [.receive] []
  | connectFailed {e} : e ≠ .ok → Acted c .connect (.connected e)
      (c.throwing (.runtimeError "cannot connect to server")) [] []
  | receiveFailed {buf e} : e ≠ .ok → Acted c .receive (.received buf e) c [] []
  | received {buf} : Acted c .receive (.received buf .ok) c [.gotPdu buf] []
  | callWindow {x p req} : Acted c (.callWindow x p req) .go c
      [.callSend x p req (XidWindow.front c.xidRepWindow)] []
  | callSend {x p req xidRep caller buf} : c.heap x = some caller →
      (req.putRequest (c.header x p xidRep)).buf S.toCodec = .ok buf →
      Acted c (.callSend x p req xidRep) .go
        { c.store x (some { caller with buf := buf }) with
          headers := Function.update c.headers x (some (c.header x p xidRep)) }
        [.send x buf false, .callWait x] []
  | callThrew {x p req xidRep caller e} : c.heap x = some caller →
      (req.putRequest (c.header x p xidRep)).buf S.toCodec = .error e →
      Acted c (.callSend x p req xidRep) .go (c.throwing e) [] []
  | callWait {x caller} : c.heap x = some caller → Acted c (.callWait x) .go
      (c.store x (some { caller with timer := .armed })) [] []
  | timerDone {x caller} : c.heap x = some caller → caller.done = true →
      Acted c (.onTimerExpired x) .go c [] []
  | timedOut {x caller} : c.heap x = some caller → caller.done = false → c.cltNonce = 0 →
      Acted c (.onTimerExpired x) .go
        ((c.store x (some { caller with done := true, err := .timeoutFailure })).ranCallback x
          { caller with done := true, err := .timeoutFailure } .timeoutFailure none)
        (afterCallback { caller with done := true, err := .timeoutFailure } .timeoutFailure) []
  | timerRetry {x caller} : c.heap x = some caller → caller.done = false → c.cltNonce ≠ 0 →
      Acted c (.onTimerExpired x) .go c [.resend x] []
  | resend {x caller} : c.heap x = some caller →
      Acted c (.resend x) .go c [.send x caller.buf false] []
  | transmitted {x buf} : Acted c (.send x buf false) .transmit c [.send x buf true] [buf]
  | sent {x buf} : Acted c (.send x buf true) (.sent .ok) c [.receive] []
  | sendFailed {x buf t e} : e ≠ .ok → x ∈ c.callers →
      Acted c (.send x buf t) (.sent e) c [.sendFailed x e] []
  | sendFailedGone {x buf t e} : e ≠ .ok → x ∉ c.callers → Acted c (.send x buf t) (.sent e) c [] []
  | sendReconnect {x caller} : c.heap x = some caller → 0 < c.cltNonce →
      Acted c (.sendFailed x .brokenPipe) .go c [.reconnect x] []
  | sendRetry {x e caller} : c.heap x = some caller → 0 < c.cltNonce → e ≠ .brokenPipe →
      Acted c (.sendFailed x e) .go c [.send x caller.buf false] []
  | sendGaveUp {x e caller} : c.heap x = some caller → c.cltNonce = 0 →
      Acted c (.sendFailed x e) .go (c.store x (some { caller with done := true, err := e }))
        [.failCallback x e] []
  | failCallback {x e caller} : c.heap x = some caller → Acted c (.failCallback x e) .go
      (c.ranCallback x caller e none) (afterCallback caller e) []
  | reconnectFailed {x e} : e ≠ .ok → Acted c (.reconnect x) (.connected e)
      (c.throwing (.runtimeError "cannot connect to server")) [] []
  | reconnected {x caller} : c.heap x = some caller →
      Acted c (.reconnect x) (.connected .ok) c [.send x caller.buf false] []
  | gotPduThrew {buf e} : readReply buf = .error e → Acted c (.gotPdu buf) .go (c.throwing e) [] []
  | gotPdu {buf h u} : readReply buf = .ok (h, u) → Acted c (.gotPdu buf) .go
      { c with
        xidRepWindow := XidWindow.updateXidRep c.xidRepWindow h.xid
        received := h.xid :: c.received } [.claim h u] []
  | claim {h u} : h.xid ∈ c.callers →
      Acted c (.claim h u) .go { c with callers := c.callers.erase h.xid } [.claimed h u] []
  | claimGone {h u} : h.xid ∉ c.callers → Acted c (.claim h u) .go c [] []
  | claimedDone {h u caller} : c.heap h.xid = some caller → caller.done = true →
      Acted c (.claimed h u) .go c [.finish h.xid] []
  | claimed {h u caller} : c.heap h.xid = some caller → caller.done = false →
      Acted c (.claimed h u) .go (c.store h.xid (some { caller with done := true, err := h.err }))
        [.deliver h u] []
  | deliverThrew {h u caller e} : c.heap h.xid = some caller →
      (u.get (S.rep caller.proc)).1 = .error e →
      Acted c (.deliver h u) .go ((c.store h.xid none).throwing e) [] []
  | delivered {h u caller v} : c.heap h.xid = some caller →
      (u.get (S.rep caller.proc)).1 = .ok v → Acted c (.deliver h u) .go
        ((c.ranCallback h.xid caller h.err (some v)).bindCallback caller h.err v)
        (.finish h.xid :: afterCallback caller h.err) []
  | finish {x} : Acted c (.finish x) .go (c.store x none) [] []
  | rebind : Acted c .rebind .go (c.call BIND S.bindArgs .bind).1
      (c.call BIND S.bindArgs .bind).2 []

theorem acted {c c' : RpcClient S} {t : ClientTask S} {l : ClientLabel S}
    {ts : List (ClientTask S)} {os : List S.Buf} (h : c.act t l = some (c', ts, os)) :
    Acted c t l c' ts os := by
  unfold act at h
  split at h
  · split_ifs at h with ok <;> cases h
    · subst ok; exact .connected
    · exact .connectFailed ok
  · split_ifs at h with failed <;> cases h
    · exact .receiveFailed failed
    · rw [ne_eq, not_not] at failed
      subst failed
      exact .received
  · cases h; exact .callWindow
  · obtain ⟨caller, live, same⟩ := Option.bind_eq_some_iff.mp h
    split at same <;> cases same
    · exact .callThrew live ‹_›
    · exact .callSend live ‹_›
  · obtain ⟨caller, live, same⟩ := Option.map_eq_some_iff.mp h
    cases same
    exact .callWait live
  · obtain ⟨caller, live, same⟩ := Option.map_eq_some_iff.mp h
    split_ifs at same with done once <;> cases same
    · exact .timerDone live done
    · exact .timedOut live (by simpa using done) once
    · exact .timerRetry live (by simpa using done) once
  · obtain ⟨caller, live, same⟩ := Option.map_eq_some_iff.mp h
    cases same
    exact .resend live
  · cases h; exact .transmitted
  · split_ifs at h with ok left pending <;> cases h
    · subst ok
      rw [left]
      exact .sent
    · exact .sendFailed ok pending
    · exact .sendFailedGone ok pending
  · obtain ⟨caller, live, same⟩ := Option.map_eq_some_iff.mp h
    split_ifs at same with pos pipe <;> cases same
    · subst pipe; exact .sendReconnect live pos
    · exact .sendRetry live pos pipe
    · exact .sendGaveUp live (by simpa using pos)
  · obtain ⟨caller, live, same⟩ := Option.map_eq_some_iff.mp h
    cases same
    exact .failCallback live
  · split_ifs at h with failed
    · cases h; exact .reconnectFailed failed
    · obtain ⟨caller, live, same⟩ := Option.map_eq_some_iff.mp h
      cases same
      rw [ne_eq, not_not] at failed
      subst failed
      exact .reconnected live
  · split at h <;> cases h
    · exact .gotPduThrew ‹_›
    · exact .gotPdu ‹_›
  · split_ifs at h with pending <;> cases h
    · exact .claim pending
    · exact .claimGone pending
  · obtain ⟨caller, live, same⟩ := Option.map_eq_some_iff.mp h
    split_ifs at same with done <;> cases same
    · exact .claimedDone live done
    · exact .claimed live (by simpa using done)
  · obtain ⟨caller, live, same⟩ := Option.map_eq_some_iff.mp h
    split at same <;> cases same
    · exact .deliverThrew live ‹_›
    · exact .delivered live ‹_›
  · cases h; exact .finish
  · cases h; exact .rebind
  · cases h

/-- The three events from outside. -/
inductive Spawned (c : RpcClient S) : ClientEvent S → RpcClient S → List (ClientTask S) → Prop
  | call {p args} : Spawned c (.call p args) (c.call p args .app).1 (c.call p args .app).2
  | bind : Spawned c .bind (c.countBind.call BIND S.bindArgs .bind).1
      (c.countBind.call BIND S.bindArgs .bind).2
  | expire {x caller} : c.heap x = some caller → caller.timer = .armed →
      Spawned c (.expire x) (c.store x (some { caller with timer := .expired })) [.onTimerExpired x]

theorem spawned {c c' : RpcClient S} {e : ClientEvent S} {ts : List (ClientTask S)}
    (h : c.spawn e = some (c', ts)) : Spawned c e c' ts := by
  cases e with
  | call p args =>
      obtain ⟨rfl, rfl⟩ := Prod.mk.inj (Option.some.inj h)
      exact .call
  | bind =>
      obtain ⟨rfl, rfl⟩ := Prod.mk.inj (Option.some.inj h)
      exact .bind
  | expire x =>
      cases live : c.heap x with
      | none => simp only [spawn, live] at h; cases h
      | some caller =>
          simp only [spawn, live] at h
          split_ifs at h with armed
          cases h
          exact .expire live armed

/-- Only the binding changes in the callback of `Bind`. -/
theorem bindCallback_eq (c : RpcClient S) (caller : Caller S) (e : Err) (v : S.Rep caller.proc) :
    c.bindCallback caller e v = { c with
      srvNonce := (c.bindCallback caller e v).srvNonce
      bindDone := (c.bindCallback caller e v).bindDone } := by
  unfold bindCallback
  split_ifs <;> rfl

/-! A weight that ignores the activity a call starts ignores the call. -/

theorem weigh_call {w : ClientTask S → Nat} (idle : ∀ x p req, w (.callWindow x p req) = 0)
    (c : RpcClient S) (p : Nat) (args : S.Args p) (cb : Callback) :
    weigh w (c.call p args cb).2 = 0 := by
  unfold call
  split_ifs
  · rw [weigh_cons, idle, weigh_nil]
  · rfl

theorem weigh_afterCallback {w : ClientTask S → Nat} (idle : w .rebind = 0) (caller : Caller S)
    (e : Err) : weigh w (afterCallback caller e) = 0 := by
  unfold afterCallback
  split_ifs
  · rw [weigh_cons, idle, weigh_nil]
  · rfl

def machine (S : Services) :
    Machine (RpcClient S) (ClientTask S) (ClientLabel S) (ClientEvent S) S.Buf where
  act := act
  spawn := spawn

/-- A new client after `ConnectToServer`; a nonce of 0 means it does not retransmit. -/
def start (S : Services) (cltNonce : UInt32) : Cfg (RpcClient S) (ClientTask S) :=
  ⟨{ cltNonce := cltNonce }, [.connect]⟩

end RpcClient

end AsyncRpc
