import AsyncRpc.Foundation.Interleaving
import AsyncRpc.Marshall
import AsyncRpc.ReplyWindow

/-! The server as a machine of atomic sections: a section is what runs between two
releases of a mutex or between two completions of the socket. -/
namespace AsyncRpc
open Interleaving

/-- One run of a registered handler, with what it was given and what it made. -/
structure Execution (S : Services) where
  cltNonce : UInt32
  xid : Nat
  proc : Nat
  args : S.Args proc
  err : Err
  reply : S.Rep proc

/-- `invoked`, `executions` and `escaped` are history: calls of a handler, handlers
that returned, exceptions that left `Dispatch`. -/
structure RpcServer (S : Services) (ς : Type) where
  nonce : UInt32
  procs : List Nat := [BIND]
  filter : DupFilter S.Buf := {}
  clientSockets : List ς := []
  invoked : List (UInt32 × Nat) := []
  executions : List (Execution S) := []
  escaped : List Exn := []

/-- Which branch of `Dispatch` handed a buffer to `Send`. A remembered reply is sent
through a pointer to the entry of that client and xid. -/
inductive Origin where
  | handled
  | oldServer
  | remembered (cltNonce : UInt32) (xid : Nat)
  | forgotten
  deriving DecidableEq

inductive ServerTask (S : Services) (ς : Type) where
  | accept
  | receive (s : ς)
  | dispatch (s : ς) (buf : S.Buf)
  | newWindow (s : ς) (h : RequestHeader) (req : Unmarshall)
  | check (s : ς) (h : RequestHeader) (req : Unmarshall)
  | invoke (s : ς) (h : RequestHeader) (req : Unmarshall)
  | running (s : ς) (h : RequestHeader) (args : S.Args h.proc)
  | record (s : ς) (h : RequestHeader) (rep : Marshall)
  | remembered (s : ς) (cltNonce : UInt32) (xid : Nat)
  | send (s : ς) (origin : Origin) (buf : S.Buf) (transmitted : Bool)

/-- The choices of the environment: how an operation of the socket completes, what
a handler does, and when the bytes of a `Send` leave. -/
inductive ServerLabel (S : Services) (ς : Type) where
  | go
  | accepted (s : ς) (e : Err)
  | received (buf : S.Buf) (e : Err)
  | returns (p : Nat) (r : S.Rep p) (e : Err)
  | raises
  | transmit
  | sent (e : Err)

inductive ServerEvent where
  | register (p : Nat)

namespace RpcServer

variable {S : Services} {ς : Type}

/-- `Dispatch` up to its first critical section on the filter. -/
def dispatch (sv : RpcServer S ς) (s : ς) (buf : S.Buf) : Except Exn (ServerTask S ς) := do
  let req ← Unmarshall.ofBuf S.toCodec buf
  let h ← req.getRequest
  -- is the client sending to an old instance of server?
  if h.srvNonce ≠ 0 ∧ h.srvNonce ≠ sv.nonce then
    return .send s .oldServer (errorBuf S.toCodec ⟨h.xid, .oldserverFailure⟩) false
  else if h.proc ∉ sv.procs then
    throw (.runtimeError "rpcs: dispatch: unknown proc")
  else if h.cltNonce > 0 then
    return .newWindow s h req
  else
    return .invoke s h req

def throwing (sv : RpcServer S ς) (e : Exn) : RpcServer S ς :=
  { sv with escaped := e :: sv.escaped }

/-- The `Send` of a fresh reply, unless its result is one that `Buf` refuses. -/
def reply (sv : RpcServer S ς) (s : ς) (rep : Marshall) : RpcServer S ς × List (ServerTask S ς) :=
  match rep.buf S.toCodec with
  | .ok buf => (sv, [.send s .handled buf false])
  | .error e => (sv.throwing e, [])

def executed (sv : RpcServer S ς) (h : RequestHeader) (args : S.Args h.proc) (r : S.Rep h.proc)
    (e : Err) : RpcServer S ς :=
  { sv with executions := ⟨h.cltNonce, h.xid, h.proc, args, e, r⟩ :: sv.executions }

/-- A handler returned: its result is already in the reply, the header follows. -/
def finish (sv : RpcServer S ς) (s : ς) (h : RequestHeader) (args : S.Args h.proc)
    (r : S.Rep h.proc) (e : Err) : RpcServer S ς × List (ServerTask S ς) :=
  let rep := replyDoc S h.proc ⟨h.xid, e⟩ r
  if h.cltNonce > 0 then (sv.executed h args r e, [.record s h rep])
  else (sv.executed h args r e).reply s rep

/-- `AddReply` of the bytes of a reply, and the `Send` of them. -/
def record (sv : RpcServer S ς) (s : ς) (h : RequestHeader) (rep : Marshall) :
    RpcServer S ς × List (ServerTask S ς) :=
  match (rep.buf S.toCodec).bind (sv.filter.addReply h.cltNonce h.xid) with
  | .ok f => { sv with filter := f }.reply s rep
  | .error e => (sv.throwing e, [])

/-- What `Dispatch` does with the verdict of the filter. -/
def onVerdict (s : ς) (h : RequestHeader) (req : Unmarshall) : State → ServerTask S ς
  | .new => .invoke s h req
  | .inprogress => .receive s
  | .done => .remembered s h.cltNonce h.xid
  | .forgotten =>
      .send s .forgotten (errorBuf S.toCodec ⟨h.xid, .atmostOnceFailure⟩) false

/-- The completion of a `Send`: the member `OnSendFinished` for fresh and old-instance
replies, a lambda that ignores the error for the other two. -/
def onSent (s : ς) (origin : Origin) (e : Err) : List (ServerTask S ς) :=
  match origin with
  | .handled | .oldServer => if e = .ok then [.receive s] else []
  | .remembered _ _ | .forgotten => [.receive s]

def act [DecidableEq ς] (sv : RpcServer S ς) : ServerTask S ς → ServerLabel S ς →
    Option (RpcServer S ς × List (ServerTask S ς) × List (ς × S.Buf))
  | .accept, .accepted s e =>
      if e ≠ .ok then some (sv, [], [])
      else if s ∈ sv.clientSockets then none
      else some ({ sv with clientSockets := sv.clientSockets ++ [s] }, [.receive s, .accept], [])
  | .receive s, .received buf e =>
      if e ≠ .ok then some (sv, [], []) else some (sv, [.dispatch s buf], [])
  | .dispatch s buf, .go =>
      match sv.dispatch s buf with
      | .ok t => some (sv, [t], [])
      | .error e => some (sv.throwing e, [], [])
  | .newWindow s h req, .go =>
      some ({ sv with filter := sv.filter.createWindow h.cltNonce }, [.check s h req], [])
  | .check s h req, .go =>
      let r := sv.filter.checkDuplicateAndUpdate S.empty h.cltNonce h.xid h.xidRep
      some ({ sv with filter := r.2 }, [onVerdict s h req r.1], [])
  | .invoke s h req, .go =>
      let sv := { sv with invoked := (h.cltNonce, h.xid) :: sv.invoked }
      match (req.get (S.args h.proc)).1 with
      | .ok args => some (sv, [.running s h args], [])
      | .error e => some (sv.throwing e, [], [])
  | .running s h args, .go =>
      -- the handler of `BIND` is `RpcServer::Bind`
      if isBind : BIND = h.proc then
        let r := sv.finish s h args (isBind ▸ S.nonce.symm sv.nonce) .ok
        some (r.1, r.2, [])
      else none
  | .running s h args, .returns p r e =>
      if same : p = h.proc ∧ h.proc ≠ BIND then
        let r := sv.finish s h args (same.1 ▸ r) e
        some (r.1, r.2, [])
      else none
  | .running _ h _, .raises =>
      if h.proc ≠ BIND then some (sv.throwing .handler, [], []) else none
  | .record s h rep, .go =>
      let r := sv.record s h rep
      some (r.1, r.2, [])
  | .remembered s n x, .go =>
      -- a pointer to an erased entry dangles, and reading it has no meaning
      ((sv.filter.window n).find? fun r => r.xid = x).map fun r =>
        (sv, [.send s (.remembered n x) r.buf false], [])
  | .send s o buf false, .transmit => some (sv, [.send s o buf true], [(s, buf)])
  | .send s o _ transmitted, .sent e =>
      if e = .ok ∧ transmitted = false then none else some (sv, onSent s o e, [])
  | _, _ => none

/-- `Register` of a method; a procedure is registered once. -/
def spawn (sv : RpcServer S ς) : ServerEvent → Option (RpcServer S ς × List (ServerTask S ς))
  | .register p => if p ∈ sv.procs then none else some ({ sv with procs := sv.procs ++ [p] }, [])

/-- The handler of a request returned: `RpcServer::Bind`, or one of the application. -/
inductive Returned (sv : RpcServer S ς) (h : RequestHeader) :
    ServerLabel S ς → S.Rep h.proc → Err → Prop
  | bind (isBind : BIND = h.proc) : Returned sv h .go (isBind ▸ S.nonce.symm sv.nonce) .ok
  | handler {r e} (other : h.proc ≠ BIND) : Returned sv h (.returns h.proc r e) r e

/-- Everything a section of the server can do, with the guards it passed. -/
inductive Acted [DecidableEq ς] (sv : RpcServer S ς) : ServerTask S ς → ServerLabel S ς →
    RpcServer S ς → List (ServerTask S ς) → List (ς × S.Buf) → Prop
  | acceptFailed {s e} : e ≠ .ok → Acted sv .accept (.accepted s e) sv [] []
  | accepted {s} : s ∉ sv.clientSockets → Acted sv .accept (.accepted s .ok)
      { sv with clientSockets := sv.clientSockets ++ [s] } [.receive s, .accept] []
  | receiveFailed {s buf e} : e ≠ .ok → Acted sv (.receive s) (.received buf e) sv [] []
  | received {s buf} : Acted sv (.receive s) (.received buf .ok) sv [.dispatch s buf] []
  | dispatched {s buf t} : sv.dispatch s buf = .ok t → Acted sv (.dispatch s buf) .go sv [t] []
  | dispatchThrew {s buf e} : sv.dispatch s buf = .error e →
      Acted sv (.dispatch s buf) .go (sv.throwing e) [] []
  | newWindow {s h req} : Acted sv (.newWindow s h req) .go
      { sv with filter := sv.filter.createWindow h.cltNonce } [.check s h req] []
  | check {s h req} : Acted sv (.check s h req) .go
      { sv with filter := (sv.filter.checkDuplicateAndUpdate S.empty h.cltNonce h.xid h.xidRep).2 }
      [onVerdict s h req (sv.filter.checkDuplicateAndUpdate S.empty h.cltNonce h.xid h.xidRep).1] []
  | invoked {s h req args} : (req.get (S.args h.proc)).1 = .ok args →
      Acted sv (.invoke s h req) .go
        { sv with invoked := (h.cltNonce, h.xid) :: sv.invoked } [.running s h args] []
  | invokeThrew {s h req e} : (req.get (S.args h.proc)).1 = .error e →
      Acted sv (.invoke s h req) .go
        ({ sv with invoked := (h.cltNonce, h.xid) :: sv.invoked }.throwing e) [] []
  | recording {s h args l r e} : Returned sv h l r e → 0 < h.cltNonce →
      Acted sv (.running s h args) l (sv.executed h args r e)
        [.record s h (replyDoc S h.proc ⟨h.xid, e⟩ r)] []
  | answered {s h args l r e buf} : Returned sv h l r e → h.cltNonce = 0 →
      (replyDoc S h.proc ⟨h.xid, e⟩ r).buf S.toCodec = .ok buf →
      Acted sv (.running s h args) l (sv.executed h args r e) [.send s .handled buf false] []
  | answerThrew {s h args l r e err} : Returned sv h l r e → h.cltNonce = 0 →
      (replyDoc S h.proc ⟨h.xid, e⟩ r).buf S.toCodec = .error err →
      Acted sv (.running s h args) l ((sv.executed h args r e).throwing err) [] []
  | raised {s h args} : h.proc ≠ BIND →
      Acted sv (.running s h args) .raises (sv.throwing .handler) [] []
  | recorded {s h rep buf f} : sv.filter.addReply h.cltNonce h.xid buf = .ok f →
      rep.buf S.toCodec = .ok buf →
      Acted sv (.record s h rep) .go { sv with filter := f } [.send s .handled buf false] []
  | recordThrew {s h rep buf e} : sv.filter.addReply h.cltNonce h.xid buf = .error e →
      rep.buf S.toCodec = .ok buf → Acted sv (.record s h rep) .go (sv.throwing e) [] []
  | bufThrew {s h rep e} : rep.buf S.toCodec = .error e →
      Acted sv (.record s h rep) .go (sv.throwing e) [] []
  | remembered {s n x r} : r ∈ sv.filter.window n → r.xid = x →
      Acted sv (.remembered s n x) .go sv [.send s (.remembered n x) r.buf false] []
  | transmitted {s o buf} :
      Acted sv (.send s o buf false) .transmit sv [.send s o buf true] [(s, buf)]
  | sent {s o buf t e} : (e = .ok → t = true) →
      Acted sv (.send s o buf t) (.sent e) sv (onSent s o e) []

theorem finish_acted [DecidableEq ς] {sv : RpcServer S ς} {s : ς} {h : RequestHeader}
    {args : S.Args h.proc} {l : ServerLabel S ς} {r : S.Rep h.proc} {e : Err}
    (returned : Returned sv h l r e) :
    Acted sv (.running s h args) l (sv.finish s h args r e).1 (sv.finish s h args r e).2 [] := by
  unfold finish
  split_ifs with pos
  · exact .recording returned pos
  have zero : h.cltNonce = 0 := by simpa using pos
  cases written : (replyDoc S h.proc ⟨h.xid, e⟩ r).buf S.toCodec with
  | ok buf => simpa only [reply, written] using Acted.answered returned zero written
  | error err => simpa only [reply, written] using Acted.answerThrew returned zero written

theorem record_acted [DecidableEq ς] {sv : RpcServer S ς} {s : ς} {h : RequestHeader}
    {rep : Marshall} :
    Acted sv (.record s h rep) .go (sv.record s h rep).1 (sv.record s h rep).2 [] := by
  unfold record
  cases written : rep.buf S.toCodec with
  | error e => exact .bufThrew written
  | ok buf =>
      cases added : sv.filter.addReply h.cltNonce h.xid buf with
      | error e => simpa only [Except.bind, added] using Acted.recordThrew added written
      | ok f => simpa only [Except.bind, added, reply, written] using Acted.recorded added written

theorem acted [DecidableEq ς] {sv sv' : RpcServer S ς} {t : ServerTask S ς} {l : ServerLabel S ς}
    {ts : List (ServerTask S ς)} {os : List (ς × S.Buf)}
    (h : sv.act t l = some (sv', ts, os)) : Acted sv t l sv' ts os := by
  unfold act at h
  split at h
  · split_ifs at h with failed stale
    · cases h; exact .acceptFailed failed
    · cases h
      rw [ne_eq, not_not] at failed
      subst failed
      exact .accepted stale
  · split_ifs at h with failed
    · cases h; exact .receiveFailed failed
    · cases h
      rw [ne_eq, not_not] at failed
      subst failed
      exact .received
  · split at h <;> cases h
    · exact .dispatched ‹_›
    · exact .dispatchThrew ‹_›
  · cases h; exact .newWindow
  · cases h; exact .check
  · dsimp only at h
    split at h <;> cases h
    · exact .invoked ‹_›
    · exact .invokeThrew ‹_›
  · split_ifs at h with isBind
    cases h; exact finish_acted (.bind isBind)
  · split_ifs at h with same
    cases h
    obtain ⟨rfl, other⟩ := same
    exact finish_acted (.handler other)
  · split_ifs at h with other
    cases h; exact .raised other
  · cases h
    exact record_acted
  · obtain ⟨r, found, same⟩ := Option.map_eq_some_iff.mp h
    cases same
    exact .remembered (List.mem_of_find?_eq_some found) (by simpa using List.find?_some found)
  · cases h; exact .transmitted
  · split_ifs at h with early
    cases h
    exact .sent fun ok => by simpa [ok] using early
  · cases h

/-- `buf` parses to the request `req`, whose header is `h`. -/
def Reads (buf : S.Buf) (h : RequestHeader) (req : Unmarshall) : Prop :=
  Unmarshall.ofBuf S.toCodec buf = .ok req ∧ req.getRequest = .ok h

/-- The three ways `dispatch` goes on without throwing. -/
inductive Dispatched (sv : RpcServer S ς) (s : ς) (buf : S.Buf) : ServerTask S ς → Prop
  | oldServer {h req} (reads : Reads buf h req) (bound : h.srvNonce ≠ 0)
      (other : h.srvNonce ≠ sv.nonce) : Dispatched sv s buf
        (.send s .oldServer (errorBuf S.toCodec ⟨h.xid, .oldserverFailure⟩) false)
  | filtered {h req} (reads : Reads buf h req) (current : h.srvNonce ≠ 0 → h.srvNonce = sv.nonce)
      (known : h.proc ∈ sv.procs) (pos : 0 < h.cltNonce) : Dispatched sv s buf (.newWindow s h req)
  | plain {h req} (reads : Reads buf h req) (current : h.srvNonce ≠ 0 → h.srvNonce = sv.nonce)
      (known : h.proc ∈ sv.procs) (zero : h.cltNonce = 0) : Dispatched sv s buf (.invoke s h req)

theorem dispatched {sv : RpcServer S ς} {s : ς} {buf : S.Buf} {t : ServerTask S ς}
    (ok : sv.dispatch s buf = .ok t) : Dispatched sv s buf t := by
  simp only [dispatch, bind, Except.bind, pure, Except.pure] at ok
  split at ok
  · cases ok
  · rename_i req parsed
    split at ok
    · cases ok
    · rename_i h header
      have reads : Reads buf h req := ⟨parsed, header⟩
      split_ifs at ok with old unknown pos
      · cases ok; exact .oldServer reads old.1 old.2
      · cases ok
        exact .filtered reads (by simpa using old) (by simpa using unknown) pos
      · cases ok
        exact .plain reads (by simpa using old) (by simpa using unknown) (by simpa using pos)

def machine (S : Services) (ς : Type) [DecidableEq ς] :
    Machine (RpcServer S ς) (ServerTask S ς) (ServerLabel S ς) ServerEvent (ς × S.Buf) where
  act := act
  spawn := spawn

/-- `Start`: an empty filter and one outstanding `Accept`. -/
def start (S : Services) (ς : Type) (nonce : UInt32) : Cfg (RpcServer S ς) (ServerTask S ς) :=
  ⟨{ nonce := nonce }, [.accept]⟩

end RpcServer

end AsyncRpc
