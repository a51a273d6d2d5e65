import AsyncRpc.Foundation.Locks
import AsyncRpc.Rpc

/-! The mutexes of clients, servers and of the two transports, and who takes them inside
whose scope; the `io_context`s and their workers. Branches that depend on data are left
open, the error of a completion and `clt_nonce_ > 0` apart. -/
namespace AsyncRpc.Mutexes
open Locks Transition

/-- The contexts of clients and servers, whose workers run completion handlers. -/
inductive Context where
  | client (k : Nat)
  | server (v : Nat)
  deriving DecidableEq

/-- The mutexes of the mock sockets, of client `k` and its callers, and of server `v`. -/
inductive Mutex where
  | kConnectionMu
  | kBufferMu
  | ctxMu (c : Context)
  | callerMu (k x : Nat)
  | callersMu (k : Nat)
  | xidRepWindowMu (k : Nat)
  | connectedMu (k : Nat)
  | procsMu (v : Nat)
  | repWindowMu (v : Nat)
  | clntSocketMu (v : Nat)
  deriving DecidableEq

/-- Functions whose code takes mutexes or leads to such code. -/
inductive Function where
  | user
  | application
  | call (k : Nat)
  | bind (k : Nat)
  | bindReplied (k : Nat) (e : Err)
  | hasBinded (k : Nat)
  | waitUntilConnected (k : Nat)
  | connectToServer (k : Nat)
  | destroyClient (k : Nat)
  | onConnected (k : Nat)
  | reconnected (k x : Nat) (e : Err)
  | listenFromServer (k : Nat)
  | onReceiveFinished (k : Nat) (e : Err)
  | gotPdu (k : Nat)
  | updateXidRep (k : Nat)
  | onSendFinished (k x : Nat) (e : Err)
  | onTimerExpired (k x : Nat)
  | callback (k : Nat) (e : Err)
  | register (v : Nat)
  | start (v : Nat)
  | stop (v : Nat)
  | acceptNewConnection (v : Nat)
  | onNewConnection (v : Nat) (e : Err)
  | readIncomingPacket (v : Nat)
  | onPacketReceived (v : Nat) (e : Err)
  | dispatch (v : Nat)
  | checkDuplicateAndUpdate (v : Nat)
  | addReply (v : Nat)
  | onReplySent (v : Nat) (e : Err)

abbrev Code := Locks.Code Mutex Function Context

/-- Code that goes on with one of some errors. -/
def oneOf (e : Err) (others : List Err) (cb : Err → Code) : Code :=
  .any fun n => cb ((e :: others).getD n e)

def Code.all : List Code → Code := List.foldr .seq .skip

inductive Transport where
  | asio
  | mock
  deriving DecidableEq

namespace Transport

/-- `Socket::Send`. -/
def send (c : Context) (cb : Err → Code) : Transport → Code
  | asio => .post c (oneOf .ok [.brokenPipe, .sendFailure] cb)
  | mock => .fork (.locked .kBufferMu (oneOf .ok [.sendFailure] cb))

/-- `Socket::Receive`. -/
def receive (c : Context) (cb : Err → Code) : Transport → Code
  | asio => .post c (oneOf .ok [.connectionClosed, .brokenPipe, .receiveFailure] cb)
  | mock => .fork (.await .kBufferMu (oneOf .ok [.cancel] cb))

/-- `Socket::Connect`. The mock socket runs the callback on the thread that connects. -/
def connect (c : Context) (cb : Err → Code) : Transport → Code
  | asio => .post c (oneOf .ok [.connectFailure] cb)
  | mock => .seq (.locked .kBufferMu .skip)
      (.either .skip (.seq (.locked .kConnectionMu .skip) (cb .ok)))

/-- `Acceptor::Accept`. -/
def accept (c : Context) (cb : Err → Code) : Transport → Code
  | asio => .post c (oneOf .ok [.acceptFailure] cb)
  | mock => .fork (.await .kConnectionMu (oneOf .ok [.cancel] cb))

/-- `Timer::Wait`. -/
def wait (c : Context) (cb : Err → Code) : Transport → Code
  | asio => .post c (.either .skip (oneOf .ok [.timerFailure] cb))
  | mock => .fork (.either .skip (cb .ok))

/-- `IoContext::Run`. That of asio returns when its context has no work left, like
`io_context::run` without a work guard. -/
def run (c : Context) : Transport → Code
  | asio => .serve c
  | mock => .await (.ctxMu c) .skip

/-- `IoContext::Stop`. -/
def stop (c : Context) : Transport → Code
  | asio => .halt c
  | mock => .locked (.ctxMu c) .skip

end Transport

section
variable (T : Transport) (retrans : Nat → Bool)

/-- The `workers_` that `Start` and `ConnectToServer` make at their end. -/
def workers (c : Context) : Code := .any fun n => Code.all (List.replicate n (.fork (T.run c)))

/-- `socket_->Send(c->buf_, ...)`, for a caller with `xid_ = x`. -/
def sendCaller (k x : Nat) : Code := T.send (.client k) fun e => .invoke (.onSendFinished k x e)

/-- What the functions do. -/
def body : Function → Code
  -- an application calls whatever it likes, as often as it likes
  | .user => .either .skip (.seq (.any fun i => .any fun
      | 0 => .invoke (.connectToServer i)
      | 1 => .invoke (.waitUntilConnected i)
      | 2 => .invoke (.start i)
      | 3 => .invoke (.stop i)
      | 4 => .invoke (.destroyClient i)
      | _ => .invoke .application) (.invoke .user))
  -- within callbacks and handlers it neither waits nor connects
  | .application => .either .skip (.seq (.any fun i => .any fun
      | 0 => .invoke (.call i)
      | 1 => .invoke (.bind i)
      | 2 => .invoke (.hasBinded i)
      | _ => .invoke (.register i)) (.invoke .application))
  | .call k => .seq (.locked (.callersMu k) .skip)
      (.either .skip (.seq (.locked (.xidRepWindowMu k) .skip)
        (.any fun x => .seq (sendCaller T k x)
          (T.wait (.client k) fun _ => .invoke (.onTimerExpired k x)))))
  | .bind k => .invoke (.call k)
  | .bindReplied k e => if e ≠ .ok then .invoke (.bind k) else .locked (.callersMu k) .skip
  | .hasBinded k => .locked (.callersMu k) .skip
  | .waitUntilConnected k => .await (.connectedMu k) .skip
  | .connectToServer k => .seq
      (T.connect (.client k) fun e => if e ≠ .ok then .skip else .invoke (.onConnected k))
      (workers T (.client k))
  | .destroyClient k => T.stop (.client k)
  | .onConnected k => .seq (.locked (.connectedMu k) .skip) (.invoke (.listenFromServer k))
  | .reconnected k x e => if e ≠ .ok then .skip else sendCaller T k x
  | .listenFromServer k => T.receive (.client k) fun e => .invoke (.onReceiveFinished k e)
  | .onReceiveFinished k e => if e ≠ .ok then .skip else .invoke (.gotPdu k)
  | .gotPdu k => .seq (.invoke (.updateXidRep k)) (.seq (.locked (.callersMu k) .skip)
      (.either .skip (.any fun x => .seq (.locked (.callerMu k x) .skip)
        (.either .skip (.any fun n => .invoke (.callback k (Err.ofCode n)))))))
  | .updateXidRep k => .locked (.xidRepWindowMu k) .skip
  | .onSendFinished k x e =>
      if e ≠ .ok then .seq (.locked (.callersMu k) .skip) (.either .skip
        (if retrans k then
          if e = .brokenPipe then T.connect (.client k) fun e => .invoke (.reconnected k x e)
          else sendCaller T k x
        else .seq (.locked (.callerMu k x) .skip) (.invoke (.callback k e))))
      else .invoke (.listenFromServer k)
  | .onTimerExpired k x =>
      -- the callback runs before the end of the scope, a retransmission after `l.unlock()`
      if retrans k then .seq (.locked (.callerMu k x) .skip) (.either .skip (sendCaller T k x))
      else .locked (.callerMu k x) (.either .skip (.invoke (.callback k .timeoutFailure)))
  | .callback k e => .either (.invoke .application) (.invoke (.bindReplied k e))
  | .register v => .locked (.procsMu v) .skip
  | .start v => .seq (.invoke (.acceptNewConnection v)) (workers T (.server v))
  | .stop v => .seq (T.stop (.server v)) (.locked (.clntSocketMu v) .skip)
  | .acceptNewConnection v => T.accept (.server v) fun e => .invoke (.onNewConnection v e)
  | .onNewConnection v e =>
      if e ≠ .ok then .skip
      else .seq (.locked (.clntSocketMu v) .skip)
        (.seq (.invoke (.readIncomingPacket v)) (.invoke (.acceptNewConnection v)))
  | .readIncomingPacket v => T.receive (.server v) fun e => .invoke (.onPacketReceived v e)
  | .onPacketReceived v e => if e ≠ .ok then .skip else .invoke (.dispatch v)
  | .dispatch v => .either (T.send (.server v) fun e => .invoke (.onReplySent v e))
      (.seq (.locked (.procsMu v) .skip) (.either
        (.seq (.invoke .application) (T.send (.server v) fun e => .invoke (.onReplySent v e)))
        (.seq (.locked (.repWindowMu v) .skip) (.seq (.invoke (.checkDuplicateAndUpdate v))
          (.any fun
            | 0 => .seq (.invoke .application) (.seq (.invoke (.addReply v))
                (T.send (.server v) fun e => .invoke (.onReplySent v e)))
            | 1 => .invoke (.readIncomingPacket v)
            | _ => T.send (.server v) fun _ => .invoke (.readIncomingPacket v))))))
  | .checkDuplicateAndUpdate v | .addReply v => .locked (.repWindowMu v) .skip
  | .onReplySent v e => if e ≠ .ok then .skip else .invoke (.readIncomingPacket v)

end

section
variable (T : Transport) (retrans : Nat → Bool)

/-- The order in which the mutexes nest. Ranks up to `4` are those of mutexes under which code
of an application may run. -/
def rank : Mutex → Nat
  | .kBufferMu => if T = .mock then 3 else 5
  | .callerMu k _ => if retrans k then 5 else 4
  | .callersMu _ => 6
  | .xidRepWindowMu _ => 7
  | .connectedMu _ => 8
  | .procsMu _ => 9
  | .repWindowMu _ => 10
  | .kConnectionMu => 11
  | .clntSocketMu _ => 12
  | .ctxMu _ => 13

/-- The last mutex that a function may find taken by its own thread. -/
def need : Function → Nat
  | .user | .connectToServer _ | .destroyClient _ | .waitUntilConnected _ | .start _ | .stop _ => 0
  | .onConnected _ | .reconnected _ _ _ | .onTimerExpired _ _ => 1
  -- the mock socket, which never reports BROKEN_PIPE, runs completions under `kBufferMu`
  | .onSendFinished _ _ e => if e = .brokenPipe then 1 else 3
  | .onReceiveFinished _ _ | .gotPdu _ | .updateXidRep _ | .onPacketReceived _ _ | .dispatch _
  | .checkDuplicateAndUpdate _ | .addReply _ | .onReplySent _ _ => 3
  | .application | .call _ | .bind _ | .bindReplied _ _ | .hasBinded _ | .callback _ _
  | .register _ => 4
  | .onNewConnection _ _ | .listenFromServer _ | .readIncomingPacket _ | .acceptNewConnection _ => 11

abbrev Fits (b : Nat) (c : Code) : Prop := Ranked (rank T retrans) need b c

end

variable {T : Transport} {retrans : Nat → Bool}

theorem rank_callerMu (k x : Nat) : 3 < rank T retrans (.callerMu k x) := by
  rw [rank]
  split_ifs <;> decide

theorem takes {b : Nat} {m : Mutex} (above : b < rank T retrans m) :
    Fits T retrans b (.locked m .skip) := ⟨above, trivial⟩

theorem calls {b : Nat} {f : Function} (below : b ≤ need f) : Fits T retrans b (.invoke f) := below

theorem oneOf_fits {b : Nat} {e : Err} {others : List Err} {cb : Err → Code}
    (each : ∀ e' ∈ e :: others, Fits T retrans b (cb e')) : Fits T retrans b (oneOf e others cb) := by
  intro n
  have listed : (e :: others).getD n e ∈ e :: others := by
    rw [List.getD_eq_getElem?_getD]
    cases found : (e :: others)[n]? with
    | none => exact List.mem_cons_self
    | some e' => exact List.mem_of_getElem? found
  exact each _ listed

theorem either_fits {b : Nat} {c d : Code} (first : Fits T retrans b c) (second : Fits T retrans b d) :
    Fits T retrans b (.either c d) := by
  rintro (_ | n)
  · exact first
  · exact second

theorem ite_fits {b : Nat} {p : Prop} [Decidable p] {c d : Code} (first : p → Fits T retrans b c)
    (second : ¬p → Fits T retrans b d) : Fits T retrans b (if p then c else d) := by
  split_ifs with holds
  · exact first holds
  · exact second holds

namespace Transport
variable {b : Nat} {c : Context} {cb : Err → Code}

theorem send_fits (sent : ∀ e, e ≠ .brokenPipe → Fits T retrans 3 (cb e))
    (broken : Fits T retrans 1 (cb .brokenPipe)) : Fits T retrans b (T.send c cb) := by
  have done : ∀ e, Fits T retrans 1 (cb e) := by
    intro e
    by_cases pipe : e = .brokenPipe
    · exact pipe ▸ broken
    · exact (sent e pipe).mono (by decide)
  cases T with
  | asio => exact oneOf_fits fun e _ => done e
  | mock =>
      refine ⟨by simp [rank], oneOf_fits fun e member => sent e ?_⟩
      rintro rfl
      revert member
      decide

theorem receive_fits (each : ∀ e, Fits T retrans 3 (cb e)) : Fits T retrans b (T.receive c cb) := by
  cases T with
  | asio => exact oneOf_fits fun e _ => (each e).mono (by decide)
  | mock => exact ⟨rfl, by simp [rank], oneOf_fits fun e _ => each e⟩

theorem connect_fits (each : ∀ e, Fits T retrans 1 (cb e)) (low : b ≤ 1) :
    Fits T retrans b (T.connect c cb) := by
  cases T with
  | asio => exact oneOf_fits fun e _ => each e
  | mock =>
      have buffer : b < rank .mock retrans .kBufferMu := Nat.lt_of_le_of_lt low (by simp [rank])
      have connection : b < rank .mock retrans .kConnectionMu :=
        Nat.lt_of_le_of_lt low (by simp [rank])
      exact ⟨⟨buffer, trivial⟩, either_fits trivial ⟨⟨connection, trivial⟩, (each .ok).mono low⟩⟩

theorem accept_fits (each : ∀ e, Fits T retrans 11 (cb e)) : Fits T retrans b (T.accept c cb) := by
  cases T with
  | asio => exact oneOf_fits fun e _ => (each e).mono (by decide)
  | mock => exact ⟨rfl, by simp [rank], oneOf_fits fun e _ => each e⟩

theorem wait_fits (each : ∀ e, Fits T retrans 1 (cb e)) : Fits T retrans b (T.wait c cb) := by
  cases T with
  | asio => exact either_fits trivial (oneOf_fits fun e _ => each e)
  | mock => exact either_fits trivial ((each .ok).mono (by decide))

end Transport

theorem workers_fits (b : Nat) (c : Context) : Fits T retrans b (workers T c) := by
  intro n
  induction n with
  | zero => trivial
  | succ n more =>
      refine ⟨?_, more⟩
      cases T with
      | asio => rfl
      | mock => exact ⟨rfl, by simp [rank], trivial⟩

theorem stop_fits (c : Context) : Fits T retrans 0 (T.stop c) := by
  cases T with
  | asio => trivial
  | mock => exact takes (by simp [rank])

theorem sendCaller_fits (b k x : Nat) : Fits T retrans b (sendCaller T k x) := by
  refine Transport.send_fits (fun e whole => ?_) (Nat.le_refl 1)
  rw [Fits, Ranked, need, if_neg whole]

/-- Every function takes its mutexes in the order of their ranks. -/
theorem body_fits (f : Function) : Fits T retrans (need f) (body T retrans f) := by
  cases f with
  | user =>
      refine either_fits trivial ⟨fun i n => ?_, calls (Nat.le_refl _)⟩
      rcases n with _ | _ | _ | _ | _ | n <;> exact calls (Nat.zero_le _)
  | application =>
      refine either_fits trivial ⟨fun i n => ?_, calls (Nat.le_refl _)⟩
      rcases n with _ | _ | _ | n <;> exact calls (Nat.le_refl _)
  | call k =>
      refine ⟨takes (by simp [need, rank]), either_fits trivial
        ⟨takes (by simp [need, rank]), fun x => ⟨sendCaller_fits _ k x, ?_⟩⟩⟩
      exact Transport.wait_fits fun _ => calls (Nat.le_refl _)
  | bind k => exact calls (Nat.le_refl _)
  | bindReplied k e =>
      exact ite_fits (fun _ => calls (Nat.le_refl _)) fun _ => takes (by simp [need, rank])
  | hasBinded k => exact takes (by simp [need, rank])
  | waitUntilConnected k => exact ⟨rfl, by simp [need, rank], trivial⟩
  | connectToServer k =>
      refine ⟨Transport.connect_fits (fun e => ?_) (Nat.zero_le 1), workers_fits _ _⟩
      exact ite_fits (fun _ => trivial) fun _ => calls (Nat.le_refl _)
  | destroyClient k => exact stop_fits _
  | onConnected k => exact ⟨takes (by simp [need, rank]), calls (by simp [need])⟩
  | reconnected k x e => exact ite_fits (fun _ => trivial) fun _ => sendCaller_fits _ k x
  | listenFromServer k => exact Transport.receive_fits fun e => calls (Nat.le_refl _)
  | onReceiveFinished k e => exact ite_fits (fun _ => trivial) fun _ => calls (Nat.le_refl _)
  | gotPdu k =>
      refine ⟨calls (Nat.le_refl _), takes (by simp [need, rank]), either_fits trivial fun x => ?_⟩
      exact ⟨takes (rank_callerMu k x), either_fits trivial fun n => calls (by simp [need])⟩
  | updateXidRep k => exact takes (by simp [need, rank])
  | onSendFinished k x e =>
      have low : need (.onSendFinished k x e) ≤ 3 := by
        rw [need]
        split_ifs <;> decide
      refine ite_fits (fun _ => ⟨takes (Nat.lt_of_le_of_lt low (by simp [rank])),
        either_fits trivial (ite_fits (fun _ => ?_) fun _ => ?_)⟩)
        fun _ => calls (Nat.le_trans low (by simp [need]))
      · refine ite_fits (fun pipe => Transport.connect_fits (fun _ => calls (Nat.le_refl _)) ?_)
          fun _ => sendCaller_fits _ k x
        rw [need, if_pos pipe]
      · exact ⟨takes (Nat.lt_of_le_of_lt low (rank_callerMu k x)),
          calls (Nat.le_trans low (by simp [need]))⟩
  | onTimerExpired k x =>
      have above : 1 < rank T retrans (.callerMu k x) := Nat.lt_trans (by decide) (rank_callerMu k x)
      refine ite_fits (fun _ => ?_) fun plain => ?_
      · exact ⟨takes above, either_fits trivial (sendCaller_fits _ k x)⟩
      · exact ⟨above, either_fits trivial (calls (by simp [need, rank, plain]))⟩
  | callback k e => exact either_fits (calls (Nat.le_refl _)) (calls (Nat.le_refl _))
  | register v => exact takes (by simp [need, rank])
  | start v => exact ⟨calls (Nat.zero_le _), workers_fits _ _⟩
  | stop v => exact ⟨stop_fits _, takes (by simp [need, rank])⟩
  | acceptNewConnection v => exact Transport.accept_fits fun e => calls (Nat.le_refl _)
  | onNewConnection v e =>
      refine ite_fits (fun _ => trivial) fun _ => ⟨takes (by simp [need, rank]), ?_⟩
      exact ⟨calls (Nat.le_refl _), calls (Nat.le_refl _)⟩
  | readIncomingPacket v => exact Transport.receive_fits fun e => calls (Nat.le_refl _)
  | onPacketReceived v e => exact ite_fits (fun _ => trivial) fun _ => calls (Nat.le_refl _)
  | dispatch v =>
      have sent : Fits T retrans 3 (T.send (.server v) fun e => .invoke (.onReplySent v e)) :=
        Transport.send_fits (fun _ _ => calls (Nat.le_refl _)) (calls (by simp [need]))
      refine either_fits sent ⟨takes (by simp [need, rank]), either_fits
        ⟨calls (by simp [need]), sent⟩ ⟨takes (by simp [need, rank]), calls (Nat.le_refl _),
          fun n => ?_⟩⟩
      rcases n with _ | _ | n
      · exact ⟨calls (by simp [need]), calls (Nat.le_refl _), sent⟩
      · exact calls (by simp [need])
      · exact Transport.send_fits (fun _ _ => calls (by simp [need])) (calls (by simp [need]))
  | checkDuplicateAndUpdate v => exact takes (by simp [need, rank])
  | addReply v => exact takes (by simp [need, rank])
  | onReplySent v e => exact ite_fits (fun _ => trivial) fun _ => calls (by simp [need])

def discipline (T : Transport) (retrans : Nat → Bool) : Discipline (body T retrans) where
  rank := rank T retrans
  need := need
  ranked := body_fits

/-- Any number of application threads. -/
def begin (n : Nat) : State Mutex Function Context where
  threads := List.replicate n ⟨[.run (.invoke .user)]⟩

theorem begin_kept (n : Nat) : (discipline T retrans).Kept (begin n) where
  threads t member := by
    rw [List.eq_of_mem_replicate member]
    exact ⟨Nat.zero_le _, trivial⟩
  posted _ member := nomatch member

/-- No thread waits for ever for a mutex, whatever applications call and however callbacks
and handlers call back; code of an application runs under no mutex but that of a caller that
timed out and the mock buffer's. What is posted to a context that has a worker is taken up or
the worker is in a handler, unless the context has stopped; it stops when it is told to or has
no work left. -/
theorem mutexes_never_deadlock (T : Transport) (retrans : Nat → Bool) (n : Nat)
    (st st' : State Mutex Function Context)
    (run : Reachable (program (body T retrans)) anyStep (begin n) st)
    (later : Reachable (program (body T retrans)) anyStep st st') :
    Live (body T retrans) st' ∧
      (∀ t ∈ st'.threads, t.invokes = some .application → ∀ m, t.holds m = true →
        (T = .mock ∧ m = .kBufferMu) ∨ ∃ k x, m = .callerMu k x ∧ retrans k = false) ∧
      ∀ c, (∃ t ∈ st.threads, t.Serves c) → st'.stopped c = false →
        ∀ j code, st'.posted[j]? = some (c, code) →
          ((∃ i, (st'.next (body T retrans) (.take i j)).isSome = true) ∨
            ∃ t ∈ st'.threads, t.busy c = true) ∧
          ∀ a st'', st'.next (body T retrans) a = some st'' → st''.stopped c = true →
            ∃ t ∈ st'.threads, t.stops = some c := by
  have kept : (discipline T retrans).Kept st' :=
    Discipline.reachable_kept (begin_kept n) (run.trans later)
  refine ⟨kept.live, fun t member invokes m holds => ?_,
    fun c worker running j code posted => ⟨?_, fun a st'' moved stopped => ?_⟩⟩
  · have below : rank T retrans m ≤ 4 := kept.invokes_within member invokes holds
    cases m with
    | kBufferMu =>
        refine .inl ⟨?_, rfl⟩
        by_contra asio
        simp [rank, asio] at below
    | callerMu k x =>
        refine .inr ⟨k, x, rfl, ?_⟩
        cases retries : retrans k with
        | false => rfl
        | true => simp [rank, retries] at below
    | _ => simp [rank] at below
  · exact (reachable_served (.inr worker) later).taken_up _ running posted
  · exact stops_asked (w := (c, code)) (List.mem_of_getElem? posted) running moved stopped

/-- Thread `i` comes to the first mutex of `Call`. -/
def comesToCall (i : Nat) : List Action :=
  [0, 1, 0, 0, 5, 0, 1, 0, 0, 0, 0, 0].map (.run i)

theorem bothCall_run : ∃ st, (program (body .mock fun _ => false)).exec (fun _ _ => true)
      (begin 2) (comesToCall 0 ++ comesToCall 1 ++ [.run 0 0]) = some st ∧
    WaitsFor st 1 0 :=
  ⟨_, rfl, _, rfl, _, rfl, _, rfl, rfl⟩

/-- A client connects and makes a worker. -/
def connects : List Action := [0, 1, 0, 0, 0, 0, 0, 0, 1, 0, 0].map (.run 0)

theorem workerWaits_run : ∃ st, (program (body .asio fun _ => true)).exec (fun _ _ => true)
      (begin 1) connects = some st ∧ (∃ t ∈ st.threads, t.Serves (.client 0)) ∧
    st.stopped (.client 0) = false ∧ ∃ code, st.posted[0]? = some (.client 0, code) :=
  ⟨_, rfl, ⟨_, List.mem_of_getElem? (i := 1) rfl, .inl rfl⟩, rfl, _, rfl⟩

theorem mutexes_never_deadlock_called :
    (∃ st : State Mutex Function Context, WaitsFor st 1 0 ∧ Live (body .mock fun _ => false) st) ∧
      ∃ st : State Mutex Function Context, st.posted ≠ [] ∧
        ((∃ i, (st.next (body .asio fun _ => true) (.take i 0)).isSome = true) ∨
          ∃ t ∈ st.threads, t.busy (.client 0) = true) := by
  obtain ⟨st, ran, waits⟩ := bothCall_run
  refine ⟨⟨st, waits, (mutexes_never_deadlock .mock (fun _ => false) 2 st st
    (System.exec_reachable ran).any .init).1⟩, ?_⟩
  obtain ⟨st, ran, worker, running, code, posted⟩ := workerWaits_run
  refine ⟨st, fun none => by simp [none] at posted, ?_⟩
  exact ((mutexes_never_deadlock .asio (fun _ => true) 1 st st (System.exec_reachable ran).any
    .init).2.2 _ worker running 0 code posted).1

end AsyncRpc.Mutexes
