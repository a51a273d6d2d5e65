import AsyncRpc.Foundation.Transition
import AsyncRpc.Rpc
import Mathlib.Algebra.Order.BigOperators.Group.List
import Mathlib.Algebra.Order.Group.Nat

/-! `AsyncSocket` over a TCP stream: messages handed to `Send` one after another at
one end, buffers handed to `Dispatch` or `GotPdu` at the other. -/
namespace AsyncRpc.Transport
open Transition

/-- What TCP decides: how much of the buffer `async_send` takes, and how many bytes
`async_read_some` returns. -/
inductive StreamStep where
  | accepts (n : Nat)
  | returns (n : Nat)

/-- One direction of a connection. -/
structure Connection where
  sending : List (List UInt8)
  unread : List UInt8 := []
  handed : List (List UInt8) := []

/-- `std::string(DEFAULT_RPC_SZ, ' ')`. -/
def receiveBuffer : List UInt8 := List.replicate DEFAULT_RPC_SZ 32

/-- `async_read_some` overwrites the first `n` bytes, and `OnReceiveFinished` cuts the
string to them. -/
def onReceiveFinished (arrived data : List UInt8) (n : Nat) : List UInt8 :=
  (arrived.take n ++ data.drop n).take n

/-- The completion of a `Send` reports `n`, and `OnSendFinished` does not look at it:
what the stream did not take is not sent again. -/
def next (c : Connection) : StreamStep → Option Connection
  | .accepts n =>
      match c.sending with
      | [] => none
      | m :: rest =>
          if 0 < n ∧ n ≤ m.length then
            some { c with sending := rest, unread := c.unread ++ m.take n }
          else none
  | .returns n =>
      if 0 < n ∧ n ≤ DEFAULT_RPC_SZ ∧ n ≤ c.unread.length then
        some { c with
          unread := c.unread.drop n
          handed := c.handed ++ [onReceiveFinished c.unread receiveBuffer n] }
      else none

def stream : System Connection StreamStep where
  next := next

/-- The lengths `async_send` reported. -/
def acceptedLengths : List StreamStep → List Nat
  | [] => []
  | .accepts n :: rest => n :: acceptedLengths rest
  | .returns _ :: rest => acceptedLengths rest

/-- The lengths `async_read_some` reported. -/
def returnedLengths : List StreamStep → List Nat
  | [] => []
  | .accepts _ :: rest => returnedLengths rest
  | .returns n :: rest => n :: returnedLengths rest

theorem onReceiveFinished_eq {arrived : List UInt8} {n : Nat} (data : List UInt8)
    (enough : n ≤ arrived.length) : onReceiveFinished arrived data n = arrived.take n := by
  rw [onReceiveFinished, List.take_append_of_le_length (by simp [enough]), List.take_take, min_self]

/-- From `c` the stream took `taken`, a nonempty prefix of each of the messages `sent`,
and the peer was handed `pieces`. -/
structure Ran (c c' : Connection) (accepted returned : List Nat) (sent pieces : List (List UInt8)) :
    Prop where
  sending : c.sending = sent ++ c'.sending
  handed : c'.handed = c.handed ++ pieces
  accepts : List.Forall₂ (fun n m => n ≤ m.length) accepted sent
  returns : pieces.map List.length = returned
  fits : ∀ n ∈ returned, n ≤ DEFAULT_RPC_SZ
  bytes : c.unread ++ (List.zipWith List.take accepted sent).flatten = pieces.flatten ++ c'.unread

theorem exec_ran {c c' : Connection} {acts : List StreamStep}
    (ran : stream.exec (fun _ _ => true) c acts = some c') :
    ∃ sent pieces, Ran c c' (acceptedLengths acts) (returnedLengths acts) sent pieces := by
  induction acts generalizing c with
  | nil =>
      cases ran
      exact ⟨[], [], by simp, by simp, .nil, rfl, by simp [returnedLengths], by simp⟩
  | cons a rest ih =>
      simp only [System.exec, if_true] at ran
      obtain ⟨d, moved, tail⟩ := Option.bind_eq_some_iff.mp ran
      obtain ⟨sent, pieces, later⟩ := ih tail
      cases a with
      | accepts n =>
          simp only [stream, next] at moved
          split at moved
          · cases moved
          · rename_i m waiting queue
            split_ifs at moved with some
            cases moved
            refine ⟨m :: sent, pieces, ?_, later.handed, .cons some.2 later.accepts, later.returns,
              later.fits, ?_⟩
            · rw [queue, List.cons_append, ← later.sending]
            · rw [← later.bytes]
              simp [acceptedLengths, List.append_assoc]
      | returns n =>
          simp only [stream, next] at moved
          split_ifs at moved with some
          obtain ⟨_, room, enough⟩ := some
          cases moved
          refine ⟨sent, c.unread.take n :: pieces, later.sending, ?_, later.accepts, ?_, ?_, ?_⟩
          · rw [later.handed, onReceiveFinished_eq _ enough]
            simp
          · simp [returnedLengths, later.returns, enough]
          · intro k member
            rcases List.mem_cons.mp member with rfl | old
            · exact room
            · exact later.fits k old
          · rw [List.flatten_cons, List.append_assoc, ← later.bytes, ← List.append_assoc,
              List.take_append_drop]
            rfl

theorem taken_lengths {accepted : List Nat} {sent : List (List UInt8)}
    (prefixes : List.Forall₂ (fun n m => n ≤ m.length) accepted sent) :
    (List.zipWith List.take accepted sent).map List.length = accepted := by
  induction prefixes with
  | nil => rfl
  | cons bound _ ih => simp [ih, bound]

theorem accepted_le {accepted : List Nat} {sent : List (List UInt8)}
    (prefixes : List.Forall₂ (fun n m => n ≤ m.length) accepted sent) :
    accepted.sum ≤ (sent.map List.length).sum := by
  induction prefixes with
  | nil => exact Nat.le_refl _
  | cons bound _ ih =>
      simp only [List.map_cons, List.sum_cons]
      exact Nat.add_le_add bound ih

/-- Prefixes that are as long together as the messages are the messages. -/
theorem accepted_whole {accepted : List Nat} {sent : List (List UInt8)}
    (prefixes : List.Forall₂ (fun n m => n ≤ m.length) accepted sent)
    (total : (sent.map List.length).sum ≤ accepted.sum) : accepted = sent.map List.length := by
  induction prefixes with
  | nil => rfl
  | @cons n m accepted sent bound prefixes ih =>
      have rest := accepted_le prefixes
      simp only [List.map_cons, List.sum_cons] at total ⊢
      rw [ih (by omega)]
      congr 1
      omega

theorem take_whole (sent : List (List UInt8)) :
    List.zipWith List.take (sent.map List.length) sent = sent := by
  induction sent with
  | nil => rfl
  | cons m sent ih => simp [ih]

/-- Once everything is sent and read, the peer was handed exactly the messages if and
only if the stream took each of them whole and returned them one by one. -/
theorem boundaries_kept_iff (messages : List (List UInt8)) (acts : List StreamStep)
    (c : Connection) (ran : stream.exec (fun _ _ => true) { sending := messages } acts = some c)
    (sent : c.sending = []) (read : c.unread = []) :
    c.handed = messages ↔ acceptedLengths acts = messages.map List.length ∧
      returnedLengths acts = messages.map List.length := by
  obtain ⟨taken, pieces, run⟩ := exec_ran ran
  have all : messages = taken := by simpa [sent] using run.sending
  have handed : c.handed = pieces := by simpa using run.handed
  have bytes : (List.zipWith List.take (acceptedLengths acts) taken).flatten = pieces.flatten := by
    simpa [read] using run.bytes
  subst all
  rw [handed]
  constructor
  · intro same
    have total : (messages.map List.length).sum ≤ (acceptedLengths acts).sum := by
      have lengths := congrArg List.length bytes
      rw [List.length_flatten, List.length_flatten, taken_lengths run.accepts, same] at lengths
      exact Nat.le_of_eq lengths.symm
    exact ⟨accepted_whole run.accepts total, run.returns ▸ congrArg (List.map List.length) same⟩
  · rintro ⟨whole, one_by_one⟩
    rw [whole, take_whole] at bytes
    exact List.eq_iff_flatten_eq.mpr ⟨bytes.symm, run.returns.trans one_by_one⟩

/-- The marshalled replies of two calls. -/
def twoReplies : List (List UInt8) :=
  ["\x7b\"0\":1,\"rep\":\x7b\"err\":1,\"xid\":3\x7d\x7d".toList.map fun b => .ofNat b.toNat,
    "\x7b\"0\":2,\"rep\":\x7b\"err\":1,\"xid\":4\x7d\x7d".toList.map fun b => .ofNat b.toNat]

/-- The first is read before the second is sent. -/
def apart : List StreamStep := [.accepts 31, .returns 31, .accepts 31, .returns 31]

theorem apart_run : ∃ c, stream.exec (fun _ _ => true) { sending := twoReplies } apart = some c ∧
    c.sending = [] ∧ c.unread = [] :=
  ⟨_, rfl, rfl, rfl⟩

theorem boundaries_kept_iff_apart :
    ∃ c, stream.exec (fun _ _ => true) { sending := twoReplies } apart = some c ∧
      (c.handed = twoReplies ↔ acceptedLengths apart = twoReplies.map List.length ∧
        returnedLengths apart = twoReplies.map List.length) := by
  obtain ⟨c, ran, sent, read⟩ := apart_run
  exact ⟨c, ran, boundaries_kept_iff twoReplies apart c ran sent read⟩

/-- Both are sent before the peer reads, and one read returns them. -/
def together : List StreamStep := [.accepts 31, .accepts 31, .returns 62]

theorem together_run :
    ∃ c, stream.exec (fun _ _ => true) { sending := twoReplies } together = some c ∧
      c.sending = [] ∧ c.unread = [] ∧ c.handed.length = 1 :=
  ⟨_, rfl, rfl, rfl, rfl⟩

theorem boundaries_lost_together : ¬ ∀ (messages : List (List UInt8)) (acts : List StreamStep)
    (c : Connection), stream.exec (fun _ _ => true) { sending := messages } acts = some c →
      c.sending = [] → c.unread = [] → c.handed = messages := by
  intro kept
  obtain ⟨c, ran, sent, read, one⟩ := together_run
  rw [kept twoReplies together c ran sent read] at one
  cases one

/-- A message of more than `DEFAULT_RPC_SZ` bytes never arrives whole. -/
theorem long_message_split (messages : List (List UInt8)) (acts : List StreamStep)
    (c : Connection) (ran : stream.exec (fun _ _ => true) { sending := messages } acts = some c)
    {m : List UInt8} (long : DEFAULT_RPC_SZ < m.length) : m ∉ c.handed := by
  obtain ⟨_, pieces, run⟩ := exec_ran ran
  have handed : c.handed = pieces := by simpa using run.handed
  intro member
  have short : m.length ≤ DEFAULT_RPC_SZ :=
    run.fits _ (run.returns ▸ List.mem_map_of_mem (handed ▸ member))
  omega

end AsyncRpc.Transport
