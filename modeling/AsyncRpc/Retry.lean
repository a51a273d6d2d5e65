import AsyncRpc.ExactlyOnce

/-! What keeps a call of a retransmitting client going: first its deadline timer, which
is armed once, and after that nothing but the packets and activities it has left. -/
namespace AsyncRpc
open Interleaving Transition

variable {S : Services}

/-- The xid that `Dispatch` reads from a buffer. -/
def requestXid (buf : S.Buf) : Option Nat :=
  ((Unmarshall.ofBuf S.toCodec buf).bind Unmarshall.getRequest).toOption.map RequestHeader.xid

theorem requestXid_reads {buf : S.Buf} {h : RequestHeader} {req : Unmarshall}
    (reads : RpcServer.Reads buf h req) : requestXid buf = some h.xid := by
  simp [requestXid, reads.1, Except.bind, reads.2, Except.toOption]

theorem replyXid_execution {ex : Execution S} {buf : S.Buf} (bytes : ex.buf = .ok buf) :
    RpcClient.replyXid buf = some ex.xid :=
  RpcClient.replyXid_reads (RpcClient.readReply_replyDoc bytes)

namespace RpcClient

variable {R : S.Buf → Prop} {c c' : RpcClient S}

theorem RequestOf.xid {buf : S.Buf} {x : Nat} (request : RequestOf c x buf) (known : Known R c) :
    requestXid buf = some x := by
  obtain ⟨h, args, header, issued, written⟩ := request
  rw [requestXid_reads ⟨ofBuf_buf written, requestDoc_getRequest h args⟩,
    (known.headers x h header).xid]

def timerOf (c : RpcClient S) (x : Nat) : Option Deadline := (c.heap x).map Caller.timer

/-- The `Call` that is going to arm the timer. -/
def calling (x : Nat) : ClientTask S → Prop
  | .callWindow y _ _ | .callSend y _ _ _ | .callWait y => y = x
  | _ => False

/-- An activity that sends the request of `x` or has a reply to it. -/
def retrying (x : Nat) : ClientTask S → Prop
  | .callWindow y _ _ | .callSend y _ _ _ | .callWait y | .onTimerExpired y | .resend y
  | .send y _ false | .sendFailed y _ | .reconnect y => y = x
  | .gotPdu buf => replyXid buf = some x
  | .claim h _ => h.xid = x
  | _ => False

theorem calling.retries {x : Nat} {t : ClientTask S} (h : calling x t) : retrying x t := by
  cases t with
  | callWindow | callSend | callWait => exact h
  | _ => exact h.elim

theorem timerOf_store (c : RpcClient S) (x y : Nat) (caller : Caller S) :
    timerOf (c.store x (some caller)) y = if y = x then some caller.timer else timerOf c y := by
  by_cases same : y = x
  · subst same
    simp [timerOf, store]
  · simp [timerOf, store, same]

theorem timerOf_live {x : Nat} {caller : Caller S} (live : c.heap x = some caller) :
    timerOf c x = some caller.timer := by
  simp [timerOf, live]

theorem timerOf_kept {x y : Nat} {old new : Caller S} {d : Deadline}
    (here : timerOf (c.store x (some new)) y = some d) (live : c.heap x = some old)
    (same : new.timer = old.timer) : timerOf c y = some d := by
  rw [timerOf_store] at here
  split_ifs at here with at_x
  · rw [at_x, timerOf_live live, ← same, here]
  · exact here

theorem timerOf_destroy {x y : Nat} {d : Deadline} (h : timerOf (c.store x none) y = some d) :
    timerOf c y = some d := by
  by_cases same : y = x
  · subst same
    simp [timerOf, store] at h
  · simpa [timerOf, store, same] using h

/-- A section leaves a timer as it is, or it is the end of `Call` and arms it. -/
theorem acted_timer {t : ClientTask S} {l : ClientLabel S} {ts : List (ClientTask S)}
    {os : List S.Buf} (step : Acted c t l c' ts os) (pos : 0 < c.cltNonce) (once : t ≠ .rebind)
    {x : Nat} {d : Deadline} (here : timerOf c' x = some d) :
    timerOf c x = some d ∨ (t = .callWait x ∧ d = .armed) := by
  cases step with
  | callSend live => exact .inl (timerOf_kept here live rfl)
  | @callWait y caller live =>
      rw [timerOf_store] at here
      split_ifs at here with same
      · cases here
        exact .inr ⟨same ▸ rfl, rfl⟩
      · exact .inl here
  | timedOut _ _ zero => exact absurd zero.symm (UInt32.ne_of_lt pos)
  | sendGaveUp _ zero => exact absurd zero.symm (UInt32.ne_of_lt pos)
  | claimed live => exact .inl (timerOf_kept here live rfl)
  | deliverThrew => exact .inl (timerOf_destroy here)
  | @delivered h u caller v live value =>
      rw [bindCallback_eq] at here
      exact .inl here
  | finish => exact .inl (timerOf_destroy here)
  | rebind => exact absurd rfl once
  | _ => exact .inl here

theorem acted_callers {t : ClientTask S} {l : ClientLabel S} {ts : List (ClientTask S)}
    {os : List S.Buf} (step : Acted c t l c' ts os) (once : t ≠ .rebind) :
    c'.callers ⊆ c.callers := by
  cases step with
  | claim => exact Finset.erase_subset _ _
  | @delivered h u caller v live value =>
      rw [bindCallback_eq]
      exact fun _ member => member
  | rebind => exact absurd rfl once
  | _ => exact fun _ member => member

/-- An exception out of `Buf` leaves the `Call` of `x`, after its caller was registered. -/
def callThrows (c : RpcClient S) (x : Nat) : ClientTask S → ClientLabel S → Bool
  | .callSend y p req xidRep, .go =>
      y = x ∧ ((req.putRequest (c.header y p xidRep)).buf S.toCodec).isOk = false
  | _, _ => false

/-- A `Call` that is not left by an exception goes on until its timer is armed. -/
theorem acted_calling {t : ClientTask S} {l : ClientLabel S} {ts : List (ClientTask S)}
    {os : List S.Buf} (step : Acted c t l c' ts os) {x : Nat} (calls : calling x t)
    (written : c.callThrows x t l = false) :
    (∃ u ∈ ts, calling x u) ∨ timerOf c' x = some .armed := by
  cases step with
  | callWindow => exact .inl ⟨_, List.mem_singleton_self _, calls⟩
  | callSend => exact .inl ⟨.callWait _, by simp, calls⟩
  | callThrew live threw =>
      cases calls
      simp [callThrows, threw, Except.isOk, Except.toBool] at written
  | callWait live =>
      cases calls
      exact .inr (by rw [timerOf_store, if_pos rfl])
  | _ => exact calls.elim

/-- An activity for a pending call leaves another one, arms the timer or sends the
request, unless it is a `Call` left by an exception or a reconnection that fails. -/
theorem acted_retrying {t : ClientTask S} {l : ClientLabel S} {ts : List (ClientTask S)}
    {os : List S.Buf} (step : Acted c t l c' ts os) (known : Known R c) (task : TaskKnown R c t)
    (pos : 0 < c.cltNonce) {x : Nat} (pending : x ∈ c'.callers) (retries : retrying x t)
    (written : c.callThrows x t l = false)
    (connects : ∀ e, t = .reconnect x → l = .connected e → e = .ok) :
    (∃ u ∈ ts, retrying x u) ∨ timerOf c' x = some .armed ∨
      ∃ buf ∈ os, requestXid buf = some x := by
  have undone : ∀ {caller}, c.heap x = some caller → caller.done = true → x ∈ c.callers → False := by
    intro caller live done member
    obtain ⟨caller', live', undone⟩ := known.pending x member
    cases live.symm.trans live'
    rw [done] at undone
    cases undone pos
  cases step with
  | callWindow | timerRetry | sendRetry | sendReconnect | reconnected | resend =>
      exact .inl ⟨_, List.mem_singleton_self _, retries⟩
  | callSend => exact .inl ⟨.callWait _, by simp, retries⟩
  | callThrew live threw =>
      cases retries
      simp [callThrows, threw, Except.isOk, Except.toBool] at written
  | callWait live =>
      cases retries
      exact .inr (.inl (by rw [timerOf_store, if_pos rfl]))
  | timerDone live done =>
      cases retries
      exact (undone live done pending).elim
  | timedOut _ _ zero | sendGaveUp _ zero => exact absurd zero.symm (UInt32.ne_of_lt pos)
  | transmitted =>
      cases retries
      exact .inr (.inr ⟨_, List.mem_singleton_self _, task.xid known⟩)
  | @sendFailed y buf transmitted e _ member =>
      cases transmitted with
      | false => exact .inl ⟨_, List.mem_singleton_self _, retries⟩
      | true => exact retries.elim
  | @sendFailedGone y buf transmitted e _ gone =>
      cases transmitted with
      | false =>
          cases retries
          exact absurd pending gone
      | true => exact retries.elim
  | reconnectFailed failed =>
      cases retries
      exact absurd (connects _ rfl rfl) failed
  | gotPduThrew threw => simp [retrying, replyXid, threw, Except.toOption] at retries
  | gotPdu reads =>
      have same : _ = some x := retries
      rw [replyXid_reads reads] at same
      exact .inl ⟨_, List.mem_singleton_self _, Option.some.inj same⟩
  | claim =>
      cases retries
      exact absurd pending (Finset.notMem_erase _ _)
  | claimGone gone =>
      cases retries
      exact absurd pending gone
  | _ => exact retries.elim

/-- What comes in from the application, or the expiry of a timer. -/
theorem spawned_timer {e : ClientEvent S} {ts : List (ClientTask S)} (step : Spawned c e c' ts)
    {x : Nat} (pending : x ∈ c'.callers) : (x ∈ c.callers ∧ timerOf c' x = timerOf c x) ∨
      ∃ t ∈ ts, (timerOf c' x = some .idle ∧ calling x t ∧ x = c.xid) ∨
        (timerOf c' x = some .expired ∧ retrying x t ∧ x ∈ c.callers) := by
  have called : ∀ (c : RpcClient S) p args cb, x ∈ (c.call p args cb).1.callers →
      (x ∈ c.callers ∧ timerOf (c.call p args cb).1 x = timerOf c x) ∨
      ∃ t ∈ (c.call p args cb).2, timerOf (c.call p args cb).1 x = some .idle ∧ calling x t ∧
        x = c.xid := by
    intro c p args cb
    rcases call_cases c p args cb with ⟨same, _⟩ | ⟨same, _⟩ <;> rw [same]
    · exact fun member => .inl ⟨member, rfl⟩
    · intro member
      by_cases new : x = c.xid
      · subst new
        refine .inr ⟨_, List.mem_singleton_self _, ?_, rfl, rfl⟩
        exact (timerOf_store c _ _ _).trans (if_pos rfl)
      · exact .inl ⟨(Finset.mem_insert.mp member).resolve_left new,
          (timerOf_store c _ _ _).trans (if_neg new)⟩
  cases step with
  | call => exact (called c _ _ _ pending).imp id (.imp fun t => .imp id .inl)
  | bind => exact (called c.countBind _ _ _ pending).imp id (.imp fun t => .imp id .inl)
  | @expire y caller live armed =>
      by_cases same : x = y
      · subst same
        refine .inr ⟨_, List.mem_singleton_self _, .inr ⟨?_, rfl, pending⟩⟩
        rw [timerOf_store, if_pos rfl]
      · exact .inl ⟨pending, by rw [timerOf_store, if_neg same]⟩

end RpcClient

namespace Network

variable {κ ι : Type} {N : Nonces κ ι} {net net' : Network S κ ι}

/-- An activity of an instance that has the request of call `x` of client `k`, or a reply
to it that has not left. -/
def answering (k : κ) (x : Nat) : ServerTask S (κ × Nat) → Prop
  | .dispatch s buf => s.1 = k ∧ requestXid buf = some x
  | .newWindow s h _ | .check s h _ | .invoke s h _ | .running s h _ | .record s h _ =>
      s.1 = k ∧ h.xid = x
  | .remembered s _ y => s.1 = k ∧ y = x
  | .send s _ buf false => s.1 = k ∧ RpcClient.replyXid buf = some x
  | _ => False

/-- The activity whose reply an INPROGRESS verdict waits for. -/
def executing (k : κ) (x : Nat) : ServerTask S (κ × Nat) → Prop
  | .invoke s h _ | .running s h _ | .record s h _ => s.1 = k ∧ h.xid = x
  | _ => False

theorem executing.answers {k : κ} {x : Nat} {t : ServerTask S (κ × Nat)} (h : executing k x t) :
    answering k x t := by
  cases t with
  | invoke | running | record => exact h
  | _ => exact h.elim

/-- The branches of an instance in which a reply to `x` never leaves: an exception out of
`Dispatch`, or a `Send` that completes without a transmission. -/
def drops [DecidableEq κ] (k : κ) (x : Nat) (sv : RpcServer S (κ × Nat)) :
    ServerTask S (κ × Nat) → ServerLabel S (κ × Nat) → Bool
  | .dispatch s buf, .go => s.1 = k ∧ requestXid buf = some x ∧ (sv.dispatch s buf).isOk = false
  | .record s h rep, .go => s.1 = k ∧ h.xid = x ∧
      ((rep.buf S.toCodec).bind (sv.filter.addReply h.cltNonce h.xid)).isOk = false
  | .send s _ buf false, .sent _ => s.1 = k ∧ RpcClient.replyXid buf = some x
  | _, _ => false

/-- An exception that leaves the entry of `x` without a reply: from the arguments of the
call, from its handler, or from `Buf` of its result. -/
def throws [DecidableEq κ] (k : κ) (x : Nat) :
    ServerTask S (κ × Nat) → ServerLabel S (κ × Nat) → Bool
  | .invoke s h req, .go => s.1 = k ∧ h.xid = x ∧ (req.get (S.args h.proc)).1.isOk = false
  | .running s h _, .raises => s.1 = k ∧ h.xid = x
  | .record s h rep, .go => s.1 = k ∧ h.xid = x ∧ (rep.buf S.toCodec).isOk = false
  | _, _ => false

/-- The request read by an activity is one of client `s.1`, with its arguments. -/
theorem Traced.asked_nonce (traced : Traced N net) {s : κ × Nat} {h : RequestHeader}
    {req : Unmarshall} (asked : RpcServer.Asked net.arriving s h req) : h.cltNonce = N.client s.1 :=
  (traced.asked asked).2.1

theorem onVerdict_answering {k : κ} {x : Nat} {s : κ × Nat} {h : RequestHeader} {req : Unmarshall}
    (here : s.1 = k ∧ h.xid = x) {verdict : State} (heard : verdict ≠ .inprogress) :
    answering k x (RpcServer.onVerdict (S := S) s h req verdict) := by
  cases verdict with
  | new => exact here
  | inprogress => exact absurd rfl heard
  | done => exact here
  | forgotten =>
      exact ⟨here.1, (RpcClient.replyXid_reads (RpcClient.readReply_errorDoc S _)).trans
        (congrArg some here.2)⟩

variable [DecidableEq κ]

/-- An activity for a request leaves another one or sends the reply, unless it is in a
branch that drops it or finds another worker at the same request. -/
theorem Traced.acted_answering (traced : Traced N net) {v : ι} {sv' : RpcServer S (κ × Nat)}
    {t : ServerTask S (κ × Nat)} {l : ServerLabel S (κ × Nat)} {ts : List (ServerTask S (κ × Nat))}
    {os : List ((κ × Nat) × S.Buf)}
    (step : RpcServer.Acted (net.server v).shared t l sv' ts os) (member : t ∈ (net.server v).pool)
    {k : κ} {x : Nat} (answers : answering k x t)
    (heard : drops k x (net.server v).shared t l = false) (quiet : throws k x t l = false) :
    (∃ u ∈ ts, answering k x u) ∨ (∃ o ∈ os, o.1.1 = k ∧ RpcClient.replyXid o.2 = some x) ∨
      ∃ r ∈ (net.server v).shared.filter.window (N.client k), r.xid = x ∧ r.cbPresent = false ∧
        ¬ executing k x t := by
  have task := (traced.server v).task t member
  have known := (traced.server v).shared
  cases step with
  | @dispatched s buf t ok =>
      obtain ⟨rfl, same⟩ := answers
      refine .inl ⟨t, List.mem_singleton_self t, ?_⟩
      cases RpcServer.dispatched ok with
      | oldServer reads =>
          refine ⟨rfl, ?_⟩
          rw [RpcClient.replyXid_reads (RpcClient.readReply_errorDoc S _), ← same, requestXid_reads reads]
      | filtered reads | plain reads =>
          exact ⟨rfl, Option.some.inj ((requestXid_reads reads).symm.trans same)⟩
  | @dispatchThrew s buf e threw =>
      simp [drops, answers.1, answers.2, threw, Except.isOk, Except.toBool] at heard
  | newWindow => exact .inl ⟨_, List.mem_singleton_self _, answers⟩
  | @check s h req =>
      by_cases silent : ((net.server v).shared.filter.checkDuplicateAndUpdate S.empty h.cltNonce h.xid
          h.xidRep).1 = .inprogress
      · obtain ⟨r, entry, same, absent⟩ := DupFilter.check_inprogress_entry _ _ _ _ _ silent
        rw [traced.asked_nonce task.1, answers.1] at entry
        exact .inr (.inr ⟨r, entry, same.trans answers.2, absent, id⟩)
      · exact .inl ⟨_, List.mem_singleton_self _, onVerdict_answering answers silent⟩
  | invoked => exact .inl ⟨_, List.mem_singleton_self _, answers⟩
  | invokeThrew threw => simp [throws, answers.1, answers.2, threw, Except.isOk, Except.toBool] at quiet
  | recording => exact .inl ⟨_, List.mem_singleton_self _, answers⟩
  | answered _ _ written =>
      refine .inl ⟨_, List.mem_singleton_self _, answers.1, ?_⟩
      rw [RpcClient.replyXid_reads (RpcClient.readReply_replyDoc written), answers.2]
  | answerThrew _ zero =>
      obtain ⟨req, asked, _⟩ := task
      rw [traced.asked_nonce asked] at zero
      exact absurd zero.symm (UInt32.ne_of_lt (N.client_pos _))
  | raised => simp [throws, answers.1, answers.2] at quiet
  | recorded _ written =>
      obtain ⟨_, ex, _, _, same, _, bytes⟩ := task
      refine .inl ⟨_, List.mem_singleton_self _, answers.1, ?_⟩
      rw [replyXid_execution (bytes.symm.trans written), same, answers.2]
  | recordThrew threw written =>
      obtain ⟨rfl, rfl⟩ := answers
      simp [drops, written, Except.bind, threw, Except.isOk, Except.toBool] at heard
  | bufThrew threw => simp [throws, answers.1, answers.2, threw, Except.isOk, Except.toBool] at quiet
  | remembered entry same =>
      obtain ⟨_, _, _, present⟩ := task
      obtain ⟨ex, _, _, xid, bytes⟩ := known.entries _ _ entry (present _ entry same)
      refine .inl ⟨_, List.mem_singleton_self _, answers.1, ?_⟩
      rw [replyXid_execution bytes, xid, same, answers.2]
  | transmitted => exact .inr (.inl ⟨_, List.mem_singleton_self _, answers⟩)
  | @sent s o buf transmitted e _ =>
      cases transmitted with
      | false => simp [drops, answers.1, answers.2] at heard
      | true => exact answers.elim
  | _ => exact answers.elim

/-- An entry without a reply is old, or the handler is about to run for it. -/
theorem acted_entry {sv sv' : RpcServer S (κ × Nat)} {t : ServerTask S (κ × Nat)}
    {l : ServerLabel S (κ × Nat)} {ts : List (ServerTask S (κ × Nat))}
    {os : List ((κ × Nat) × S.Buf)} (step : RpcServer.Acted sv t l sv' ts os) {n : UInt32}
    {r : ReplyT S.Buf} (member : r ∈ sv'.filter.window n) (absent : r.cbPresent = false) :
    r ∈ sv.filter.window n ∨
      ∃ s h req, t = .check s h req ∧ h.cltNonce = n ∧ h.xid = r.xid ∧ ts = [.invoke s h req] := by
  cases step with
  | newWindow =>
      rw [DupFilter.createWindow_window] at member
      exact .inl member
  | @check s h req =>
      rcases DupFilter.check_mem _ _ _ _ _ member with old | ⟨same, new, rfl⟩
      · exact .inl old
      · exact .inr ⟨s, h, req, rfl, same.symm, rfl, by rw [new]; rfl⟩
  | recorded ok =>
      rcases DupFilter.addReply_mem ok member with old | ⟨_, _, present, _⟩
      · exact .inl old
      · rw [absent] at present
        cases present
  | _ => exact .inl member

/-- The worker at a request goes on until its reply is in the entry, unless an exception
stops it before. -/
theorem Traced.acted_executing (traced : Traced N net) {v : ι} {sv' : RpcServer S (κ × Nat)}
    {t : ServerTask S (κ × Nat)} {l : ServerLabel S (κ × Nat)} {ts : List (ServerTask S (κ × Nat))}
    {os : List ((κ × Nat) × S.Buf)}
    (step : RpcServer.Acted (net.server v).shared t l sv' ts os) (member : t ∈ (net.server v).pool)
    {k : κ} {x : Nat} (executes : executing k x t) (quiet : throws k x t l = false) :
    (∃ u ∈ ts, executing k x u) ∨
      ∀ r ∈ sv'.filter.window (N.client k), r.xid = x → r.cbPresent = true := by
  have task := (traced.server v).task t member
  cases step with
  | invoked => exact .inl ⟨_, List.mem_singleton_self _, executes⟩
  | invokeThrew threw =>
      simp [throws, executes.1, executes.2, threw, Except.isOk, Except.toBool] at quiet
  | recording => exact .inl ⟨_, List.mem_singleton_self _, executes⟩
  | answered _ zero | answerThrew _ zero =>
      obtain ⟨req, asked, _⟩ := task
      rw [traced.asked_nonce asked] at zero
      exact absurd zero.symm (UInt32.ne_of_lt (N.client_pos _))
  | raised => simp [throws, executes.1, executes.2] at quiet
  | bufThrew threw =>
      simp [throws, executes.1, executes.2, threw, Except.isOk, Except.toBool] at quiet
  | @recorded s h rep buf f ok =>
      obtain ⟨⟨⟨req, asked⟩, _⟩, _⟩ := task
      obtain ⟨rfl, rfl⟩ := executes
      right
      intro r entry same
      rw [← traced.asked_nonce asked] at entry
      exact (DupFilter.addReply_filled ok (traced.server v).shared.sorted entry same).1
  | @recordThrew s h rep buf e threw =>
      obtain ⟨⟨⟨req, asked⟩, _⟩, _⟩ := task
      obtain ⟨rfl, rfl⟩ := executes
      right
      intro r entry same
      rw [← traced.asked_nonce asked] at entry
      exact absurd same (DupFilter.addReply_absent threw r entry)
  | _ => exact executes.elim

/-- Something that was left of call `x` of client `k` when its timer had expired. -/
inductive Carried (net : Network S κ ι) (k : κ) (x : Nat) : Prop
  | client {t} (member : t ∈ (net.client k).pool) (retries : RpcClient.retrying x t)
  | request {buf} (member : (k, buf) ∈ net.requests) (same : requestXid buf = some x)
  | server {v t} (member : t ∈ (net.server v).pool) (answers : answering k x t)
  | reply {buf} (member : (k, buf) ∈ net.replies) (same : RpcClient.replyXid buf = some x)

/-- A reconnection for `x` that fails. -/
def failsToReconnect (x : Nat) : ClientTask S → ClientLabel S → Bool
  | .reconnect y, .connected e => y = x ∧ e ≠ .ok
  | _, _ => false

variable [DecidableEq ι]

/-- A step that silently loses a packet of call `x` of client `k`, or its connection. -/
def loses (net : Network S κ ι) (k : κ) (x : Nat) : NetworkAction S κ ι → Bool
  | .loseRequest j => net.requests[j]?.any fun p => p.1 = k ∧ requestXid p.2 = some x
  | .loseReply j => net.replies[j]?.any fun p => p.1 = k ∧ RpcClient.replyXid p.2 = some x
  | .server v m => m.runs (drops k x (net.server v).shared) (net.server v).pool
  | .client k' m => k' = k ∧ m.runs (failsToReconnect x) (net.client k).pool = true
  | _ => false

/-- An exception puts an end to call `x` of client `k`: in `Call` before its `Send`, or at
an instance between the NEW verdict and the reply. -/
def abandons (net : Network S κ ι) (k : κ) (x : Nat) : NetworkAction S κ ι → Bool
  | .server v m => m.runs (throws k x) (net.server v).pool
  | .client k' m =>
      k' = k ∧ m.runs ((net.client k).shared.callThrows x) (net.client k).pool = true
  | _ => false

/-- Of a pending call of client `k` nothing is lost once its timer has expired, and no
exception puts an end to it. -/
def LostInTime (k : κ) (net : Network S κ ι) (a : NetworkAction S κ ι) : Prop :=
  ∀ x ∈ (net.client k).shared.callers, net.abandons k x a = false ∧
    ((net.client k).shared.timerOf x = some .expired → net.loses k x a = false)

instance (k : κ) (net : Network S κ ι) (a : NetworkAction S κ ι) :
    Decidable (LostInTime k net a) :=
  inferInstanceAs (Decidable (∀ x ∈ (net.client k).shared.callers, net.abandons k x a = false ∧
    ((net.client k).shared.timerOf x = some .expired → net.loses k x a = false)))

structure Pursued (N : Nonces κ ι) (net : Network S κ ι) (k : κ) : Prop where
  called : ∀ x ∈ (net.client k).shared.callers, (net.client k).shared.timerOf x = some .idle →
    ∃ t ∈ (net.client k).pool, RpcClient.calling x t
  carried : ∀ x ∈ (net.client k).shared.callers, (net.client k).shared.timerOf x = some .expired →
    Carried net k x
  executed : ∀ x ∈ (net.client k).shared.callers, ∀ v,
    ∀ r ∈ (net.server v).shared.filter.window (N.client k), r.xid = x → r.cbPresent = false →
      ∃ t ∈ (net.server v).pool, executing k x t

omit [DecidableEq ι] in
/-- No `Call` of a pending xid is left by an exception in such a step. -/
theorem LostInTime.written {a : NetworkAction S κ ι} {k : κ} (guard : LostInTime k net a)
    {m : Move (ClientLabel S) (ClientEvent S)} (cause : a = .client k m ∨
      ∃ i j buf, a = .reply k i j ∧ m = .act i (.received buf .ok))
    {i : Nat} {t : ClientTask S} {l : ClientLabel S} (label : m = .act i l)
    (taken : (net.client k).pool[i]? = some t) {x : Nat}
    (pending : x ∈ (net.client k).shared.callers) :
    (net.client k).shared.callThrows x t l = false := by
  subst label
  rcases cause with rfl | ⟨_, _, _, _, other⟩
  · have quiet := (guard x pending).1
    simpa [abandons, Move.runs_act taken] using quiet
  · cases other
    cases t <;> rfl

theorem called_step {a : NetworkAction S κ ι} (stepped : Stepped net a net') (traced : Traced N net)
    {k : κ} (pursued : Pursued N net k) (guard : LostInTime k net a) {x : Nat}
    (pending : x ∈ (net'.client k).shared.callers)
    (idle : (net'.client k).shared.timerOf x = some .idle) :
    ∃ t ∈ (net'.client k).pool, RpcClient.calling x t := by
  have pos : 0 < (net.client k).shared.cltNonce := traced.cltNonce k ▸ N.client_pos k
  rcases stepped.atClient k with same | ⟨m, os, moved, _, cause⟩
  · rw [same] at pending idle ⊢
    exact pursued.called x pending idle
  cases moved with
  | act t rest ts taken split ran left =>
      have step := RpcClient.acted ran
      have once : t ≠ .rebind := fun same =>
        traced.rebinds_never k (same ▸ List.mem_of_getElem? taken)
      rcases RpcClient.acted_timer step pos once idle with before | ⟨_, armed⟩
      · have here := RpcClient.acted_callers step once pending
        obtain ⟨u, member, calls⟩ := pursued.called x here before
        rw [left]
        rcases List.mem_cons.mp (split.mem_iff.mp member) with rfl | other
        · rcases RpcClient.acted_calling step calls (guard.written cause rfl taken here) with
            ⟨w, new, calls⟩ | armed
          · exact ⟨w, List.mem_append_left _ new, calls⟩
          · rw [idle] at armed
            cases armed
        · exact ⟨u, List.mem_append_right _ other, calls⟩
      · cases armed
  | spawn ts ran _ left =>
      rw [left]
      rcases RpcClient.spawned_timer (RpcClient.spawned ran) pending with
        ⟨before, same⟩ | ⟨t, new, ⟨_, calls, _⟩ | ⟨expired, _⟩⟩
      · obtain ⟨u, member, calls⟩ := pursued.called x before (same ▸ idle)
        exact ⟨u, List.mem_append_right _ member, calls⟩
      · exact ⟨t, List.mem_append_left _ new, calls⟩
      · rw [idle] at expired
        cases expired

/-- A timer that has expired did so before the step, or has an activity that runs its
handler. -/
theorem expired_before {a : NetworkAction S κ ι} (stepped : Stepped net a net')
    (traced : Traced N net) {k : κ} {x : Nat} (pending : x ∈ (net'.client k).shared.callers)
    (expired : (net'.client k).shared.timerOf x = some .expired) :
    (x ∈ (net.client k).shared.callers ∧ (net.client k).shared.timerOf x = some .expired) ∨
      ∃ t ∈ (net'.client k).pool, RpcClient.retrying x t := by
  have pos : 0 < (net.client k).shared.cltNonce := traced.cltNonce k ▸ N.client_pos k
  rcases stepped.atClient k with same | ⟨m, os, moved, _⟩
  · rw [same] at pending expired
    exact .inl ⟨pending, expired⟩
  cases moved with
  | act t rest ts taken split ran left =>
      have step := RpcClient.acted ran
      have once : t ≠ .rebind := fun same =>
        traced.rebinds_never k (same ▸ List.mem_of_getElem? taken)
      rcases RpcClient.acted_timer step pos once expired with before | ⟨_, armed⟩
      · exact .inl ⟨RpcClient.acted_callers step once pending, before⟩
      · cases armed
  | spawn ts ran _ left =>
      rw [left]
      rcases RpcClient.spawned_timer (RpcClient.spawned ran) pending with
        ⟨before, same⟩ | ⟨t, new, ⟨_, calls, _⟩ | ⟨_, retries, _⟩⟩
      · exact .inl ⟨before, same ▸ expired⟩
      · exact .inr ⟨t, List.mem_append_left _ new, calls.retries⟩
      · exact .inr ⟨t, List.mem_append_left _ new, retries⟩

theorem carried_step {a : NetworkAction S κ ι} (stepped : Stepped net a net') (traced : Traced N net)
    {k : κ} (pursued : Pursued N net k) (guard : LostInTime k net a) {x : Nat}
    (pending : x ∈ (net'.client k).shared.callers)
    (expired : (net'.client k).shared.timerOf x = some .expired) : Carried net' k x := by
  have pos : 0 < (net.client k).shared.cltNonce := traced.cltNonce k ▸ N.client_pos k
  rcases expired_before stepped traced pending expired with ⟨before, passed⟩ | ⟨t, member, retries⟩
  swap
  · exact .client member retries
  obtain ⟨quiet, heard⟩ := guard x before
  have heard := heard passed
  cases pursued.carried x before passed with
  | @client t member retries =>
      rcases stepped.atClient k with same | ⟨m, os, moved, sent, cause⟩
      · exact .client (same ▸ member) retries
      rcases moved.kept member with stays | ⟨i, l, ts, rfl, taken, ran, left⟩
      · exact .client stays retries
      have connects : ∀ e, t = .reconnect x → l = .connected e → e = .ok := by
        rintro e rfl rfl
        rcases cause with rfl | ⟨_, _, _, _, other⟩
        · by_contra failed
          simp [loses, Move.runs_act taken, failsToReconnect, failed] at heard
        · cases other
      rcases RpcClient.acted_retrying (RpcClient.acted ran) (traced.client k).held.shared
        ((traced.client k).held.task t member) pos pending retries
        (guard.written cause rfl taken before) connects with
        ⟨u, new, retries⟩ | armed | ⟨buf, out, same⟩
      · exact .client (left u new) retries
      · rw [expired] at armed
        cases armed
      · exact .request (sent buf out) same
  | request member same =>
      rcases stepped.requestPacket member with stays | ⟨j, rfl, lost⟩ | ⟨v, n, arrived⟩
      · exact .request stays same
      · simp [loses, lost, same] at heard
      · exact .server arrived ⟨rfl, same⟩
  | @server v t member answers =>
      rcases stepped.atServer v with same | ⟨m, os, moved, sent, cause⟩
      · exact .server (v := v) (same ▸ member) answers
      rcases moved.kept member with stays | ⟨i, l, ts, rfl, taken, ran, left⟩
      · exact .server stays answers
      have step := RpcServer.acted ran
      have kept : drops k x (net.server v).shared t l = false ∧ throws k x t l = false := by
        rcases cause with rfl | ⟨_, _, buf, _, label⟩
        · rw [loses, Move.runs_act taken] at heard
          rw [abandons, Move.runs_act taken] at quiet
          exact ⟨heard, quiet⟩
        · cases label
          exact ⟨by cases t <;> simp [drops], by cases t <;> simp [throws]⟩
      rcases traced.acted_answering step member answers kept.1 kept.2 with
        ⟨u, new, answers⟩ | ⟨o, out, rfl, same⟩ | ⟨r, entry, same, absent, other⟩
      · exact .server (left u new) answers
      · exact .reply (sent o out) same
      · -- INPROGRESS: the worker at the request is not the one that was silent
        obtain ⟨u, member, executes⟩ := pursued.executed x before v r entry same absent
        rcases moved.kept member with stays | ⟨i, l, ts, label, taken', _⟩
        · exact .server stays executes.answers
        · cases label
          cases taken.symm.trans taken'
          exact absurd executes other
  | reply member same =>
      rcases stepped.replyPacket member with stays | ⟨j, rfl, lost⟩ | arrived
      · exact .reply stays same
      · simp [loses, lost, same] at heard
      · exact .client arrived same

theorem executed_step {a : NetworkAction S κ ι} (stepped : Stepped net a net')
    (traced : Traced N net) (traced' : Traced N net') {k : κ} (pursued : Pursued N net k)
    (guard : LostInTime k net a) {x : Nat} (pending : x ∈ (net'.client k).shared.callers) (v : ι)
    {r : ReplyT S.Buf} (entry : r ∈ (net'.server v).shared.filter.window (N.client k))
    (here : r.xid = x) (absent : r.cbPresent = false) :
    ∃ t ∈ (net'.server v).pool, executing k x t := by
  rcases stepped.atServer v with same | ⟨m, os, moved, _, cause⟩
  · rw [same] at entry ⊢
    obtain ⟨s, h, req, asked, client, xid⟩ := (traced.server v).shared.taken _ r entry
    obtain ⟨_, client', args, issued, _⟩ := traced.asked asked
    obtain rfl : s.1 = k := N.client_injective (client'.symm.trans client)
    -- the entry is of an issued call, so `x` was pending before
    have early : x < (net.client s.1).shared.xid := by
      apply Nat.lt_of_not_le
      intro late
      rw [(traced.client s.1).held.shared.fresh h.xid (xid.trans here ▸ late)] at issued
      cases issued
    have before := ((stepped.changed.grown traced).client s.1).callers x early pending
    exact pursued.executed x before v r entry here absent
  have unmoved : net'.client = net.client := by
    rcases cause with rfl | ⟨_, _, _, rfl, _⟩ <;> cases stepped <;> rfl
  rw [unmoved] at pending
  cases moved with
  | @act i l t rest ts taken split ran left =>
      have step := RpcServer.acted ran
      have member := List.mem_of_getElem? taken
      have quiet : throws k x t l = false := by
        rcases cause with rfl | ⟨_, _, buf, _, label⟩
        · have quiet := (guard x pending).1
          rw [abandons, Move.runs_act taken] at quiet
          exact quiet
        · cases label
          cases t <;> simp [throws]
      rw [left]
      rcases acted_entry step entry absent with old | ⟨s, h, req, _, client, xid, rfl⟩
      · obtain ⟨u, inPool, executes⟩ := pursued.executed x pending v r old here absent
        rcases List.mem_cons.mp (split.mem_iff.mp inPool) with rfl | other
        · rcases traced.acted_executing step member executes quiet with
            ⟨w, new, executes⟩ | filled
          · exact ⟨w, List.mem_append_left _ new, executes⟩
          · rw [filled r entry here] at absent
            cases absent
        · exact ⟨u, List.mem_append_right _ other, executes⟩
      · have asked := ((traced'.server v).task (.invoke s h req) (left ▸ by simp)).1
        refine ⟨_, List.mem_append_left _ (List.mem_singleton_self _), ?_, xid.trans here⟩
        exact N.client_injective ((traced'.asked_nonce asked).symm.trans client)
  | spawn ts ran _ left =>
      obtain ⟨ps, shared, _⟩ := RpcServer.spawn_spec ran
      rw [shared] at entry
      obtain ⟨u, member, executes⟩ := pursued.executed x pending v r entry here absent
      exact ⟨u, left ▸ List.mem_append_right _ member, executes⟩

theorem reachable_pursued {k : κ}
    (run : Reachable (system S κ ι) (LostInTime k) (start S N) net) : Pursued N net k := by
  apply run.invariant (I := fun net => Pursued N net k)
  · exact ⟨fun x member => (by cases member), fun x member => (by cases member),
      fun x member => (by cases member)⟩
  intro net a net' run pursued guard moved
  have traced := reachable_traced run
  have traced' := traced.step (stepped moved).changed
  exact ⟨fun x => called_step (stepped moved) traced pursued guard,
    fun x => carried_step (stepped moved) traced pursued guard,
    fun x pending v r => executed_step (stepped moved) traced traced' pursued guard pending v⟩

/-- As long as nothing of a pending call is lost after its timer expired and no exception
puts an end to it, the timer is armed, or the request or a reply to it is on its way. -/
theorem pending_call_goes_on (N : Nonces κ ι) (k : κ) (net : Network S κ ι)
    (run : Reachable (system S κ ι) (LostInTime k) (start S N) net) :
    ∀ x ∈ (net.client k).shared.callers,
      (net.client k).shared.timerOf x = some .armed ∨ Carried net k x := by
  intro x pending
  have pursued := reachable_pursued run
  obtain ⟨caller, live, _⟩ := (reachable_traced run |>.client k).held.shared.pending x pending
  have timer := RpcClient.timerOf_live live
  cases state : caller.timer with
  | idle =>
      obtain ⟨t, member, calls⟩ := pursued.called x pending (timer.trans (congrArg some state))
      exact .inr (.client member calls.retries)
  | armed => exact .inl (timer.trans (congrArg some state))
  | expired => exact .inr (pursued.carried x pending (timer.trans (congrArg some state)))

/-- The request of `Bind` is lost, the timer expires and the request is sent again. -/
def lostOnce : List (NetworkAction .sample Unit Unit) :=
  [.client () (.act 0 (.connected .ok)), .server () (.act 0 (.accepted ((), 0) .ok)),
    .client () (.spawn .bind), .client () (.act 0 .go), .client () (.act 0 .go),
    .client () (.act 1 .go), .client () (.act 0 .transmit), .client () (.act 0 (.sent .ok)),
    .loseRequest 0, .client () (.spawn (.expire 2)), .client () (.act 0 .go),
    .client () (.act 0 .go), .client () (.act 0 .transmit), .client () (.act 0 (.sent .ok))]

theorem lostOnce_run : ∃ net : Network .sample Unit Unit,
    (system .sample Unit Unit).exec (fun net a => decide (LostInTime () net a)) (start .sample pair)
      lostOnce = some net ∧ 2 ∈ (net.client ()).shared.callers ∧
      (net.client ()).shared.timerOf 2 = some .expired :=
  System.exec_any (by decide +kernel)

theorem pending_call_goes_on_lostOnce : ∃ net : Network .sample Unit Unit,
    Reachable (system .sample Unit Unit) (LostInTime ()) (start .sample pair) net ∧
      Carried net () 2 := by
  obtain ⟨net, ran, pending, expired⟩ := lostOnce_run
  have run := (System.exec_reachable ran).mono fun _ _ met => of_decide_eq_true met
  refine ⟨net, run, (pending_call_goes_on pair () net run 2 pending).resolve_left ?_⟩
  rw [expired]
  simp

/-- The second request is lost as well. -/
theorem lostTwice_run : ∃ net : Network .sample Unit Unit,
    (system .sample Unit Unit).exec (fun _ _ => true) (start .sample pair)
      (lostOnce ++ [.loseRequest 0]) = some net ∧ 2 ∈ (net.client ()).shared.callers ∧
      (net.client ()).shared.timerOf 2 = some .expired ∧
      (net.client ()).pool = [.receive, .receive, .receive] ∧
      (net.server ()).pool = [.receive ((), 0), .accept] ∧ net.requests = [] ∧ net.replies = [] :=
  ⟨_, rfl, by decide, rfl, rfl, rfl, rfl, rfl⟩

theorem pending_call_stuck : ¬ ∀ net : Network .sample Unit Unit,
    Reachable (system .sample Unit Unit) anyStep (start .sample pair) net →
      ∀ x ∈ (net.client ()).shared.callers,
        (net.client ()).shared.timerOf x = some .armed ∨ Carried net () x := by
  intro always
  obtain ⟨net, ran, pending, expired, client, server, requests, replies⟩ := lostTwice_run
  rcases always net (System.exec_reachable ran).any 2 pending with armed | carried
  · rw [expired] at armed
    cases armed
  · cases carried with
    | client member retries =>
        rw [client] at member
        simp only [List.mem_cons, List.not_mem_nil, or_false, or_self] at member
        subst member
        exact retries
    | request member => simp [requests] at member
    | server member answers =>
        rw [server] at member
        simp only [List.mem_cons, List.not_mem_nil, or_false] at member
        rcases member with rfl | rfl <;> exact answers
    | reply member => simp [replies] at member

end Network

end AsyncRpc
