import AsyncRpc.AtMostOnce

/-! Where the replies of a server come from. `Q s buf` says which buffers its
connections may deliver; everything the server holds and sends is traced back to one
of them and to the handler that ran for it. -/
namespace AsyncRpc
open Interleaving

variable {S : Services} {ς : Type}

/-- The bytes of the reply that holds the result of this execution, unless it is one
that `Buf` refuses. -/
def Execution.buf (ex : Execution S) : Except Exn S.Buf :=
  (replyDoc S ex.proc ⟨ex.xid, ex.err⟩ ex.reply).buf S.toCodec

def oldServerBuf (S : Services) (x : Nat) : S.Buf := errorBuf S.toCodec ⟨x, .oldserverFailure⟩

def forgottenBuf (S : Services) (x : Nat) : S.Buf := errorBuf S.toCodec ⟨x, .atmostOnceFailure⟩

namespace RpcServer

/-- The four replies that a request with header `h` can get. -/
inductive ReplyTo (sv : RpcServer S ς) (h : RequestHeader) : Origin → S.Buf → Prop
  | handled {ex buf} (member : ex ∈ sv.executions) (client : ex.cltNonce = h.cltNonce)
      (xid : ex.xid = h.xid) (proc : ex.proc = h.proc) (bytes : ex.buf = .ok buf) :
      ReplyTo sv h .handled buf
  | remembered {ex buf} (member : ex ∈ sv.executions) (client : ex.cltNonce = h.cltNonce)
      (xid : ex.xid = h.xid) (pos : 0 < h.cltNonce) (bytes : ex.buf = .ok buf) :
      ReplyTo sv h (.remembered h.cltNonce h.xid) buf
  | oldServer (bound : h.srvNonce ≠ 0) (other : h.srvNonce ≠ sv.nonce) :
      ReplyTo sv h .oldServer (oldServerBuf S h.xid)
  | forgotten (pos : 0 < h.cltNonce)
      (acked : h.xid ≤ sv.filter.maxAckowledgedRep h.cltNonce) :
      ReplyTo sv h .forgotten (forgottenBuf S h.xid)

/-- The replies of the NEW and DONE branches. -/
theorem ReplyTo.result {sv : RpcServer S ς} {h : RequestHeader} {o : Origin} {buf : S.Buf}
    (reply : ReplyTo sv h o buf) (made : o ≠ .oldServer ∧ o ≠ .forgotten) :
    ∃ ex ∈ sv.executions, ex.cltNonce = h.cltNonce ∧ ex.xid = h.xid ∧ ex.buf = .ok buf := by
  cases reply with
  | @handled ex _ member client xid _ bytes => exact ⟨ex, member, client, xid, bytes⟩
  | @remembered ex _ member client xid _ bytes => exact ⟨ex, member, client, xid, bytes⟩
  | oldServer => exact absurd rfl made.1
  | forgotten => exact absurd rfl made.2

/-- A header read from a buffer in `Q`. -/
def Asked (Q : ς → S.Buf → Prop) (s : ς) (h : RequestHeader) (req : Unmarshall) : Prop :=
  ∃ buf, Q s buf ∧ Reads buf h req

/-- The request passed the old-instance test. -/
def Current (sv : RpcServer S ς) (h : RequestHeader) : Prop :=
  h.srvNonce ≠ 0 → h.srvNonce = sv.nonce

/-- An execution with the arguments of a request. That of `BIND` returned the nonce. -/
def Performed (Q : ς → S.Buf → Prop) (sv : RpcServer S ς) (ex : Execution S) : Prop :=
  (∃ s h req args e r, Asked Q s h req ∧ sv.Current h ∧ (req.get (S.args h.proc)).1 = .ok args ∧
      ex = ⟨h.cltNonce, h.xid, h.proc, args, e, r⟩) ∧
    ∀ isBind : BIND = ex.proc, ex.err = .ok ∧ ex.reply = isBind ▸ S.nonce.symm sv.nonce

structure Known (Q : ς → S.Buf → Prop) (sv : RpcServer S ς) : Prop where
  sorted : sv.filter.Sorted
  invoked : ∀ p ∈ sv.invoked, ∃ s h req, Asked Q s h req ∧ sv.Current h ∧ p = (h.cltNonce, h.xid)
  performed : ∀ ex ∈ sv.executions, Performed Q sv ex
  taken : ∀ n, ∀ r ∈ sv.filter.window n, ∃ s h req, Asked Q s h req ∧ h.cltNonce = n ∧ h.xid = r.xid
  entries : ∀ n, ∀ r ∈ sv.filter.window n, r.cbPresent = true →
    ∃ ex ∈ sv.executions, ex.cltNonce = n ∧ ex.xid = r.xid ∧ ex.buf = .ok r.buf
  acked : ∀ n, sv.filter.maxAckowledgedRep n ≠ 0 → ∃ s h req, Asked Q s h req ∧
    h.cltNonce = n ∧ h.xidRep = sv.filter.maxAckowledgedRep n

/-- What an activity of the server relies on. -/
def TaskKnown (Q : ς → S.Buf → Prop) (sv : RpcServer S ς) : ServerTask S ς → Prop
  | .accept | .receive _ => True
  | .dispatch s buf => Q s buf
  | .newWindow s h req | .check s h req => Asked Q s h req ∧ sv.Current h ∧ 0 < h.cltNonce
  | .invoke s h req => Asked Q s h req ∧ sv.Current h
  | .running s h args => ∃ req, Asked Q s h req ∧ sv.Current h ∧
      (req.get (S.args h.proc)).1 = .ok args
  | .record s h rep => ((∃ req, Asked Q s h req) ∧ 0 < h.cltNonce) ∧ ∃ ex ∈ sv.executions,
      ex.cltNonce = h.cltNonce ∧ ex.xid = h.xid ∧ ex.proc = h.proc ∧ rep.buf S.toCodec = ex.buf
  | .remembered s n x => (∃ h req, Asked Q s h req ∧ h.cltNonce = n ∧ h.xid = x) ∧ 0 < n ∧
      sv.filter.Covers n x ∧ ∀ r ∈ sv.filter.window n, r.xid = x → r.cbPresent = true
  | .send s o buf _ => ∃ h req, Asked Q s h req ∧ ReplyTo sv h o buf

variable {Q Q' : ς → S.Buf → Prop} {sv sv' : RpcServer S ς}

theorem Asked.mono (more : ∀ s buf, Q s buf → Q' s buf) {s : ς} {h : RequestHeader}
    {req : Unmarshall} (asked : Asked Q s h req) : Asked Q' s h req :=
  asked.imp fun buf found => ⟨more s buf found.1, found.2⟩

theorem Known.mono (known : Known Q sv) (more : ∀ s buf, Q s buf → Q' s buf) : Known Q' sv where
  sorted := known.sorted
  invoked p member := by
    obtain ⟨s, h, req, asked, rest⟩ := known.invoked p member
    exact ⟨s, h, req, asked.mono more, rest⟩
  performed ex member := by
    obtain ⟨⟨s, h, req, args, e, r, asked, rest⟩, bind⟩ := known.performed ex member
    exact ⟨⟨s, h, req, args, e, r, asked.mono more, rest⟩, bind⟩
  taken n r member := by
    obtain ⟨s, h, req, asked, rest⟩ := known.taken n r member
    exact ⟨s, h, req, asked.mono more, rest⟩
  entries := known.entries
  acked n some := by
    obtain ⟨s, h, req, asked, rest⟩ := known.acked n some
    exact ⟨s, h, req, asked.mono more, rest⟩

theorem TaskKnown.mono {t : ServerTask S ς} (known : TaskKnown Q sv t)
    (more : ∀ s buf, Q s buf → Q' s buf) : TaskKnown Q' sv t := by
  cases t with
  | accept | receive => trivial
  | dispatch s buf => exact more s buf known
  | newWindow | check | invoke => exact known.imp (Asked.mono more) id
  | running => exact known.imp fun req found => found.imp (Asked.mono more) id
  | record => exact known.imp (And.imp_left (Exists.imp fun req => Asked.mono more)) id
  | remembered =>
      obtain ⟨⟨h, req, asked, rest⟩, known⟩ := known
      exact ⟨⟨h, req, asked.mono more, rest⟩, known⟩
  | send =>
      obtain ⟨h, req, asked, reply⟩ := known
      exact ⟨h, req, asked.mono more, reply⟩

/-- What a section never undoes. -/
structure Grown (sv sv' : RpcServer S ς) : Prop where
  nonce : sv'.nonce = sv.nonce
  executions : ∀ ex ∈ sv.executions, ex ∈ sv'.executions
  acked : ∀ n, sv.filter.maxAckowledgedRep n ≤ sv'.filter.maxAckowledgedRep n

theorem Grown.refl (sv : RpcServer S ς) : Grown sv sv := ⟨rfl, fun _ h => h, fun _ => Nat.le_refl _⟩

theorem Grown.trans {sv'' : RpcServer S ς} (first : Grown sv sv') (second : Grown sv' sv'') :
    Grown sv sv'' :=
  ⟨second.nonce.trans first.nonce, fun ex member => second.executions ex (first.executions ex member),
    fun n => (first.acked n).trans (second.acked n)⟩

theorem ReplyTo.mono (grown : Grown sv sv') {h : RequestHeader} {o : Origin} {buf : S.Buf}
    (reply : ReplyTo sv h o buf) : ReplyTo sv' h o buf := by
  cases reply with
  | handled member client xid proc bytes =>
      exact .handled (grown.executions _ member) client xid proc bytes
  | remembered member client xid pos bytes =>
      exact .remembered (grown.executions _ member) client xid pos bytes
  | oldServer bound other => exact .oldServer bound (grown.nonce ▸ other)
  | forgotten pos acked => exact .forgotten pos (acked.trans (grown.acked _))

theorem Current.mono (grown : Grown sv sv') {h : RequestHeader} (current : sv.Current h) :
    sv'.Current h := by
  intro bound
  rw [grown.nonce]
  exact current bound

theorem Performed.mono (grown : Grown sv sv') {ex : Execution S} (done : Performed Q sv ex) :
    Performed Q sv' ex := by
  obtain ⟨⟨s, h, req, args, e, r, asked, current, rest⟩, bind⟩ := done
  exact ⟨⟨s, h, req, args, e, r, asked, current.mono grown, rest⟩, grown.nonce.symm ▸ bind⟩

theorem acted_grown [DecidableEq ς] {t : ServerTask S ς} {l : ServerLabel S ς}
    {ts : List (ServerTask S ς)} {os : List (ς × S.Buf)} (step : Acted sv t l sv' ts os) :
    Grown sv sv' := by
  cases step with
  | newWindow => exact ⟨rfl, fun _ h => h, fun n => by rw [DupFilter.createWindow_ack]⟩
  | check => exact ⟨rfl, fun _ h => h, DupFilter.check_ack_le _ _ _ _ _⟩
  | recording | answered | answerThrew =>
      exact ⟨rfl, fun _ h => List.mem_cons_of_mem _ h, fun _ => Nat.le_refl _⟩
  | recorded ok => exact ⟨rfl, fun _ h => h, fun n => by rw [DupFilter.addReply_ack ok]⟩
  | _ => exact ⟨rfl, fun _ h => h, fun _ => Nat.le_refl _⟩

/-- An entry that answers a request stays the one for its xid. -/
theorem acted_present [DecidableEq ς] {t : ServerTask S ς} {l : ServerLabel S ς}
    {ts : List (ServerTask S ς)} {os : List (ς × S.Buf)} (step : Acted sv t l sv' ts os)
    (sorted : sv.filter.Sorted) {n : UInt32} {x : Nat} (taken : sv.filter.Covers n x)
    (present : ∀ r ∈ sv.filter.window n, r.xid = x → r.cbPresent = true) :
    ∀ r ∈ sv'.filter.window n, r.xid = x → r.cbPresent = true := by
  cases step with
  | newWindow =>
      intro r member
      rw [DupFilter.createWindow_window] at member
      exact present r member
  | @check s h req =>
      intro r member same
      rcases DupFilter.check_mem _ _ _ _ _ member with old | ⟨rfl, new, rfl⟩
      · exact present r old same
      · have free := DupFilter.check_new_fresh _ _ _ _ _ sorted new
        have same : h.xid = x := same
        subst same
        exact absurd taken free
  | recorded ok =>
      intro r member same
      rcases DupFilter.addReply_mem ok member with old | ⟨_, _, filled, _⟩
      · exact present r old same
      · exact filled
  | _ => exact present

/-- No section falsifies what another activity relies on. -/
theorem TaskKnown.stable [DecidableEq ς] {t u : ServerTask S ς} {l : ServerLabel S ς}
    {ts : List (ServerTask S ς)} {os : List (ς × S.Buf)} (step : Acted sv t l sv' ts os)
    (sorted : sv.filter.Sorted) (known : TaskKnown Q sv u) : TaskKnown Q sv' u := by
  have grown := acted_grown step
  cases u with
  | accept | receive => trivial
  | dispatch => exact known
  | newWindow | check => exact ⟨known.1, known.2.1.mono grown, known.2.2⟩
  | invoke => exact ⟨known.1, known.2.mono grown⟩
  | running =>
      obtain ⟨req, asked, current, read⟩ := known
      exact ⟨req, asked, current.mono grown, read⟩
  | record =>
      obtain ⟨asked, ex, member, rest⟩ := known
      exact ⟨asked, ex, grown.executions ex member, rest⟩
  | remembered =>
      obtain ⟨asked, pos, taken, present⟩ := known
      exact ⟨asked, pos, acted_covers step taken, acted_present step sorted taken present⟩
  | send =>
      obtain ⟨h, req, asked, reply⟩ := known
      exact ⟨h, req, asked, reply.mono grown⟩

theorem Known.quiet (known : Known Q sv) (grown : Grown sv sv') (invoked : sv'.invoked = sv.invoked)
    (executions : sv'.executions = sv.executions) (filter : sv'.filter = sv.filter) :
    Known Q sv' where
  sorted := filter ▸ known.sorted
  invoked p member := by
    obtain ⟨s, h, req, asked, current, same⟩ := known.invoked p (invoked ▸ member)
    exact ⟨s, h, req, asked, current.mono grown, same⟩
  performed ex member := (known.performed ex (executions ▸ member)).mono grown
  taken := filter ▸ known.taken
  entries := executions ▸ filter ▸ known.entries
  acked := filter ▸ known.acked

theorem known_invoke {h : RequestHeader} {s : ς} {req : Unmarshall} (known : Known Q sv)
    (asked : Asked Q s h req) (current : sv.Current h) :
    Known Q { sv with invoked := (h.cltNonce, h.xid) :: sv.invoked } := by
  refine { known with invoked := fun p member => ?_, performed := known.performed }
  rcases List.mem_cons.mp member with rfl | old
  · exact ⟨s, h, req, asked, current, rfl⟩
  · exact known.invoked p old

theorem known_check {h : RequestHeader} {s : ς} {req : Unmarshall} (known : Known Q sv)
    (asked : Asked Q s h req) : Known Q { sv with filter :=
      (sv.filter.checkDuplicateAndUpdate S.empty h.cltNonce h.xid h.xidRep).2 } where
  sorted := DupFilter.check_sorted _ _ _ _ _ known.sorted
  invoked := known.invoked
  performed := known.performed
  taken n r member := by
    rcases DupFilter.check_mem _ _ _ _ _ member with old | ⟨rfl, _, rfl⟩
    · exact known.taken n r old
    · exact ⟨s, h, req, asked, rfl, rfl⟩
  entries n r member present := by
    rcases DupFilter.check_mem _ _ _ _ _ member with old | ⟨_, _, rfl⟩
    · exact known.entries n r old present
    · cases present
  acked n some := by
    simp only [DupFilter.check_ack] at some ⊢
    split_ifs at some ⊢ with same
    · rcases le_total h.xidRep (sv.filter.maxAckowledgedRep n) with below | above
      · rw [max_eq_left below] at some ⊢
        exact known.acked n some
      · rw [max_eq_right above]
        exact ⟨s, h, req, asked, same.symm, rfl⟩
    · exact known.acked n some

theorem known_record {h : RequestHeader} {buf : S.Buf} {f : DupFilter S.Buf} (known : Known Q sv)
    (ok : sv.filter.addReply h.cltNonce h.xid buf = .ok f)
    (made : ∃ ex ∈ sv.executions, ex.cltNonce = h.cltNonce ∧ ex.xid = h.xid ∧
      ex.buf = .ok buf) : Known Q { sv with filter := f } where
  sorted := DupFilter.addReply_sorted ok known.sorted
  invoked := known.invoked
  performed := known.performed
  taken n r member := by
    have listed : r.xid ∈ (f.window n).map ReplyT.xid := List.mem_map_of_mem member
    rw [DupFilter.addReply_xids ok] at listed
    obtain ⟨old, here, same⟩ := List.mem_map.mp listed
    exact same ▸ known.taken n old here
  entries n r member present := by
    rcases DupFilter.addReply_mem ok member with old | ⟨rfl, xid, _, filled⟩
    · exact known.entries n r old present
    · obtain ⟨ex, member, client, number, same⟩ := made
      exact ⟨ex, member, client, number.trans xid.symm, filled ▸ same⟩
  acked n some := by
    simp only [DupFilter.addReply_ack ok] at some ⊢
    exact known.acked n some

theorem known_executed {h : RequestHeader} {s : ς} {req : Unmarshall} {args : S.Args h.proc}
    {l : ServerLabel S ς} {r : S.Rep h.proc} {e : Err} (known : Known Q sv) (asked : Asked Q s h req)
    (current : sv.Current h) (read : (req.get (S.args h.proc)).1 = .ok args)
    (returned : Returned sv h l r e) : Known Q (sv.executed h args r e) := by
  have grown : Grown sv (sv.executed h args r e) :=
    ⟨rfl, fun _ h => List.mem_cons_of_mem _ h, fun _ => Nat.le_refl _⟩
  have bind : ∀ isBind : BIND = h.proc, e = .ok ∧ r = isBind ▸ S.nonce.symm sv.nonce := by
    cases returned with
    | bind => exact fun _ => ⟨rfl, rfl⟩
    | handler other => exact fun isBind => absurd isBind.symm other
  refine ⟨known.sorted, known.invoked, fun ex member => ?_, known.taken,
    fun n entry inWindow present => ?_, known.acked⟩
  · rcases List.mem_cons.mp member with rfl | old
    · exact ⟨⟨s, h, req, args, e, r, asked, current, read, rfl⟩, bind⟩
    · exact (known.performed ex old).mono grown
  · obtain ⟨ex, member, rest⟩ := known.entries n entry inWindow present
    exact ⟨ex, grown.executions ex member, rest⟩

theorem dispatched_known {s : ς} {buf : S.Buf} {t : ServerTask S ς} (arrived : Q s buf)
    (ok : sv.dispatch s buf = .ok t) : TaskKnown Q sv t := by
  cases dispatched ok with
  | oldServer reads bound other => exact ⟨_, _, ⟨buf, arrived, reads⟩, .oldServer bound other⟩
  | filtered reads current _ pos => exact ⟨⟨buf, arrived, reads⟩, current, pos⟩
  | plain reads current => exact ⟨⟨buf, arrived, reads⟩, current⟩

theorem verdict_known {s : ς} {h : RequestHeader} {req : Unmarshall} (known : Known Q sv)
    (asked : Asked Q s h req) (current : sv.Current h) (pos : 0 < h.cltNonce) :
    TaskKnown Q { sv with filter :=
        (sv.filter.checkDuplicateAndUpdate S.empty h.cltNonce h.xid h.xidRep).2 }
      (onVerdict s h req
        (sv.filter.checkDuplicateAndUpdate S.empty h.cltNonce h.xid h.xidRep).1) := by
  cases verdict : (sv.filter.checkDuplicateAndUpdate S.empty h.cltNonce h.xid h.xidRep).1 with
  | new => exact ⟨asked, current⟩
  | inprogress => trivial
  | done =>
      obtain ⟨r, member, same, present⟩ := DupFilter.check_done_entry _ _ _ _ _ verdict
      refine ⟨⟨h, req, asked, rfl, rfl⟩, pos, .inr ⟨r, member, same⟩, fun r' member' same' => ?_⟩
      -- the window is strictly ascending, so the entry of that xid is this one
      have ascending := DupFilter.check_sorted S.empty _ h.cltNonce h.xid h.xidRep known.sorted
        h.cltNonce
      exact ascending.unique member member' (same.trans same'.symm) ▸ present
  | forgotten =>
      refine ⟨h, req, asked, .forgotten pos ?_⟩
      rw [DupFilter.check_ack, if_pos rfl]
      exact (DupFilter.check_forgotten_iff _ _ _ _ _).mp verdict

/-- What a section leaves behind is traced back as what it started from is. -/
theorem acted_known [DecidableEq ς] {t : ServerTask S ς} {l : ServerLabel S ς}
    {ts : List (ServerTask S ς)} {os : List (ς × S.Buf)} (step : Acted sv t l sv' ts os)
    (known : Known Q sv) (task : TaskKnown Q sv t)
    (arrives : ∀ s buf, t = .receive s → l = .received buf .ok → Q s buf) :
    Known Q sv' ∧ ∀ u ∈ ts, TaskKnown Q sv' u := by
  have grown := acted_grown step
  cases step with
  | acceptFailed | receiveFailed => exact ⟨known, by simp⟩
  | accepted => exact ⟨known.quiet grown rfl rfl rfl, by simp [TaskKnown]⟩
  | @received s buf => exact ⟨known, by simpa [TaskKnown] using arrives s buf rfl rfl⟩
  | dispatched ok => exact ⟨known, by simpa using dispatched_known task ok⟩
  | dispatchThrew | raised | recordThrew | bufThrew =>
      exact ⟨known.quiet grown rfl rfl rfl, by simp⟩
  | newWindow =>
      refine ⟨⟨?_, known.invoked, known.performed, ?_, ?_, ?_⟩,
        by simpa using ⟨task.1, task.2.1, task.2.2⟩⟩
      · intro n
        rw [DupFilter.createWindow_window]
        exact known.sorted n
      · intro n r member
        rw [DupFilter.createWindow_window] at member
        exact known.taken n r member
      · intro n r member
        rw [DupFilter.createWindow_window] at member
        exact known.entries n r member
      · intro n
        rw [DupFilter.createWindow_ack]
        exact known.acked n
  | check =>
      obtain ⟨asked, current, pos⟩ := task
      exact ⟨known_check known asked, by simpa using verdict_known known asked current pos⟩
  | invoked read =>
      refine ⟨known_invoke known task.1 task.2, ?_⟩
      simpa using ⟨_, task.1, task.2, read⟩
  | invokeThrew =>
      have invoked := known_invoke known task.1 task.2
      exact ⟨invoked.quiet ⟨rfl, fun _ h => h, fun _ => Nat.le_refl _⟩ rfl rfl rfl, by simp⟩
  | recording returned pos =>
      obtain ⟨req, asked, current, read⟩ := task
      refine ⟨known_executed known asked current read returned, ?_⟩
      simp only [List.mem_singleton, forall_eq]
      exact ⟨⟨⟨req, asked⟩, pos⟩, _, List.mem_cons_self, rfl, rfl, rfl, rfl⟩
  | answered returned _ written =>
      obtain ⟨req, asked, current, read⟩ := task
      refine ⟨known_executed known asked current read returned, ?_⟩
      simp only [List.mem_singleton, forall_eq]
      exact ⟨_, req, asked, .handled List.mem_cons_self rfl rfl rfl written⟩
  | answerThrew returned =>
      obtain ⟨req, asked, current, read⟩ := task
      have known := known_executed known asked current read returned
      exact ⟨known.quiet ⟨rfl, fun _ h => h, fun _ => Nat.le_refl _⟩ rfl rfl rfl, by simp⟩
  | recorded ok written =>
      obtain ⟨⟨⟨req, asked⟩, _⟩, ex, member, client, xid, proc, same⟩ := task
      have bytes := same.symm.trans written
      refine ⟨known_record known ok ⟨ex, member, client, xid, bytes⟩, ?_⟩
      simp only [List.mem_singleton, forall_eq]
      exact ⟨_, req, asked, .handled member client xid proc bytes⟩
  | remembered member same =>
      obtain ⟨⟨h, req, asked, rfl, rfl⟩, pos, _, present⟩ := task
      refine ⟨known, ?_⟩
      simp only [List.mem_singleton, forall_eq]
      obtain ⟨ex, made, client, xid, bytes⟩ := known.entries _ _ member (present _ member same)
      exact ⟨h, req, asked, .remembered made client (xid.trans same) pos bytes⟩
  | transmitted => exact ⟨known, by simpa [TaskKnown] using task⟩
  | @sent s o buf _ e =>
      refine ⟨known, fun u member => ?_⟩
      rw [mem_onSent member]
      trivial

/-- Only a `Send` hands bytes to a socket. -/
theorem acted_output [DecidableEq ς] {t : ServerTask S ς} {l : ServerLabel S ς}
    {ts : List (ServerTask S ς)} {os : List (ς × S.Buf)} (step : Acted sv t l sv' ts os)
    {s : ς} {buf : S.Buf} (out : (s, buf) ∈ os) : ∃ o, t = .send s o buf false ∧ sv' = sv := by
  cases step with
  | @transmitted s' o buf' =>
      cases List.mem_singleton.mp out
      exact ⟨o, rfl, rfl⟩
  | _ => cases out

/-- A whole configuration is traced back. -/
def Traced (Q : ς → S.Buf → Prop) (c : Cfg (RpcServer S ς) (ServerTask S ς)) : Prop :=
  Holds (Known Q) (TaskKnown Q) c

theorem Traced.mono {c : Cfg (RpcServer S ς) (ServerTask S ς)} (h : Traced Q c)
    (more : ∀ s buf, Q s buf → Q' s buf) : Traced Q' c :=
  ⟨h.shared.mono more, fun t member => (h.task t member).mono more⟩

theorem start_traced (Q : ς → S.Buf → Prop) (nonce : UInt32) : Traced Q (start S ς nonce) := by
  refine ⟨⟨fun _ => List.Pairwise.nil, ?_, ?_, ?_, ?_, ?_⟩, ?_⟩
  · intro p member; cases member
  · intro ex member; cases member
  · intro n r member; cases member
  · intro n r member; cases member
  · intro n some; exact absurd rfl some
  · intro t member; cases List.mem_singleton.mp member; trivial

theorem moved_grown [DecidableEq ς] {c c' : Cfg (RpcServer S ς) (ServerTask S ς)}
    {m : Move (ServerLabel S ς) ServerEvent} {os : List (ς × S.Buf)}
    (moved : (machine S ς).Moved c c' os m) : Grown c.shared c'.shared := by
  cases moved with
  | act t rest ts taken split ran left => exact acted_grown (acted ran)
  | spawn ts ran quiet left =>
      obtain ⟨ps, shared, _⟩ := spawn_spec ran
      rw [shared]
      exact ⟨rfl, fun _ h => h, fun _ => Nat.le_refl _⟩

theorem Traced.move [DecidableEq ς] {c c' : Cfg (RpcServer S ς) (ServerTask S ς)}
    {m : Move (ServerLabel S ς) ServerEvent} {os : List (ς × S.Buf)} (h : Traced Q c)
    (moved : (machine S ς).Moved c c' os m)
    (arrives : ∀ i s buf, m = .act i (.received buf .ok) → c.pool[i]? = some (.receive s) →
      Q s buf) : Traced Q c' := by
  apply Holds.move h moved
  · rintro i l t rest ts rfl taken _ task ran
    have step := acted ran
    obtain ⟨shared, fresh⟩ := acted_known step h.shared task fun s buf same label =>
      arrives i s buf (label ▸ rfl) (same ▸ taken)
    exact ⟨shared, fresh, fun u _ known => known.stable step h.shared.sorted⟩
  · rintro e ts rfl ran
    have grown := moved_grown moved
    obtain ⟨ps, shared, rfl⟩ := spawn_spec ran
    rw [shared] at grown ⊢
    refine ⟨h.shared.quiet grown rfl rfl rfl, by simp, fun u _ known => ?_⟩
    cases u with
    | send =>
        obtain ⟨h, req, asked, reply⟩ := known
        exact ⟨h, req, asked, reply.mono grown⟩
    | _ => exact known

/-- Whatever a move hands to a socket is a reply to a request that came in there. -/
theorem Traced.output [DecidableEq ς] {c c' : Cfg (RpcServer S ς) (ServerTask S ς)}
    {m : Move (ServerLabel S ς) ServerEvent} {os : List (ς × S.Buf)} (h : Traced Q c)
    (moved : (machine S ς).Moved c c' os m) {s : ς} {buf : S.Buf} (out : (s, buf) ∈ os) :
    ∃ h req o, Asked Q s h req ∧ ReplyTo c'.shared h o buf := by
  cases moved with
  | act t rest ts taken split ran left =>
      obtain ⟨o, rfl, same⟩ := acted_output (acted ran) out
      obtain ⟨h, req, asked, reply⟩ := h.task _ (List.mem_of_getElem? taken)
      exact ⟨h, req, o, asked, same ▸ reply⟩
  | spawn ts ran quiet left => subst quiet; cases out

end RpcServer

end AsyncRpc
