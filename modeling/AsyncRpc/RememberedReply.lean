import AsyncRpc.AtMostOnce

/-! The bytes of a remembered reply are sent from its entry in `reply_window_`, through a
pointer that leaves the lock. -/
namespace AsyncRpc.RpcServer
open Interleaving Transition

variable {S : Services} {ς : Type}

/-- The client and xid of the entry that an activity reads through the pointer that came
with DONE, until its `Send` completes. -/
def borrows : ServerTask S ς → Option (UInt32 × Nat)
  | .remembered _ n x | .send _ (.remembered n x) _ _ => some (n, x)
  | _ => none

/-- The bytes that `Send` was given. -/
def sending : ServerTask S ς → Option S.Buf
  | .send _ _ buf _ => some buf
  | _ => none

def checking : ServerTask S ς → Option RequestHeader
  | .check _ h _ => some h
  | _ => none

/-- Its entry is in the window, has a reply, and holds the bytes that are being sent. -/
def Remembers (sv : RpcServer S ς) (t : ServerTask S ς) : Prop :=
  ∀ b ∈ borrows t, ∃ r ∈ sv.filter.window b.1,
    r.xid = b.2 ∧ r.cbPresent = true ∧ ∀ buf ∈ sending t, r.buf = buf

/-- A step leaves every entry that an activity reads where it is and as it is. -/
def StaysPut (c c' : Cfg (RpcServer S ς) (ServerTask S ς)) : Prop :=
  ∀ t ∈ c.pool, ∀ b ∈ borrows t, ∀ r ∈ c.shared.filter.window b.1, r.xid = b.2 →
    r ∈ c'.shared.filter.window b.1

/-- No request is checked that acknowledges a reply of its client that is being sent
again. -/
def AcksUnread (c : Cfg (RpcServer S ς) (ServerTask S ς)) :
    Move (ServerLabel S ς) ServerEvent → Prop
  | .act i _ => ∀ t ∈ c.pool[i]?, ∀ h ∈ checking t, ∀ u ∈ c.pool, ∀ b ∈ borrows u,
      b.1 = h.cltNonce → h.xidRep < b.2
  | .spawn _ => True

instance (c : Cfg (RpcServer S ς) (ServerTask S ς)) : DecidablePred (AcksUnread c)
  | .act i _ => inferInstanceAs (Decidable (∀ t ∈ c.pool[i]?, ∀ h ∈ checking t, ∀ u ∈ c.pool,
      ∀ b ∈ borrows u, b.1 = h.cltNonce → h.xidRep < b.2))
  | .spawn _ => isTrue trivial

variable {sv sv' : RpcServer S ς} {n : UInt32} {x : Nat}

def Named : ServerTask S ς → Prop
  | .newWindow _ h _ | .check _ h _ => 0 < h.cltNonce
  | _ => True

/-- What an activity relies on: only requests with a nonce go through the filter, and an
entry that is being read is above the mark. -/
structure Reading (sv : RpcServer S ς) (t : ServerTask S ς) : Prop where
  named : Named t
  lends : ∀ b ∈ borrows t, 0 < b.1 ∧ sv.filter.maxAckowledgedRep b.1 < b.2 ∧
    ∃ r ∈ sv.filter.window b.1, r.xid = b.2 ∧ r.cbPresent = true ∧ ∀ buf ∈ sending t, r.buf = buf

theorem reading_idle {t : ServerTask S ς} (named : Named t) (idle : borrows t = none) :
    Reading sv t := by
  refine ⟨named, fun b borrowed => ?_⟩
  rw [idle] at borrowed
  cases borrowed

/-- Between NEW and `AddReply` the entry, if it is there, has no reply. -/
def Silent (f : DupFilter S.Buf) (n : UInt32) (x : Nat) : Prop :=
  f.Covers n x ∧ ∀ r ∈ f.window n, r.xid = x → r.cbPresent = false

theorem acted_silent [DecidableEq ς] {t : ServerTask S ς} {l : ServerLabel S ς}
    {ts : List (ServerTask S ς)} {os : List (ς × S.Buf)} (step : Acted sv t l sv' ts os)
    (silent : Silent sv.filter n x) (other : ∀ s h rep, t = .record s h rep →
      ¬ (h.cltNonce = n ∧ h.xid = x)) : Silent sv'.filter n x := by
  refine ⟨acted_covers step silent.1, ?_⟩
  intro r member same
  cases step with
  | newWindow =>
      rw [DupFilter.createWindow_window] at member
      exact silent.2 r member same
  | check =>
      rcases DupFilter.check_mem _ _ _ _ _ member with old | ⟨_, _, rfl⟩
      · exact silent.2 r old same
      · rfl
  | recorded ok =>
      rcases DupFilter.addReply_mem ok member with old | ⟨here, xid, _⟩
      · exact silent.2 r old same
      · exact absurd ⟨here.symm, xid.symm.trans same⟩ (other _ _ _ rfl)
  | _ => exact silent.2 r member same

/-- A NEW verdict is about an entry without a reply. -/
theorem check_new_silent {f : DupFilter S.Buf} {h : RequestHeader} (sorted : f.Sorted)
    (new : (f.checkDuplicateAndUpdate S.empty h.cltNonce h.xid h.xidRep).1 = .new) :
    Silent (f.checkDuplicateAndUpdate S.empty h.cltNonce h.xid h.xidRep).2 h.cltNonce h.xid := by
  refine ⟨DupFilter.check_new_covers _ _ _ _ _ new, ?_⟩
  intro r member same
  rcases DupFilter.check_mem _ _ _ _ _ member with old | ⟨_, _, rfl⟩
  · exact absurd (.inr ⟨r, old, same⟩) (DupFilter.check_new_fresh _ _ _ _ _ sorted new)
  · rfl

/-- A section keeps an entry above the mark unless it acknowledges or records that xid. -/
theorem acted_entry [DecidableEq ς] {t : ServerTask S ς} {l : ServerLabel S ς}
    {ts : List (ServerTask S ς)} {os : List (ς × S.Buf)} (step : Acted sv t l sv' ts os)
    (sorted : sv.filter.Sorted) {r : ReplyT S.Buf} (member : r ∈ sv.filter.window n)
    (above : sv.filter.maxAckowledgedRep n < r.xid)
    (low : ∀ h ∈ checking t, n = h.cltNonce → h.xidRep < r.xid)
    (other : ∀ s h rep, t = .record s h rep → ¬ (h.cltNonce = n ∧ h.xid = r.xid)) :
    r ∈ sv'.filter.window n ∧ sv'.filter.maxAckowledgedRep n < r.xid := by
  cases step with
  | newWindow =>
      rw [DupFilter.createWindow_window, DupFilter.createWindow_ack]
      exact ⟨member, above⟩
  | @check s h req =>
      have live : sv.filter.Live n r.xid := ⟨above, r, member, rfl⟩
      have above' := (live.check S.empty h.cltNonce h.xid h.xidRep (low h rfl)).1
      refine ⟨?_, above'⟩
      exact (DupFilter.check_keeps _ _ _ _ _ member).resolve_right (Nat.not_le_of_lt above')
  | recorded ok =>
      constructor
      · apply DupFilter.addReply_keeps ok sorted member
        rintro ⟨here, xid⟩
        exact other _ _ _ rfl ⟨here.symm, xid.symm⟩
      · rw [DupFilter.addReply_ack ok]
        exact above
  | _ => exact ⟨member, above⟩

theorem Reading.stable [DecidableEq ς] {t u : ServerTask S ς} {l : ServerLabel S ς}
    {ts : List (ServerTask S ς)} {os : List (ς × S.Buf)} (reading : Reading sv u)
    (step : Acted sv t l sv' ts os) (sorted : sv.filter.Sorted)
    (low : ∀ h ∈ checking t, ∀ b ∈ borrows u, b.1 = h.cltNonce → h.xidRep < b.2)
    (silent : ∀ s h rep, t = .record s h rep → 0 < h.cltNonce → Silent sv.filter h.cltNonce h.xid) :
    Reading sv' u := by
  refine ⟨reading.named, fun b borrowed => ?_⟩
  obtain ⟨pos, above, r, member, same, present, bytes⟩ := reading.lends b borrowed
  rw [← same] at above ⊢
  have kept := acted_entry step sorted member above
    (fun h checks here => same ▸ low h checks b borrowed here) ?_
  · exact ⟨pos, kept.2, r, kept.1, rfl, present, bytes⟩
  · rintro s h rep rfl ⟨here, xid⟩
    have absent := (silent s h rep rfl (here ▸ pos)).2 r (here ▸ member) xid.symm
    rw [present] at absent
    cases absent

theorem acted_record [DecidableEq ς] {s : ς} {h : RequestHeader} {rep : Marshall}
    {l : ServerLabel S ς} {ts : List (ServerTask S ς)} {os : List (ς × S.Buf)}
    (step : Acted sv (.record s h rep) l sv' ts os) (n : UInt32) (x : Nat) :
    weigh (pending n x) ts = 0 := by
  cases step with
  | recorded | recordThrew | bufThrew => rfl

theorem acted_reading [DecidableEq ς] {t : ServerTask S ς} {l : ServerLabel S ς}
    {ts : List (ServerTask S ς)} {os : List (ς × S.Buf)} (step : Acted sv t l sv' ts os)
    (sorted : sv.filter.Sorted) (reading : Reading sv t) : ∀ u ∈ ts, Reading sv' u := by
  intro u member
  cases step with
  | acceptFailed | receiveFailed | dispatchThrew | invokeThrew | answerThrew | raised | recordThrew
    | bufThrew => cases member
  | accepted =>
      rcases List.mem_pair.mp member with rfl | rfl
      · exact reading_idle trivial rfl
      · exact reading_idle trivial rfl
  | received | invoked | recording | answered | recorded =>
      cases List.mem_singleton.mp member
      exact reading_idle trivial rfl
  | dispatched ok =>
      cases List.mem_singleton.mp member
      cases dispatched ok with
      | filtered _ _ _ pos => exact reading_idle pos rfl
      | oldServer | plain => exact reading_idle trivial rfl
  | newWindow =>
      cases List.mem_singleton.mp member
      exact reading_idle reading.named rfl
  | @check s h req =>
      cases List.mem_singleton.mp member
      cases verdict : (sv.filter.checkDuplicateAndUpdate S.empty h.cltNonce h.xid h.xidRep).1 with
      | new | inprogress | forgotten => exact reading_idle trivial rfl
      | done =>
          refine ⟨trivial, fun b borrowed => ?_⟩
          cases borrowed
          obtain ⟨r, inWindow, same, present⟩ := DupFilter.check_done_entry _ _ _ _ _ verdict
          exact ⟨reading.named, (DupFilter.check_live _ _ _ _ _ (.inr verdict)).1, r, inWindow, same,
            present, fun buf sent => nomatch sent⟩
  | @remembered s n x r inWindow same =>
      cases List.mem_singleton.mp member
      refine ⟨trivial, fun b borrowed => ?_⟩
      cases borrowed
      obtain ⟨pos, above, r', member', same', present, _⟩ := reading.lends (n, x) rfl
      have one : r' = r := (sorted n).unique member' inWindow (same'.trans same.symm)
      refine ⟨pos, above, r, inWindow, same, one ▸ present, fun buf sent => ?_⟩
      cases sent
      rfl
  | @transmitted s o buf =>
      cases List.mem_singleton.mp member
      have same : borrows (S := S) (.send s o buf true) = borrows (.send s o buf false) := by
        cases o <;> rfl
      refine ⟨trivial, ?_⟩
      rw [same]
      exact reading.lends
  | sent =>
      rw [mem_onSent member]
      exact reading_idle trivial rfl

/-- What is left in the window of a client is above what its request acknowledges. -/
theorem acted_check_above [DecidableEq ς] {s : ς} {h : RequestHeader} {req : Unmarshall}
    {l : ServerLabel S ς} {ts : List (ServerTask S ς)} {os : List (ς × S.Buf)}
    (step : Acted sv (.check s h req) l sv' ts os) (sorted : sv.filter.Sorted) {r : ReplyT S.Buf}
    (member : r ∈ sv'.filter.window h.cltNonce) : h.xidRep < r.xid := by
  cases step with
  | check =>
      rw [DupFilter.check_window, if_pos rfl,
        DupFilter.trim_eq_filter (DupFilter.judge_ascending _ _ _ _ _ sorted)] at member
      have above := of_decide_eq_true (List.mem_filter.mp member).2
      rw [DupFilter.newAck_eq_max] at above
      exact (Nat.le_max_right _ _).trans_lt above

theorem dispatch_pending {s : ς} {buf : S.Buf} {t : ServerTask S ς} (ok : sv.dispatch s buf = .ok t)
    (pos : 0 < n) (x : Nat) : pending n x t = 0 := by
  cases dispatched ok with
  | oldServer | filtered => rfl
  | plain _ _ _ zero => exact if_neg (anonymous_ne pos zero x _)

/-- Only NEW starts the work on an xid. -/
theorem acted_starts [DecidableEq ς] {t : ServerTask S ς} {l : ServerLabel S ς}
    {ts : List (ServerTask S ς)} {os : List (ς × S.Buf)} (step : Acted sv t l sv' ts os)
    (sorted : sv.filter.Sorted) (pos : 0 < n) (idle : pending n x t = 0)
    (starts : weigh (pending n x) ts ≠ 0) : Silent sv'.filter n x := by
  cases step with
  | dispatched ok =>
      rw [weigh_cons, dispatch_pending ok pos] at starts
      exact absurd rfl starts
  | @check s h req =>
      cases verdict : (sv.filter.checkDuplicateAndUpdate S.empty h.cltNonce h.xid h.xidRep).1 with
      | new =>
          rw [verdict] at starts
          have same : (h.cltNonce, h.xid) = (n, x) := by
            by_contra other
            exact starts (by simp [onVerdict, pending, other])
          cases same
          exact check_new_silent sorted verdict
      | inprogress | done | forgotten =>
          rw [verdict] at starts
          exact absurd rfl starts
  | invoked | recording => exact absurd idle starts
  | sent =>
      rw [weigh_onSent fun _ => rfl] at starts
      exact absurd rfl starts
  | _ => exact absurd rfl starts

/-- At most one dispatch works on an xid, the entry of which has no reply before it ends;
and the entries that are being sent are there. -/
structure Lent (c : Cfg (RpcServer S ς) (ServerTask S ς)) : Prop where
  sorted : c.shared.filter.Sorted
  alone : ∀ n x, 0 < n → weigh (pending n x) c.pool ≤ 1
  silent : ∀ n x, 0 < n → weigh (pending n x) c.pool ≠ 0 → Silent c.shared.filter n x
  reading : ∀ t ∈ c.pool, Reading c.shared t

variable {c c' : Cfg (RpcServer S ς) (ServerTask S ς)} {m : Move (ServerLabel S ς) ServerEvent}
  {os : List (ς × S.Buf)}

theorem start_lent (nonce : UInt32) : Lent (start S ς nonce) := by
  refine ⟨fun _ => List.Pairwise.nil, fun n x _ => Nat.zero_le _, fun n x _ some => absurd rfl some,
    fun t member => ?_⟩
  cases List.mem_singleton.mp member
  exact reading_idle trivial rfl

theorem Lent.recording {i : Nat} {s : ς} {h : RequestHeader} {rep : Marshall} (lent : Lent c)
    (taken : c.pool[i]? = some (.record s h rep)) (pos : 0 < h.cltNonce) :
    Silent c.shared.filter h.cltNonce h.xid := by
  apply lent.silent h.cltNonce h.xid pos
  have mine : pending h.cltNonce h.xid (.record s h rep : ServerTask S ς) = 1 := if_pos rfl
  have part := weigh_pos (w := pending h.cltNonce h.xid) (List.mem_of_getElem? taken)
  omega

/-- Whoever works on an xid goes on until it is recorded, and nobody else begins. -/
theorem Lent.works [DecidableEq ς] (h : Lent c) (moved : (machine S ς).Moved c c' os m) (pos : 0 < n)
    (x : Nat) : weigh (pending n x) c'.pool ≤ 1 ∧
      (weigh (pending n x) c'.pool ≠ 0 → Silent c'.shared.filter n x) := by
  have alone := h.alone n x pos
  have silent := h.silent n x pos
  cases moved with
  | spawn ts ran quiet left =>
      obtain ⟨ps, shared, rfl⟩ := spawn_spec ran
      rw [left, shared]
      exact ⟨alone, silent⟩
  | @act i l t rest ts taken split ran left =>
      have step := acted ran
      have account := weigh_act (pending n x) split left
      have mine := weigh_pos (w := pending n x) (List.mem_of_getElem? taken)
      have apart : ∀ s buf u, t = .dispatch s buf → c.shared.dispatch s buf = .ok u →
          pending n x u = 0 := fun s buf u _ ok => dispatch_pending ok pos x
      rcases acted_pending step h.sorted n x apart with fewer | ⟨one, idle, free⟩
      · refine ⟨by omega, fun some => ?_⟩
        apply acted_silent step (silent (by omega))
        rintro s hd rep rfl ⟨rfl, rfl⟩
        have last : weigh (pending hd.cltNonce hd.xid) ts = 0 := acted_record step _ _
        have whole : pending hd.cltNonce hd.xid (.record s hd rep : ServerTask S ς) = 1 := if_pos rfl
        omega
      · have none : weigh (pending n x) c.pool = 0 := by
          by_contra some
          exact free (silent some).1
        exact ⟨by omega, fun _ => acted_starts step h.sorted pos idle (by omega)⟩

theorem Lent.move [DecidableEq ς] (h : Lent c) (moved : (machine S ς).Moved c c' os m)
    (unread : AcksUnread c m) : Lent c' := by
  refine ⟨?_, fun n x pos => (h.works moved pos x).1, fun n x pos => (h.works moved pos x).2, ?_⟩
  · cases moved with
    | act t rest ts taken split ran left => exact acted_sorted (acted ran) h.sorted
    | spawn ts ran quiet left =>
        obtain ⟨ps, shared, _⟩ := spawn_spec ran
        rw [shared]
        exact h.sorted
  · have holds : Holds (fun _ => True) Reading c := ⟨trivial, h.reading⟩
    refine (holds.move (I := fun _ => True) moved ?_ ?_).task
    · rintro i l t rest ts rfl taken split reading ran
      have step := acted ran
      refine ⟨trivial, acted_reading step h.sorted reading, fun u stays reading' => ?_⟩
      apply reading'.stable step h.sorted
      · intro hd checks b borrowed
        exact unread t taken hd checks u (split.mem_iff.mpr (List.mem_cons_of_mem t stays)) b borrowed
      · rintro s hd rep rfl pos
        exact h.recording taken pos
    · rintro e ts rfl ran
      obtain ⟨ps, shared, rfl⟩ := spawn_spec ran
      refine ⟨trivial, fun u member => absurd member List.not_mem_nil, fun u _ reading => ?_⟩
      rw [shared]
      exact ⟨reading.named, reading.lends⟩

theorem reachable_lent [DecidableEq ς] {nonce : UInt32}
    (run : Reachable (machine S ς).system AcksUnread (start S ς nonce) c) : Lent c := by
  apply Machine.invariant run (start_lent nonce)
  intro c m c' os lent unread moved
  exact lent.move moved unread

theorem Lent.staysPut [DecidableEq ς] (h : Lent c) (moved : (machine S ς).Moved c c' os m)
    (unread : AcksUnread c m) : StaysPut c c' := by
  intro u here b borrowed r member same
  obtain ⟨pos, above, r', member', same', present, _⟩ := (h.reading u here).lends b borrowed
  cases (h.sorted b.1).unique member member' (same.trans same'.symm)
  cases moved with
  | spawn ts ran quiet left =>
      obtain ⟨ps, shared, _⟩ := spawn_spec ran
      rw [shared]
      exact member
  | act t rest ts taken split ran left =>
      rw [← same] at above
      refine (acted_entry (acted ran) h.sorted member above ?_ ?_).1
      · intro hd checks mine
        rw [same]
        exact unread t taken hd checks u here b borrowed mine
      · rintro s hd rep rfl ⟨mine, xid⟩
        have absent := (h.recording taken (mine ▸ pos)).2 r (mine ▸ member) xid.symm
        rw [present] at absent
        cases absent

/-- An acknowledgement trims the entry that is being read. -/
theorem Lent.unread [DecidableEq ς] (h : Lent c) (moved : (machine S ς).Moved c c' os m)
    (stays : StaysPut c c') : AcksUnread c m := by
  cases moved with
  | spawn => trivial
  | @act i l t rest ts taken split ran left =>
      intro t' taken' hd checks u here b borrowed mine
      cases taken.symm.trans taken'
      obtain ⟨_, _, r, member, same, _⟩ := (h.reading u here).lends b borrowed
      have kept := stays u here b borrowed r member same
      cases t with
      | check s hd' req =>
          cases checks
          rw [mine] at kept
          exact same ▸ acted_check_above (acted ran) h.sorted kept
      | _ => cases checks

/-- As long as no request acknowledges a reply while it is sent again, every entry that is
being read is in the window with the bytes of its `Send`; and a step leaves these entries
as they are if and only if it is no such request. -/
theorem remembered_stay_put [DecidableEq ς] (nonce : UInt32)
    (c : Cfg (RpcServer S ς) (ServerTask S ς))
    (run : Reachable (machine S ς).system AcksUnread (start S ς nonce) c) :
    (∀ t ∈ c.pool, Remembers c.shared t) ∧
      ∀ m c', (machine S ς).system.next c m = some c' → (StaysPut c c' ↔ AcksUnread c m) := by
  have lent := reachable_lent run
  constructor
  · intro t member b borrowed
    exact ((lent.reading t member).lends b borrowed).2.2
  · intro m c' moved
    obtain ⟨os, moved⟩ := Machine.moved_of_system moved
    exact ⟨lent.unread moved, lent.staysPut moved⟩

/-- Client 5 binds over connection 0 and its request comes once more, so that the
remembered reply is being sent; meanwhile it has opened connection 1. -/
def repeatedBind : List (Move (ServerLabel .sample Nat) ServerEvent) :=
  let bind : Json := (requestDoc .sample ⟨2, BIND, 5, 0, 0⟩ (0 : UInt32)).json
  [.spawn (.register 7), .act 0 (.accepted 0 .ok), .act 1 (.accepted 1 .ok),
    .act 2 (.received bind .ok), .act 0 .go, .act 0 .go, .act 0 .go, .act 0 .go, .act 0 .go,
    .act 0 .go, .act 0 .transmit, .act 0 (.sent .ok), .act 0 (.received bind .ok), .act 0 .go,
    .act 0 .go, .act 0 .go, .act 0 .go]

theorem repeatedBind_run :
    ∃ c, (machine .sample Nat).system.exec (fun c m => decide (AcksUnread c m)) (start .sample Nat 77)
        repeatedBind = some c ∧ ∃ t ∈ c.pool, borrows t = some (5, 2) :=
  System.exec_any (by decide +kernel)

theorem remembered_stay_put_repeated : ∃ c,
    Reachable (machine .sample Nat).system AcksUnread (start .sample Nat 77) c ∧
      ∃ r ∈ c.shared.filter.window 5, r.xid = 2 ∧ r.cbPresent = true := by
  obtain ⟨c, ran, t, here, borrowed⟩ := repeatedBind_run
  have run := (System.exec_reachable ran).mono fun _ _ met => of_decide_eq_true met
  obtain ⟨r, member, same, present, _⟩ :=
    (remembered_stay_put 77 c run).1 t here (5, 2) borrowed
  exact ⟨c, run, r, member, same, present⟩

/-- Over connection 1 it calls procedure 7 and acknowledges the first reply to its `Bind`. -/
def acknowledgedElsewhere : List (Move (ServerLabel .sample Nat) ServerEvent) :=
  let call : Json := (requestDoc .sample ⟨3, 7, 5, 77, 2⟩ (1 : UInt32)).json
  repeatedBind ++ [.act 1 (.received call .ok), .act 0 .go, .act 0 .go, .act 0 .go]

theorem acknowledgedElsewhere_run :
    ∃ c, (machine .sample Nat).system.exec (fun _ _ => true) (start .sample Nat 77)
        acknowledgedElsewhere = some c ∧ (∃ t ∈ c.pool, borrows t = some (5, 2)) ∧
      (c.shared.filter.window 5).map ReplyT.xid = [3] :=
  System.exec_any (by decide +kernel)

theorem remembered_trimmed : ¬ ∀ (nonce : UInt32)
    (c : Cfg (RpcServer .sample Nat) (ServerTask .sample Nat)),
    Reachable (machine .sample Nat).system anyStep (start .sample Nat nonce) c →
      ∀ t ∈ c.pool, Remembers c.shared t := by
  intro always
  obtain ⟨c, ran, ⟨t, here, borrowed⟩, left⟩ := acknowledgedElsewhere_run
  obtain ⟨r, member, same, _⟩ :=
    always 77 c (System.exec_reachable ran).any t here (5, 2) borrowed
  have listed : r.xid ∈ (c.shared.filter.window 5).map ReplyT.xid := List.mem_map_of_mem member
  rw [left, List.mem_singleton, same] at listed
  cases listed

end AsyncRpc.RpcServer
