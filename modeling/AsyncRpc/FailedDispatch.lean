import AsyncRpc.RpcServer

/-! A `Dispatch` that throws, with no other activity in between. -/
namespace AsyncRpc
open Interleaving Transition

namespace DupFilter

variable {β : Type}

/-- The same entries and the same acknowledgements, where an absent window is an empty
one. -/
def Same (f f' : DupFilter β) : Prop :=
  f'.window = f.window ∧ f'.maxAckowledgedRep = f.maxAckowledgedRep

def entriesOf (f : DupFilter β) (n : UInt32) (x : Nat) : Nat :=
  (f.window n).countP fun r => r.xid = x

theorem Same.refl (f : DupFilter β) : f.Same f := ⟨rfl, rfl⟩

theorem Same.createWindow {f f' : DupFilter β} (same : f.Same f') (m : UInt32) :
    f.Same (f'.createWindow m) := by
  constructor
  · funext n
    rw [createWindow_window, same.1]
  · rw [createWindow_ack, same.2]

theorem Same.entriesOf {f f' : DupFilter β} (same : f.Same f') (n : UInt32) (x : Nat) :
    f'.entriesOf n x = f.entriesOf n x := by
  unfold DupFilter.entriesOf
  rw [same.1]

theorem Same.verdict {f f' : DupFilter β} (same : f.Same f') (empty : β) (n : UInt32)
    (xid xidRep : Nat) : (checkDuplicateAndUpdate empty f' n xid xidRep).1 =
      (checkDuplicateAndUpdate empty f n xid xidRep).1 := by
  have marks : f'.newAck n xidRep = f.newAck n xidRep := by
    unfold newAck
    rw [same.2]
  unfold checkDuplicateAndUpdate judge
  rw [marks, same.1]

theorem trim_countP {ack x : Nat} (above : ack < x) (w : List (ReplyT β)) :
    (trim ack w).countP (fun r => r.xid = x) = w.countP fun r => r.xid = x := by
  induction w with
  | nil => rfl
  | cons r rest ih =>
      by_cases acked : r.xid ≤ ack
      · have other : r.xid ≠ x := by omega
        rw [trim, if_pos acked, ih, List.countP_cons_of_neg (by simpa using other)]
      · rw [trim, if_neg acked]

/-- A NEW verdict adds an entry, and no trim takes it away again. -/
theorem check_new_entriesOf (empty : β) (f : DupFilter β) (m : UInt32) (xid xidRep : Nat)
    (new : (checkDuplicateAndUpdate empty f m xid xidRep).1 = .new) :
    (checkDuplicateAndUpdate empty f m xid xidRep).2.entriesOf m xid = f.entriesOf m xid + 1 := by
  have unacked : ¬ xid ≤ f.newAck m xidRep := by
    intro acked
    rw [newAck_eq_max, ← check_forgotten_iff empty f m xid xidRep, new] at acked
    cases acked
  have scanned := scan_scanned empty xid (f.window m)
  simp only [checkDuplicateAndUpdate, judge, if_neg unacked] at new
  rw [new] at scanned
  unfold entriesOf
  rw [check_window, if_pos rfl, judge, if_neg unacked, trim_countP (Nat.lt_of_not_le unacked)]
  generalize (scan empty xid (f.window m)).2 = left at scanned
  cases scanned with
  | new below above split =>
      rw [split, List.countP_append, List.countP_append, List.countP_cons_of_pos (by simp [ReplyT.fresh])]
      rfl

end DupFilter

namespace RpcServer

variable {S : Services} {ς : Type}

/-- What the registered handlers make of their arguments; `none` is an exception. -/
abbrev Handlers (S : Services) := (p : Nat) → S.Args p → Option (S.Rep p × Err)

/-- `Dispatch` goes on by itself until it has handed an operation to the socket. -/
def onward (handlers : Handlers S) : ServerTask S ς → Option (ServerLabel S ς)
  | .accept | .receive _ | .send _ _ _ _ => none
  | .running _ h args =>
      if BIND = h.proc then some .go
      else match handlers h.proc args with
        | some (r, e) => some (.returns h.proc r e)
        | none => some .raises
  | _ => some .go

theorem onward_running {handlers : Handlers S} {s : ς} {h : RequestHeader} {args : S.Args h.proc}
    {l : ServerLabel S ς} (picked : onward handlers (.running s h args) = some l) :
    (BIND = h.proc ∧ l = .go) ∨
      (∃ r e, BIND ≠ h.proc ∧ handlers h.proc args = some (r, e) ∧ l = .returns h.proc r e) ∨
      (BIND ≠ h.proc ∧ handlers h.proc args = none ∧ l = .raises) := by
  simp only [onward] at picked
  split_ifs at picked with isBind
  · cases picked
    exact .inl ⟨isBind, rfl⟩
  · cases result : handlers h.proc args with
    | none =>
        rw [result] at picked
        cases picked
        exact .inr (.inr ⟨isBind, rfl, rfl⟩)
    | some made =>
        obtain ⟨r, e⟩ := made
        rw [result] at picked
        cases picked
        exact .inr (.inl ⟨r, e, isBind, rfl, rfl⟩)

/-- The sections that `Dispatch` still has to run, at most. -/
def stage : ServerTask S ς → Nat
  | .dispatch _ _ => 6
  | .newWindow _ _ _ => 5
  | .check _ _ _ => 4
  | .invoke _ _ _ => 3
  | .running _ _ _ => 2
  | .record _ _ _ | .remembered _ _ _ => 1
  | .accept | .receive _ | .send _ _ _ _ => 0

/-- The operation that a dispatch hands to its socket. -/
def Operation (s : ς) (t : ServerTask S ς) : Prop :=
  t = .receive s ∨ ∃ o buf, t = .send s o buf false

/-- The connection that an activity works for. -/
def socketOf : ServerTask S ς → Option ς
  | .accept => none
  | .receive s | .dispatch s _ | .newWindow s _ _ | .check s _ _ | .invoke s _ _ | .running s _ _
  | .record s _ _ | .remembered s _ _ | .send s _ _ _ => some s

/-- A section led to the next one of its dispatch, or to the operation at its end. -/
structure LedOn (sv sv' : RpcServer S ς) (t u : ServerTask S ς) : Prop where
  quiet : sv'.escaped = sv.escaped
  socket : socketOf u = socketOf t
  lower : stage u < stage t

theorem dispatched_ledOn {sv : RpcServer S ς} {s : ς} {buf : S.Buf} {t : ServerTask S ς}
    (ok : sv.dispatch s buf = .ok t) : LedOn sv sv (.dispatch s buf) t := by
  cases dispatched ok <;> exact ⟨rfl, rfl, by simp [stage]⟩

theorem onVerdict_ledOn {sv sv' : RpcServer S ς} (quiet : sv'.escaped = sv.escaped) (s : ς)
    (h : RequestHeader) (req : Unmarshall) (verdict : State) :
    LedOn sv sv' (.check s h req) (onVerdict s h req verdict) := by
  cases verdict <;> exact ⟨quiet, rfl, by simp [onVerdict, stage]⟩

/-- The section ends in the next one of its dispatch, or throws. -/
def LeadsOn (sv : RpcServer S ς) (t : ServerTask S ς) (r : RpcServer S ς × List (ServerTask S ς)) :
    Prop :=
  (∃ u, r.2 = [u] ∧ LedOn sv r.1 t u) ∨ (r.2 = [] ∧ ∃ e, r.1.escaped = e :: sv.escaped)

theorem reply_leadsOn {sv sv' : RpcServer S ς} {t : ServerTask S ς} {s : ς}
    (quiet : sv'.escaped = sv.escaped) (socket : socketOf t = some s) (unended : 0 < stage t)
    (rep : Marshall) : LeadsOn sv t (sv'.reply s rep) := by
  unfold reply
  split
  · exact .inl ⟨_, rfl, quiet, socket.symm, unended⟩
  · exact .inr ⟨rfl, _, congrArg (List.cons _) quiet⟩

theorem finish_leadsOn (sv : RpcServer S ς) (s : ς) (h : RequestHeader) (args : S.Args h.proc)
    (r : S.Rep h.proc) (e : Err) : LeadsOn sv (.running s h args) (sv.finish s h args r e) := by
  unfold finish
  split_ifs
  · exact .inl ⟨_, rfl, rfl, rfl, Nat.lt_succ_self 1⟩
  · exact reply_leadsOn (by rfl) (by rfl) (by simp [stage]) _

theorem record_leadsOn (sv : RpcServer S ς) (s : ς) (h : RequestHeader) (rep : Marshall) :
    LeadsOn sv (.record s h rep) (sv.record s h rep) := by
  unfold record
  split
  · exact reply_leadsOn (by rfl) (by rfl) (by simp [stage]) rep
  · exact .inr ⟨rfl, _, rfl⟩

/-- A request for this instance and a registered procedure. -/
def Admits (sv : RpcServer S ς) (buf : S.Buf) (h : RequestHeader) (req : Unmarshall) : Prop :=
  Reads buf h req ∧ (h.srvNonce ≠ 0 → h.srvNonce = sv.nonce) ∧ h.proc ∈ sv.procs

/-- Such a request that names its client, and so goes through the filter. -/
def AsksFilter (sv : RpcServer S ς) (buf : S.Buf) : Prop :=
  ∃ h req, sv.Admits buf h req ∧ 0 < h.cltNonce

/-- The handler is called for the request. -/
def Calls (sv : RpcServer S ς) (h : RequestHeader) : Prop :=
  h.cltNonce = 0 ∨ (sv.filter.checkDuplicateAndUpdate S.empty h.cltNonce h.xid h.xidRep).1 = .new

/-- The arguments unmarshal, and the handler returns a result that can be dumped. -/
def Returns (handlers : Handlers S) (h : RequestHeader) (req : Unmarshall) : Prop :=
  ∃ args, (req.get (S.args h.proc)).1 = .ok args ∧ (BIND = h.proc ∨
    ∃ r e, handlers h.proc args = some (r, e) ∧ ((S.rep h.proc).toJson r).utf8)

/-- The buffer holds a request for an old instance, or one for this instance on which no
handler fails. -/
def Answers (sv : RpcServer S ς) (handlers : Handlers S) (buf : S.Buf) : Prop :=
  (∃ h req, Reads buf h req ∧ h.srvNonce ≠ 0 ∧ h.srvNonce ≠ sv.nonce) ∨
    ∃ h req, sv.Admits buf h req ∧ (sv.Calls h → Returns handlers h req)

theorem Reads.unique {buf : S.Buf} {h h' : RequestHeader} {req req' : Unmarshall}
    (reads : Reads buf h req) (reads' : Reads buf h' req') : h = h' ∧ req = req' := by
  cases reads.1.symm.trans reads'.1
  cases reads.2.symm.trans reads'.2
  exact ⟨rfl, rfl⟩

section Outcome

variable {sv sv' : RpcServer S ς} {handlers : Handlers S} {buf : S.Buf} {h : RequestHeader}
  {req : Unmarshall}

theorem dispatch_oldServer (reads : Reads buf h req) (bound : h.srvNonce ≠ 0)
    (other : h.srvNonce ≠ sv.nonce) (s : ς) : ∃ t, sv.dispatch s buf = .ok t := by
  simp only [dispatch, reads.1, reads.2, bind, Except.bind, pure, Except.pure]
  rw [if_pos ⟨bound, other⟩]
  exact ⟨_, rfl⟩

theorem dispatch_admits (admits : sv.Admits buf h req) (s : ς) : ∃ t, sv.dispatch s buf = .ok t := by
  obtain ⟨reads, current, known⟩ := admits
  simp only [dispatch, reads.1, reads.2, bind, Except.bind, pure, Except.pure]
  rw [if_neg fun old => old.2 (current old.1), if_neg (not_not.mpr known)]
  split_ifs
  · exact ⟨_, rfl⟩
  · exact ⟨_, rfl⟩

theorem dispatch_error (handlers : Handlers S) {s : ς} {e : Exn}
    (threw : sv.dispatch s buf = .error e) : ¬ sv.AsksFilter buf ∧ ¬ sv.Answers handlers buf := by
  have refused : ∀ t, sv.dispatch s buf ≠ .ok t := by
    intro t ok
    rw [threw] at ok
    cases ok
  constructor
  · rintro ⟨h, req, admits, _⟩
    obtain ⟨t, ok⟩ := dispatch_admits admits s
    exact refused t ok
  · rintro (⟨h, req, reads, bound, other⟩ | ⟨h, req, admits, _⟩)
    · obtain ⟨t, ok⟩ := dispatch_oldServer reads bound other s
      exact refused t ok
    · obtain ⟨t, ok⟩ := dispatch_admits admits s
      exact refused t ok

/-- A handler that is called and fails. -/
theorem Admits.unanswered (admits : sv.Admits buf h req) (calls : sv.Calls h)
    (fails : ¬ Returns handlers h req) : ¬ sv.Answers handlers buf := by
  rintro (⟨h', req', reads, bound, other⟩ | ⟨h', req', ⟨reads, _⟩, answers⟩)
  · obtain ⟨rfl, rfl⟩ := reads.unique admits.1
    exact other (admits.2.1 bound)
  · obtain ⟨rfl, rfl⟩ := reads.unique admits.1
    exact fails (answers calls)

/-- What a handler that failed leaves of the filter of before. -/
def Left (sv sv' : RpcServer S ς) (h : RequestHeader) : Prop :=
  (h.cltNonce = 0 ∧ sv.filter.Same sv'.filter) ∨ (0 < h.cltNonce ∧
    sv'.filter.entriesOf h.cltNonce h.xid = sv.filter.entriesOf h.cltNonce h.xid + 1)

theorem Left.same_iff (left : Left sv sv' h) (admits : sv.Admits buf h req) :
    sv.filter.Same sv'.filter ↔ ¬ sv.AsksFilter buf := by
  obtain ⟨zero, same⟩ | ⟨pos, more⟩ := left
  · refine ⟨fun _ => ?_, fun _ => same⟩
    rintro ⟨h', req', admits', pos⟩
    rw [(admits'.1.unique admits.1).1] at pos
    exact absurd zero (UInt32.pos_iff_ne_zero.mp pos)
  · refine ⟨fun same => ?_, fun none => absurd ⟨h, req, admits, pos⟩ none⟩
    rw [same.entriesOf] at more
    exact absurd more (Nat.succ_ne_self _).symm

theorem Left.entry (left : Left sv sv' h) (pos : 0 < h.cltNonce) :
    ∃ r ∈ sv'.filter.window h.cltNonce, r.xid = h.xid := by
  obtain ⟨zero, _⟩ | ⟨_, more⟩ := left
  · exact absurd zero (UInt32.pos_iff_ne_zero.mp pos)
  · have some : 0 < sv'.filter.entriesOf h.cltNonce h.xid := more ▸ Nat.succ_pos _
    simpa [DupFilter.entriesOf, List.countP_pos_iff] using some

/-- What a dispatch of `buf` knows in each of its sections, when `sv` was the server it
started from. -/
def Along (sv : RpcServer S ς) (handlers : Handlers S) (buf : S.Buf) (sv' : RpcServer S ς) :
    ServerTask S ς → Prop
  | .accept => True
  | .dispatch _ buf' => buf' = buf ∧ sv' = sv
  | .newWindow _ h req | .check _ h req =>
      sv.Admits buf h req ∧ 0 < h.cltNonce ∧ sv.filter.Same sv'.filter
  | .invoke _ h req => sv.Admits buf h req ∧ sv.Calls h ∧ Left sv sv' h
  | .running _ h args => (∃ req, sv.Admits buf h req ∧ (req.get (S.args h.proc)).1 = .ok args) ∧
      sv.Calls h ∧ Left sv sv' h
  | .record _ h rep => (∃ req, sv.Admits buf h req) ∧ (sv.Answers handlers buf ↔ rep.json.utf8) ∧
      0 < h.cltNonce ∧ Left sv sv' h
  | .remembered _ n x => sv.Answers handlers buf ∧ ∃ r ∈ sv'.filter.window n, r.xid = x
  | .receive _ => sv.Answers handlers buf
  | .send _ _ _ transmitted => sv.Answers handlers buf ∧ transmitted = false

theorem dispatched_along {s : ς} {t : ServerTask S ς} (ok : sv.dispatch s buf = .ok t) :
    Along sv handlers buf sv t := by
  cases dispatched ok with
  | oldServer reads bound other => exact ⟨.inl ⟨_, _, reads, bound, other⟩, rfl⟩
  | filtered reads current known pos => exact ⟨⟨reads, current, known⟩, pos, .refl _⟩
  | plain reads current known zero => exact ⟨⟨reads, current, known⟩, .inl zero, .inl ⟨zero, .refl _⟩⟩

theorem onVerdict_along {s : ς} {verdict : State} {f : DupFilter S.Buf}
    (admits : sv.Admits buf h req) (pos : 0 < h.cltNonce) (same : sv.filter.Same sv'.filter)
    (checked : sv'.filter.checkDuplicateAndUpdate S.empty h.cltNonce h.xid h.xidRep = (verdict, f)) :
    Along sv handlers buf { sv' with filter := f } (onVerdict s h req verdict) := by
  have before : (sv.filter.checkDuplicateAndUpdate S.empty h.cltNonce h.xid h.xidRep).1 = verdict := by
    rw [← same.verdict, checked]
  have answers : verdict ≠ .new → sv.Answers handlers buf := by
    intro old
    refine .inr ⟨h, req, admits, fun calls => ?_⟩
    rcases calls with zero | new
    · exact absurd zero (UInt32.pos_iff_ne_zero.mp pos)
    · exact absurd (before.symm.trans new) old
  cases verdict with
  | new =>
      refine ⟨admits, .inr before, .inr ⟨pos, ?_⟩⟩
      have more := DupFilter.check_new_entriesOf S.empty sv'.filter h.cltNonce h.xid h.xidRep
        (congrArg Prod.fst checked)
      rw [checked, same.entriesOf] at more
      exact more
  | inprogress => exact answers (by decide)
  | done =>
      obtain ⟨r, member, xid, _⟩ := DupFilter.check_done_entry S.empty sv'.filter h.cltNonce h.xid
        h.xidRep (congrArg Prod.fst checked)
      rw [checked] at member
      exact ⟨answers (by decide), r, member, xid⟩
  | forgotten => exact ⟨answers (by decide), rfl⟩

/-- Once the handler has returned, all depends on its result. -/
theorem returned_answers {s : ς} {args : S.Args h.proc} {l : ServerLabel S ς} {r : S.Rep h.proc}
    {e : Err} (admits : sv.Admits buf h req) (read : (req.get (S.args h.proc)).1 = .ok args)
    (calls : sv.Calls h) (picked : onward handlers (.running s h args) = some l)
    (returned : Returned sv' h l r e) :
    sv.Answers handlers buf ↔ (replyDoc S h.proc ⟨h.xid, e⟩ r).json.utf8 := by
  rw [replyDoc_utf8]
  obtain ⟨isBind, rfl⟩ | ⟨r', e', other, result, rfl⟩ | ⟨_, _, rfl⟩ := onward_running picked
  · exact ⟨fun _ => S.bind_utf8 isBind r,
      fun _ => .inr ⟨h, req, admits, fun _ => ⟨args, read, .inl isBind⟩⟩⟩
  · cases returned
    constructor
    · intro answers
      by_contra refused
      refine admits.unanswered calls ?_ answers
      rintro ⟨args', read', isBind | ⟨r, e, result', text⟩⟩
      · exact other isBind
      · cases read.symm.trans read'
        cases result.symm.trans result'
        exact refused text
    · exact fun text => .inr ⟨h, req, admits, fun _ => ⟨args, read, .inr ⟨r, e, result, text⟩⟩⟩
  · cases returned

end Outcome

variable [DecidableEq ς]

/-- The section runs, and leads on or throws. -/
def Runs (sv : RpcServer S ς) (t : ServerTask S ς) (l : ServerLabel S ς) : Prop :=
  ∃ sv' ts os, sv.act t l = some (sv', ts, os) ∧ LeadsOn sv t (sv', ts)

/-- Until its dispatch is over an activity can run its next section; a remembered reply
needs its entry. -/
theorem act_onward {handlers : Handlers S} (sv : RpcServer S ς) {t : ServerTask S ς}
    {l : ServerLabel S ς} (picked : onward handlers t = some l)
    (there : ∀ s n x, t = .remembered s n x → ∃ r ∈ sv.filter.window n, r.xid = x) :
    Runs sv t l := by
  cases t with
  | accept | receive | send => cases picked
  | dispatch s buf =>
      cases picked
      cases result : sv.dispatch s buf with
      | error e => exact ⟨sv.throwing e, [], [], by simp [act, result], .inr ⟨rfl, e, rfl⟩⟩
      | ok t => exact ⟨sv, [t], [], by simp [act, result], .inl ⟨t, rfl, dispatched_ledOn result⟩⟩
  | newWindow s h req =>
      cases picked
      exact ⟨_, _, _, rfl, .inl ⟨_, rfl, rfl, rfl, by simp [stage]⟩⟩
  | check s h req =>
      cases picked
      exact ⟨_, _, _, rfl, .inl ⟨_, rfl, onVerdict_ledOn (by rfl) s h req _⟩⟩
  | invoke s h req =>
      cases picked
      cases read : (req.get (S.args h.proc)).1 with
      | error e =>
          exact ⟨{ sv with invoked := (h.cltNonce, h.xid) :: sv.invoked }.throwing e, [], [],
            by simp [act, read], .inr ⟨rfl, e, rfl⟩⟩
      | ok args =>
          exact ⟨{ sv with invoked := (h.cltNonce, h.xid) :: sv.invoked }, [.running s h args], [],
            by simp [act, read], .inl ⟨_, rfl, rfl, rfl, by simp [stage]⟩⟩
  | running s h args =>
      have returns : ∀ r e l, sv.act (.running s h args) l =
          some ((sv.finish s h args r e).1, (sv.finish s h args r e).2, []) →
          Runs sv (.running s h args) l :=
        fun r e l ran => ⟨_, _, _, ran, finish_leadsOn sv s h args r e⟩
      obtain ⟨isBind, rfl⟩ | ⟨r, e, other, _, rfl⟩ | ⟨other, _, rfl⟩ := onward_running picked
      · exact returns (isBind ▸ S.nonce.symm sv.nonce) .ok _ (by simp only [act, dif_pos isBind])
      · exact returns r e _ (by simp [act, other.symm])
      · exact ⟨sv.throwing .handler, [], [], by simp [act, other.symm], .inr ⟨rfl, _, rfl⟩⟩
  | record s h rep =>
      cases picked
      exact ⟨_, _, _, rfl, record_leadsOn sv s h rep⟩
  | remembered s n x =>
      cases picked
      obtain ⟨r, found⟩ : ∃ r, (sv.filter.window n).find? (fun r => r.xid = x) = some r := by
        rw [← Option.isSome_iff_exists, List.find?_isSome]
        simpa using there s n x rfl
      exact ⟨sv, [.send s (.remembered n x) r.buf false], [], by simp [act, found],
        .inl ⟨_, rfl, rfl, rfl, by simp [stage]⟩⟩

/-- `Dispatch` from the first section to the last. -/
def dispatchAlone (sv : RpcServer S ς) (handlers : Handlers S) (s : ς) (buf : S.Buf) :
    RpcServer S ς × List (ServerTask S ς) :=
  (machine S ς).alone (onward handlers) 7 sv (.dispatch s buf)

/-- It is a run of the server in which only this activity moves. -/
theorem dispatchAlone_reachable (sv : RpcServer S ς) (handlers : Handlers S) (s : ς) (buf : S.Buf)
    (rest : List (ServerTask S ς)) : Reachable (machine S ς).system anyStep
      ⟨sv, .dispatch s buf :: rest⟩
      ⟨(sv.dispatchAlone handlers s buf).1, (sv.dispatchAlone handlers s buf).2 ++ rest⟩ :=
  Machine.alone_reachable _ _ rest 7 sv _

section Outcome

variable {sv sv' sv'' : RpcServer S ς} {handlers : Handlers S} {buf : S.Buf} {t : ServerTask S ς}
  {l : ServerLabel S ς} {ts : List (ServerTask S ς)} {os : List (ς × S.Buf)}

theorem Along.acted (along : Along sv handlers buf sv' t) (picked : onward handlers t = some l)
    (step : Acted sv' t l sv'' ts os) : ∀ u ∈ ts, Along sv handlers buf sv'' u := by
  intro u member
  cases step with
  | acceptFailed | accepted | receiveFailed | received | transmitted | sent => cases picked
  | dispatchThrew | invokeThrew | raised | answerThrew | recordThrew | bufThrew => cases member
  | dispatched ok =>
      cases List.mem_singleton.mp member
      obtain ⟨rfl, rfl⟩ := along
      exact dispatched_along ok
  | newWindow =>
      cases List.mem_singleton.mp member
      exact ⟨along.1, along.2.1, along.2.2.createWindow _⟩
  | check =>
      cases List.mem_singleton.mp member
      exact onVerdict_along along.1 along.2.1 along.2.2 rfl
  | invoked read =>
      cases List.mem_singleton.mp member
      exact ⟨⟨_, along.1, read⟩, along.2⟩
  | recording returned pos =>
      cases List.mem_singleton.mp member
      obtain ⟨⟨req, admits, read⟩, calls, left⟩ := along
      exact ⟨⟨req, admits⟩, returned_answers admits read calls picked returned, pos, left⟩
  | answered returned _ written =>
      cases List.mem_singleton.mp member
      obtain ⟨⟨req, admits, read⟩, calls, _⟩ := along
      exact ⟨(returned_answers admits read calls picked returned).mpr (buf_ok_iff.mp written).1, rfl⟩
  | recorded _ written =>
      cases List.mem_singleton.mp member
      exact ⟨along.2.1.mpr (buf_ok_iff.mp written).1, rfl⟩
  | remembered =>
      cases List.mem_singleton.mp member
      exact ⟨along.1, rfl⟩

/-- Where an exception leaves `Dispatch`. -/
theorem Along.threw (along : Along sv handlers buf sv' t) (picked : onward handlers t = some l)
    (step : Acted sv' t l sv'' ts os) (threw : sv''.escaped ≠ sv'.escaped) :
    (sv.filter.Same sv''.filter ↔ ¬ sv.AsksFilter buf) ∧ ¬ sv.Answers handlers buf := by
  cases step with
  | dispatchThrew error =>
      obtain ⟨rfl, rfl⟩ := along
      obtain ⟨early, unanswered⟩ := dispatch_error handlers error
      exact ⟨⟨fun _ => early, fun _ => .refl _⟩, unanswered⟩
  | invokeThrew error =>
      obtain ⟨admits, calls, left⟩ := along
      refine ⟨left.same_iff admits, admits.unanswered calls ?_⟩
      rintro ⟨args, read, _⟩
      rw [error] at read
      cases read
  | @raised s h args other =>
      obtain ⟨⟨req, admits, read⟩, calls, left⟩ := along
      refine ⟨left.same_iff admits, admits.unanswered calls ?_⟩
      rintro ⟨args', read', isBind | returns⟩
      · exact other isBind.symm
      · cases read.symm.trans read'
        obtain ⟨r, e, result, _⟩ := returns
        obtain ⟨_, label⟩ | ⟨_, _, _, _, label⟩ | ⟨_, none, _⟩ := onward_running picked
        · cases label
        · cases label
        · cases none.symm.trans result
  | answerThrew returned zero refused =>
      obtain ⟨⟨req, admits, read⟩, calls, left⟩ := along
      refine ⟨left.same_iff admits, fun answers => ?_⟩
      have text := (returned_answers admits read calls picked returned).mp answers
      rw [(buf_error_iff.mp refused).1] at text
      cases text
  | recordThrew error =>
      obtain ⟨_, _, pos, left⟩ := along
      obtain ⟨r, member, same⟩ := left.entry pos
      exact absurd same (DupFilter.addReply_absent error r member)
  | bufThrew refused =>
      obtain ⟨⟨req, admits⟩, answers_iff, _, left⟩ := along
      refine ⟨left.same_iff admits, fun answers => ?_⟩
      rw [answers_iff, (buf_error_iff.mp refused).1] at answers
      cases answers
  | _ => exact absurd rfl threw

/-- How a dispatch ends: it has handed over its operation, or it has thrown. -/
def Ended (sv : RpcServer S ς) (handlers : Handlers S) (s : ς) (buf : S.Buf)
    (sv' : RpcServer S ς) (ts : List (ServerTask S ς)) : Prop :=
  (∃ t, ts = [t] ∧ Operation s t ∧ sv'.escaped = sv.escaped ∧ sv.Answers handlers buf) ∨
    (ts = [] ∧ (∃ e, sv'.escaped = e :: sv.escaped) ∧
      (sv.filter.Same sv'.filter ↔ ¬ sv.AsksFilter buf) ∧ ¬ sv.Answers handlers buf)

end Outcome

theorem dispatchAlone_ended (sv : RpcServer S ς) (handlers : Handlers S) (s : ς) (buf : S.Buf) :
    Ended sv handlers s buf (sv.dispatchAlone handlers s buf).1
      (sv.dispatchAlone handlers s buf).2 := by
  apply Machine.alone_rule (P := fun sv' t => Along sv handlers buf sv' t ∧
    socketOf t = some s ∧ sv'.escaped = sv.escaped) stage
  · rintro sv' t ⟨along, socket, quiet⟩ waits
    left
    cases t with
    | accept => cases socket
    | receive => cases socket; exact ⟨_, rfl, .inl rfl, quiet, along⟩
    | send s' o buf' sent =>
        cases socket
        obtain ⟨answers, rfl⟩ := along
        exact ⟨_, rfl, .inr ⟨o, buf', rfl⟩, quiet, answers⟩
    | running s' h args =>
        simp only [onward] at waits
        split_ifs at waits
        split at waits <;> cases waits
    | _ => cases waits
  · rintro sv' t l ⟨along, socket, quiet⟩ picked
    have there : ∀ s n x, t = .remembered s n x → ∃ r ∈ sv'.filter.window n, r.xid = x := by
      rintro s n x rfl
      exact along.2
    obtain ⟨sv'', ts, os, ran, ⟨u, rfl, led⟩ | ⟨rfl, e, threw⟩⟩ := act_onward sv' picked there
    · refine ⟨sv'', _, os, ran, .inl ⟨u, rfl, ⟨?_, ?_, ?_⟩, led.lower⟩⟩
      · exact along.acted picked (RpcServer.acted ran) u List.mem_cons_self
      · rw [led.socket, socket]
      · rw [led.quiet, quiet]
    · refine ⟨sv'', _, os, ran, .inr ⟨by simp, .inr ⟨rfl, ⟨e, quiet ▸ threw⟩, ?_⟩⟩⟩
      apply along.threw picked (RpcServer.acted ran)
      rw [threw]
      exact List.cons_ne_self e _
  · exact Nat.lt_succ_self 6
  · exact ⟨⟨rfl, rfl⟩, rfl, rfl⟩

/-- A dispatch that throws leaves the filter as it was if and only if its request did
not get as far as the filter. -/
theorem failed_dispatch_keeps_filter_iff (sv : RpcServer S ς) (handlers : Handlers S) (s : ς)
    (buf : S.Buf) (threw : (sv.dispatchAlone handlers s buf).1.escaped ≠ sv.escaped) :
    sv.filter.Same (sv.dispatchAlone handlers s buf).1.filter ↔ ¬ sv.AsksFilter buf := by
  obtain ⟨t, _, _, quiet, _⟩ | ⟨_, _, same, _⟩ := dispatchAlone_ended sv handlers s buf
  · exact absurd quiet threw
  · exact same

/-- A server with nonce 77 and procedure 7. -/
def serving : RpcServer .sample Nat := { nonce := 77, procs := [BIND, 7] }

def raising : Handlers .sample := fun _ _ => none

def returning : Handlers .sample := fun _ args => some (args, .ok)

/-- The request with xid 2 for procedure 7. -/
def requestFrom (cltNonce : UInt32) : Json :=
  (requestDoc .sample ⟨2, 7, cltNonce, 77, 0⟩ (1 : UInt32)).json.normal

theorem requestFrom_raises :
    (serving.dispatchAlone raising 0 (requestFrom 0)).1.escaped = [.handler] ∧
      (serving.dispatchAlone raising 0 (requestFrom 5)).1.escaped = [.handler] :=
  ⟨rfl, rfl⟩

theorem failed_dispatch_keeps_filter_iff_plain :
    serving.filter.Same (serving.dispatchAlone raising 0 (requestFrom 0)).1.filter := by
  have threw : (serving.dispatchAlone raising 0 (requestFrom 0)).1.escaped ≠ serving.escaped :=
    requestFrom_raises.1 ▸ List.cons_ne_nil _ _
  apply (failed_dispatch_keeps_filter_iff serving raising 0 (requestFrom 0) threw).mpr
  rintro ⟨h, req, ⟨reads, _⟩, pos⟩
  have plain : Reads (S := .sample) (requestFrom 0) ⟨2, 7, 0, 77, 0⟩ ⟨requestFrom 0, 0⟩ :=
    ⟨rfl, requestDoc_getRequest (S := .sample) ⟨2, 7, 0, 77, 0⟩ (1 : UInt32)⟩
  rw [(reads.unique plain).1] at pos
  exact absurd pos (by decide)

/-- The handler throws once; its entry stays, and the request sent again is taken for one
in progress. -/
theorem failed_dispatch_leaves_entry :
    (serving.dispatchAlone raising 0 (requestFrom 5)).1.escaped ≠ serving.escaped ∧
      ¬ serving.filter.Same (serving.dispatchAlone raising 0 (requestFrom 5)).1.filter ∧
      ((serving.dispatchAlone raising 0 (requestFrom 5)).1.dispatchAlone returning 0
        (requestFrom 5)).2 = [.receive 0] := by
  refine ⟨requestFrom_raises.2 ▸ List.cons_ne_nil _ _, fun same => ?_, rfl⟩
  have entries := same.entriesOf 5 2
  exact absurd entries (by decide)

end RpcServer

end AsyncRpc
