import AsyncRpc.AtMostOnce
import AsyncRpc.FailedDispatch
import AsyncRpc.ReplyHistory

/-! Which of the buffers that a peer may send the server can answer. -/
namespace AsyncRpc.RpcServer
open Interleaving Transition

variable {S : Services} {ς : Type}

/-- Handlers that do not throw. -/
def steady (handlers : (p : Nat) → S.Args p → S.Rep p × Err) : Handlers S :=
  fun p args => some (handlers p args)

/-- The buffer holds a request for an old instance, or one for a registered procedure
whose arguments unmarshal and give a result that can be dumped, unless the filter keeps
them from the handler. -/
def Answerable (sv : RpcServer S ς) (handlers : (p : Nat) → S.Args p → S.Rep p × Err)
    (buf : S.Buf) : Prop :=
  ∃ h req, Reads buf h req ∧ ((h.srvNonce ≠ 0 ∧ h.srvNonce ≠ sv.nonce) ∨ (h.proc ∈ sv.procs ∧
    (h.cltNonce = 0 ∨ (h.xidRep < h.xid ∧ ¬ sv.filter.Covers h.cltNonce h.xid) →
      ∃ args, (req.get (S.args h.proc)).1 = .ok args ∧
        (BIND = h.proc ∨ ((S.rep h.proc).toJson (handlers h.proc args).1).utf8))))

theorem calls_iff {sv : RpcServer S ς} (sorted : sv.filter.Sorted) (h : RequestHeader) :
    sv.Calls h ↔ h.cltNonce = 0 ∨
      (h.xidRep < h.xid ∧ ¬ sv.filter.Covers h.cltNonce h.xid) := by
  unfold Calls
  rw [DupFilter.check_new_iff _ _ _ sorted]
  apply or_congr_right
  unfold DupFilter.Covers
  constructor
  · rintro ⟨above, absent⟩
    refine ⟨(Nat.le_max_right _ _).trans_lt above, ?_⟩
    rintro (acked | ⟨r, member, same⟩)
    · exact absurd ((Nat.le_max_left _ _).trans_lt above) (Nat.not_lt_of_le acked)
    · exact absent r member same
  · rintro ⟨above, free⟩
    refine ⟨Nat.max_lt.mpr ⟨Nat.lt_of_not_le fun acked => free (.inl acked), above⟩, ?_⟩
    intro r member same
    exact free (.inr ⟨r, member, same⟩)

theorem answers_iff {sv : RpcServer S ς} (sorted : sv.filter.Sorted)
    (handlers : (p : Nat) → S.Args p → S.Rep p × Err) (buf : S.Buf) :
    sv.Answers (steady handlers) buf ↔ sv.Answerable handlers buf := by
  have returns : ∀ h req, Returns (steady handlers) h req ↔
      ∃ args, (req.get (S.args h.proc)).1 = .ok args ∧
        (BIND = h.proc ∨ ((S.rep h.proc).toJson (handlers h.proc args).1).utf8) := by
    intro h req
    refine exists_congr fun args => and_congr_right fun _ => or_congr_right ?_
    constructor
    · rintro ⟨r, e, result, text⟩
      rw [Option.some.inj result]
      exact text
    · exact fun text => ⟨_, _, rfl, text⟩
  constructor
  · rintro (⟨h, req, reads, old⟩ | ⟨h, req, ⟨reads, _, known⟩, answers⟩)
    · exact ⟨h, req, reads, .inl old⟩
    · refine ⟨h, req, reads, .inr ⟨known, fun calls => ?_⟩⟩
      exact (returns h req).mp (answers ((calls_iff sorted h).mpr calls))
  · rintro ⟨h, req, reads, old | ⟨known, answers⟩⟩
    · exact .inl ⟨h, req, reads, old⟩
    · by_cases old : h.srvNonce ≠ 0 ∧ h.srvNonce ≠ sv.nonce
      · exact .inl ⟨h, req, reads, old⟩
      · refine .inr ⟨h, req, ⟨reads, by simpa using old, known⟩, fun calls => ?_⟩
        exact (returns h req).mpr (answers ((calls_iff sorted h).mp calls))

theorem dispatchAlone_answers_iff [DecidableEq ς] {sv : RpcServer S ς} (sorted : sv.filter.Sorted)
    (handlers : (p : Nat) → S.Args p → S.Rep p × Err) (s : ς) (buf : S.Buf) :
    ((sv.dispatchAlone (steady handlers) s buf).1.escaped = sv.escaped ∧
      ∃ t, (sv.dispatchAlone (steady handlers) s buf).2 = [t] ∧ Operation s t) ↔
      sv.Answerable handlers buf := by
  rw [← answers_iff sorted handlers]
  obtain ⟨t, only, operation, quiet, answers⟩ | ⟨_, ⟨e, threw⟩, _, unanswered⟩ :=
    dispatchAlone_ended sv (steady handlers) s buf
  · exact ⟨fun _ => answers, fun _ => ⟨quiet, t, only, operation⟩⟩
  · refine ⟨fun done => ?_, fun answers => absurd answers unanswered⟩
    rw [threw] at done
    exact absurd done.1 (List.cons_ne_self e _)

/-! With other dispatches in between. -/

/-- The activity goes back to the entry of `n` and `x`. -/
def Uses (n : UInt32) (x : Nat) : ServerTask S ς → Prop
  | .invoke _ h _ | .running _ h _ | .record _ h _ => h.cltNonce = n ∧ h.xid = x
  | .remembered _ m y => m = n ∧ y = x
  | _ => False

/-- What an activity finds in its section: a request for an old instance or a registered
procedure, arguments that unmarshal, a result that can be dumped, and no other dispatch
of that client whose entry the request acknowledges. -/
def Handles (c : Cfg (RpcServer S ς) (ServerTask S ς)) : ServerTask S ς → ServerLabel S ς → Prop
  | .dispatch _ buf, _ => ∃ h req, Reads buf h req ∧
      ((h.srvNonce ≠ 0 ∧ h.srvNonce ≠ c.shared.nonce) ∨ h.proc ∈ c.shared.procs)
  | .invoke _ h req, _ => ∃ args, (req.get (S.args h.proc)).1 = .ok args
  | .check _ h _, _ => ∀ u ∈ c.pool, ∀ x, Uses h.cltNonce x u → h.xidRep < x
  -- the reply to a client without a nonce is dumped in the same section
  | .running _ h _, .returns p r _ => h.cltNonce = 0 → ((S.rep p).toJson r).utf8
  | .record _ _ rep, _ => rep.json.utf8
  | _, _ => True

def Manageable (c : Cfg (RpcServer S ς) (ServerTask S ς)) :
    Move (ServerLabel S ς) ServerEvent → Prop
  | .act i l => ∀ t, c.pool[i]? = some t → Handles c t l
  | .spawn _ => True

/-- No handler throws. -/
def HandlersReturn (m : Move (ServerLabel S ς) ServerEvent) : Prop := ∀ i, m ≠ .act i .raises

/-- The entry that the activity goes back to is gone: `AddReply` will throw, or the pointer
to the remembered reply dangles. -/
def Robbed (sv : RpcServer S ς) (t : ServerTask S ς) : Prop :=
  ∃ n x, Uses n x t ∧ ∀ r ∈ sv.filter.window n, r.xid ≠ x

/-- What an activity relies on of the filter. -/
def Provided (sv : RpcServer S ς) : ServerTask S ς → Prop
  | .newWindow _ h _ | .check _ h _ => 0 < h.cltNonce
  | .invoke _ h _ | .running _ h _ => 0 < h.cltNonce → sv.filter.Live h.cltNonce h.xid
  | .record _ h _ => 0 < h.cltNonce ∧ sv.filter.Live h.cltNonce h.xid
  | .remembered _ n x => 0 < n ∧ sv.filter.Live n x
  | _ => True

variable {sv sv' : RpcServer S ς} {t u : ServerTask S ς} {l : ServerLabel S ς}
  {ts : List (ServerTask S ς)} {os : List (ς × S.Buf)}

theorem Provided.live (provided : Provided sv t) {n : UInt32} {x : Nat} (uses : Uses n x t)
    (pos : 0 < n) : sv.filter.Live n x := by
  cases t with
  | invoke | running =>
      obtain ⟨rfl, rfl⟩ := uses
      exact provided pos
  | record | remembered =>
      obtain ⟨rfl, rfl⟩ := uses
      exact provided.2
  | _ => exact uses.elim

theorem onward_steady {handlers : (p : Nat) → S.Args p → S.Rep p × Err}
    (picked : onward (steady handlers) t = some l) : l ≠ .raises := by
  rintro rfl
  cases t with
  | running s h args =>
      obtain ⟨_, label⟩ | ⟨_, _, _, _, label⟩ | ⟨_, none, _⟩ := onward_running picked
      · cases label
      · cases label
      · cases none
  | _ => cases picked

variable [DecidableEq ς]

theorem acted_provided (step : Acted sv t l sv' ts os) (provided : Provided sv t) :
    ∀ u ∈ ts, Provided sv' u := by
  intro u member
  cases step with
  | acceptFailed | receiveFailed | dispatchThrew | invokeThrew | raised | answerThrew | recordThrew
  | bufThrew => cases member
  | accepted => rcases List.mem_pair.mp member with rfl | rfl <;> trivial
  | received | answered | recorded | remembered | transmitted => cases List.mem_singleton.mp member; trivial
  | dispatched ok =>
      cases List.mem_singleton.mp member
      cases dispatched ok with
      | oldServer => trivial
      | filtered _ _ _ pos => exact pos
      | plain _ _ _ zero =>
          intro pos
          exact absurd zero (UInt32.pos_iff_ne_zero.mp pos)
  | newWindow => cases List.mem_singleton.mp member; exact provided
  | @check s h req =>
      cases List.mem_singleton.mp member
      cases verdict : (sv.filter.checkDuplicateAndUpdate S.empty h.cltNonce h.xid h.xidRep).1 with
      | new => exact fun _ => DupFilter.check_live _ _ _ _ _ (.inl verdict)
      | done => exact ⟨provided, DupFilter.check_live _ _ _ _ _ (.inr verdict)⟩
      | inprogress | forgotten => trivial
  | invoked => cases List.mem_singleton.mp member; exact provided
  | recording _ pos =>
      cases List.mem_singleton.mp member
      exact ⟨pos, provided pos⟩
  | sent =>
      rw [mem_onSent member]
      trivial

/-- A section that acknowledges nothing another activity uses takes nothing from it. -/
theorem Provided.stable (provided : Provided sv u) (step : Acted sv t l sv' ts os)
    (low : ∀ s h req, t = .check s h req → ∀ x, Uses h.cltNonce x u → h.xidRep < x) :
    Provided sv' u := by
  have keeps : ∀ n x, Uses n x u → sv.filter.Live n x → sv'.filter.Live n x := by
    intro n x uses live
    cases step with
    | newWindow => exact live.createWindow _
    | check => exact live.check _ _ _ _ fun same => low _ _ _ rfl x (same ▸ uses)
    | recorded ok => exact live.addReply ok
    | _ => exact live
  cases u with
  | invoke | running => exact fun pos => keeps _ _ ⟨rfl, rfl⟩ (provided pos)
  | record | remembered => exact ⟨provided.1, keeps _ _ ⟨rfl, rfl⟩ provided.2⟩
  | newWindow | check => exact provided
  | _ => trivial

/-- What a server never throws on. -/
theorem acted_quiet {c : Cfg (RpcServer S ς) (ServerTask S ς)}
    (step : Acted c.shared t l sv' ts os) (provided : Provided c.shared t) (handles : Handles c t l)
    (steadily : l ≠ .raises) : sv'.escaped = c.shared.escaped := by
  cases step with
  | @dispatchThrew s buf e threw =>
      obtain ⟨h, req, reads, answers⟩ := handles
      have ok : ∃ t, c.shared.dispatch s buf = .ok t := by
        by_cases old : h.srvNonce ≠ 0 ∧ h.srvNonce ≠ c.shared.nonce
        · exact dispatch_oldServer reads old.1 old.2 s
        · exact dispatch_admits ⟨reads, by simpa using old, answers.resolve_left old⟩ s
      obtain ⟨t, ok⟩ := ok
      cases threw.symm.trans ok
  | invokeThrew threw =>
      obtain ⟨args, read⟩ := handles
      cases threw.symm.trans read
  | raised => exact absurd rfl steadily
  | @answerThrew s h args l r e err returned zero refused =>
      have text : ((S.rep h.proc).toJson r).utf8 := by
        cases returned with
        | bind isBind => exact S.bind_utf8 isBind _
        | handler => exact handles zero
      rw [← replyDoc_utf8 h.proc ⟨h.xid, e⟩, (buf_error_iff.mp refused).1] at text
      cases text
  | recordThrew threw =>
      obtain ⟨_, f, ok⟩ := DupFilter.addReply_ok _ provided.2.2
      cases threw.symm.trans ok
  | bufThrew refused =>
      have text : _ = true := handles
      rw [(buf_error_iff.mp refused).1] at text
      cases text
  | _ => rfl

/-- An activity that its section cannot handle throws, or robs another. -/
theorem acted_harms {c : Cfg (RpcServer S ς) (ServerTask S ς)} (sorted : c.shared.filter.Sorted)
    (step : Acted c.shared t l sv' ts os) (fails : ¬ Handles c t l) :
    (∃ e, sv'.escaped = e :: c.shared.escaped) ∨ ∃ u ∈ c.pool, u ≠ t ∧ Robbed sv' u := by
  cases step with
  | dispatched ok =>
      refine absurd ?_ fails
      cases dispatched ok with
      | oldServer reads bound other => exact ⟨_, _, reads, .inl ⟨bound, other⟩⟩
      | filtered reads _ known | plain reads _ known => exact ⟨_, _, reads, .inr known⟩
  | invoked read => exact absurd ⟨_, read⟩ fails
  | recording returned pos =>
      refine absurd ?_ fails
      cases returned with
      | bind => trivial
      | handler => exact fun zero => absurd zero (UInt32.pos_iff_ne_zero.mp pos)
  | answered returned _ written =>
      refine absurd ?_ fails
      have text := (buf_ok_iff.mp written).1
      rw [replyDoc_utf8] at text
      cases returned with
      | bind => trivial
      | handler => exact fun _ => text
  | recorded _ written => exact absurd (buf_ok_iff.mp written).1 fails
  | dispatchThrew | invokeThrew | answerThrew | recordThrew | bufThrew => exact .inl ⟨_, rfl⟩
  | @check s h req =>
      right
      simp only [Handles, not_forall] at fails
      obtain ⟨u, member, x, uses, acked⟩ := fails
      refine ⟨u, member, ?_, _, x, uses, fun r inWindow same => ?_⟩
      · rintro rfl
        exact uses
      · rw [DupFilter.check_mem_iff _ _ _ sorted] at inWindow
        exact acked (same ▸ (Nat.le_max_right _ _).trans_lt inWindow.2)
  | _ => exact absurd trivial fails

section Runs

variable {nonce : UInt32} {c : Cfg (RpcServer S ς) (ServerTask S ς)}

theorem reachable_sorted {ok : Cfg (RpcServer S ς) (ServerTask S ς) →
    Move (ServerLabel S ς) ServerEvent → Prop}
    (run : Reachable (machine S ς).system ok (start S ς nonce) c) : c.shared.filter.Sorted :=
  (reachable_callInv run.any (n := 1) (by decide) 0).sorted

theorem reachable_provided (run : Reachable (machine S ς).system
    (fun c m => HandlersReturn m ∧ Manageable c m) (start S ς nonce) c) :
    Holds (fun sv => sv.escaped = []) Provided c := by
  apply Machine.invariant run (I := Holds (fun sv => sv.escaped = []) Provided)
  · refine ⟨rfl, fun t member => ?_⟩
    cases List.mem_singleton.mp member
    trivial
  rintro c m c' os holds ⟨returns, manageable⟩ moved
  apply holds.move moved
  · rintro i l t rest ts rfl taken split provided ran
    have step := acted ran
    have handles := manageable t taken
    have steadily : l ≠ .raises := fun same => returns i (same ▸ rfl)
    refine ⟨(acted_quiet step provided handles steadily).trans holds.shared,
      acted_provided step provided, fun u member stands => stands.stable step ?_⟩
    rintro s h req rfl
    exact handles u (split.mem_iff.mpr (List.mem_cons_of_mem _ member))
  · rintro e ts rfl ran
    obtain ⟨ps, shared, rfl⟩ := spawn_spec ran
    rw [shared]
    refine ⟨holds.shared, fun u member => absurd member List.not_mem_nil, fun u _ stands => ?_⟩
    cases u <;> exact stands

/-- In every state of the server a dispatch by itself lets no exception escape and hands
over one operation if and only if its buffer is answerable. In a run whose steps are
manageable no exception has escaped, and a step of a dispatch leads to its next section
or its one operation when it is manageable, and else throws or robs another. -/
theorem any_buffer_answered_iff (nonce : UInt32)
    (handlers : (p : Nat) → S.Args p → S.Rep p × Err) :
    (∀ c, Reachable (machine S ς).system anyStep (start S ς nonce) c → ∀ s buf,
      (((c.shared.dispatchAlone (steady handlers) s buf).1.escaped = c.shared.escaped ∧
        ∃ t, (c.shared.dispatchAlone (steady handlers) s buf).2 = [t] ∧ Operation s t) ↔
        c.shared.Answerable handlers buf)) ∧
    ∀ c, Reachable (machine S ς).system (fun c m => HandlersReturn m ∧ Manageable c m)
        (start S ς nonce) c →
      c.shared.escaped = [] ∧
      ∀ i t l, c.pool[i]? = some t → onward (steady handlers) t = some l →
        ∃ c', (machine S ς).system.next c (.act i l) = some c' ∧
          (Manageable c (.act i l) →
            ∃ u, c'.pool = u :: c.pool.eraseIdx i ∧ LedOn c.shared c'.shared t u) ∧
          (¬ Manageable c (.act i l) →
            c'.shared.escaped ≠ [] ∨ ∃ u ∈ c'.pool, Robbed c'.shared u) := by
  constructor
  · intro c run s buf
    exact dispatchAlone_answers_iff (reachable_sorted run) handlers s buf
  intro c run
  have holds := reachable_provided run
  refine ⟨holds.shared, fun i t l taken picked => ?_⟩
  have provided := holds.task t (List.mem_of_getElem? taken)
  have there : ∀ s n x, t = .remembered s n x → ∃ r ∈ c.shared.filter.window n, r.xid = x := by
    rintro s n x rfl
    exact provided.2.2
  obtain ⟨sv', ts, os, ran, outcome⟩ := act_onward c.shared picked there
  have step := acted ran
  have moved : (machine S ς).system.next c (.act i l) = some ⟨sv', ts ++ c.pool.eraseIdx i⟩ := by
    simp [Machine.system, Machine.next, taken, machine, ran]
  refine ⟨_, moved, fun manageable => ?_, fun fails => ?_⟩
  · have quiet := acted_quiet step provided (manageable t taken) (onward_steady picked)
    obtain ⟨u, rfl, led⟩ | ⟨_, e, threw⟩ := outcome
    · exact ⟨u, rfl, led⟩
    · rw [quiet] at threw
      exact absurd threw.symm (List.cons_ne_self e _)
  · have unable : ¬ Handles c t l := by
      intro handles
      apply fails
      intro t' taken'
      cases taken.symm.trans taken'
      exact handles
    obtain ⟨e, threw⟩ | ⟨u, member, other, robbed⟩ := acted_harms (reachable_sorted run) step unable
    · left
      rw [threw]
      exact List.cons_ne_nil e _
    · right
      refine ⟨u, List.mem_append_right ts ?_, robbed⟩
      have split := (perm_cons_eraseIdx taken).mem_iff.mp member
      exact (List.mem_cons.mp split).resolve_left other

end Runs

/-- `null` is no request: `Dispatch` throws, and the connection is left without an
operation. -/
theorem null_escapes : ∃ c, (machine .sample Nat).system.exec (fun _ _ => true)
    (start .sample Nat 77) [.act 0 (.accepted 0 .ok), .act 0 (.received Json.null .ok), .act 0 .go] =
      some c ∧ c.shared.escaped = [.typeError] ∧ c.pool = [.accept] :=
  ⟨_, rfl, rfl, rfl⟩

end AsyncRpc.RpcServer
