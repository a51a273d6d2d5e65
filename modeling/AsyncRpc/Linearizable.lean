import AsyncRpc.CallLife
import AsyncRpc.Foundation.Linearization

/-! The calls of all applications together. Each takes effect when its handler returns,
and no application can tell the order in which they do from the order of its own. -/
namespace AsyncRpc.Network
open Interleaving Transition

variable {S : Services} {κ ι : Type} {N : Nonces κ ι} {net net' : Network S κ ι}

/-- A run of a handler as its caller can see it: of the result what its type reads back. -/
structure Outcome (S : Services) where
  cltNonce : UInt32
  xid : Nat
  proc : Nat
  args : S.Args proc
  err : Err
  result : Except Exn (S.Rep proc)

def outcome (ex : Execution S) : Outcome S :=
  ⟨ex.cltNonce, ex.xid, ex.proc, ex.args, ex.err, (S.rep ex.proc).readback ex.reply⟩

/-- A call that some client made, with the run it got. -/
def Called (N : Nonces κ ι) (net : Network S κ ι) (k : κ) (o : Outcome S) : Prop :=
  N.client k = o.cltNonce ∧ ∃ args, (net.client k).shared.issued o.xid = some ⟨o.proc, args⟩ ∧
    (S.args o.proc).readback args = .ok o.args

/-- The runs of applications' calls at each instance, named by client and xid. -/
def calls (N : Nonces κ ι) : Linearization.Object (Network S κ ι) (Outcome S) ι (UInt32 × Nat) where
  name o := (o.cltNonce, o.xid)
  called net o := ∃ k, Called N net k o
  log v net := ((net.server v).shared.executions.filter fun ex => ex.proc ≠ BIND).map outcome
  answered net o := o.proc ≠ BIND ∧ ∃ k value, Called N net k o ∧ o.result = .ok value ∧
    ⟨o.xid, o.proc, o.err, some value⟩ ∈ (net.client k).shared.callbacks

theorem mem_log {v : ι} {o : Outcome S} : o ∈ (calls N).log v net ↔
    ∃ ex ∈ (net.server v).shared.executions, ex.proc ≠ BIND ∧ outcome ex = o := by
  simp [calls, List.mem_filter, and_assoc]

theorem Called.application {k : κ} {o : Outcome S} (called : Called N net k o)
    (other : o.proc ≠ BIND) : Application net k o.xid := by
  intro i issued
  obtain ⟨_, args, issued', _⟩ := called
  cases issued'.symm.trans issued
  exact other

theorem Called.mem_executionsOf {k : κ} {v : ι} {ex : Execution S}
    (called : Called N net k (outcome ex)) (member : ex ∈ (net.server v).shared.executions) :
    ex ∈ (net.server v).shared.executionsOf (N.client k) ex.xid :=
  RpcServer.mem_executionsOf.mpr ⟨member, called.1.symm, rfl⟩

theorem Traced.called (traced : Traced N net) {v : ι} {ex : Execution S}
    (member : ex ∈ (net.server v).shared.executions) : ∃ k, Called N net k (outcome ex) := by
  obtain ⟨k, _, client, _, _, _, issued⟩ := traced.execution member
  exact ⟨k, client.symm, issued⟩

variable [DecidableEq κ] [DecidableEq ι] {ok : Network S κ ι → NetworkAction S κ ι → Prop}

/-- No call is twice in the history of an instance, whatever came of it. -/
theorem executions_nodup (run : Reachable (system S κ ι) ok (start S N) net) (v : ι) :
    ((net.server v).shared.executions.map fun ex => (ex.cltNonce, ex.xid)).Nodup := by
  rw [List.nodup_iff_count_le_one]
  intro key
  by_cases some : key ∈ (net.server v).shared.executions.map fun ex => (ex.cltNonce, ex.xid)
  · obtain ⟨ex, member, rfl⟩ := List.mem_map.mp some
    obtain ⟨k, called⟩ := (reachable_traced run).called member
    have pos : 0 < ex.cltNonce := by
      rw [← show N.client k = ex.cltNonce from called.1]
      exact N.client_pos k
    have alone := congrArg List.length (execution_alone run member pos).1
    rw [RpcServer.executionsOf, ← List.countP_eq_length_filter] at alone
    rw [List.count, List.countP_map]
    refine (List.countP_congr fun ex' _ => ?_).le.trans alone.le
    rw [Function.comp_apply, beq_iff_eq, decide_eq_true_iff]
  · rw [List.count_eq_zero_of_not_mem some]
    exact Nat.zero_le 1

theorem answered_executed (run : Reachable (system S κ ι) ok (start S N) net) {o : Outcome S}
    (answered : (calls N).answered net o) : ∃ v, o ∈ (calls N).log v net := by
  obtain ⟨other, k, value, called, fine, reported⟩ := answered
  have member : ⟨o.xid, o.proc, o.err, some value⟩ ∈ reports (net.client k).shared o.xid :=
    List.mem_filter.mpr ⟨reported, decide_eq_true rfl⟩
  obtain ⟨v, ex, executed, value', read, same⟩ := report_executed run member
  obtain ⟨⟨args, issued, readArgs⟩, _⟩ := execution_issued run executed
  obtain ⟨here, client, xid⟩ := RpcServer.mem_executionsOf.mp executed
  refine ⟨v, mem_log.mpr ⟨ex, here, ?_⟩⟩
  obtain ⟨n, x, p, oargs, e, result⟩ := o
  obtain ⟨n', x', p', exargs, e', r⟩ := ex
  cases called.1
  cases client
  cases xid
  cases same
  obtain ⟨_, args', issued', readArgs'⟩ := called
  cases issued.symm.trans issued'
  cases readArgs.symm.trans readArgs'
  have fine : result = .ok value := fine
  rw [fine, outcome]
  exact ⟨other, by rw [show (S.rep p).readback r = .ok value from read]⟩

omit [DecidableEq κ] [DecidableEq ι] in
theorem acted_executions {ς : Type} [DecidableEq ς] {sv sv' : RpcServer S ς} {t : ServerTask S ς}
    {l : ServerLabel S ς} {ts : List (ServerTask S ς)} {os : List (ς × S.Buf)}
    (step : RpcServer.Acted sv t l sv' ts os) : sv.executions <:+ sv'.executions := by
  cases step with
  | recording | answered | answerThrew => exact List.suffix_cons _ _
  | _ => exact List.suffix_refl _

omit [DecidableEq κ] [DecidableEq ι] in
theorem moved_executions {ς : Type} [DecidableEq ς] {c c' : Cfg (RpcServer S ς) (ServerTask S ς)}
    {m : Move (ServerLabel S ς) ServerEvent} {os : List (ς × S.Buf)}
    (moved : (RpcServer.machine S ς).Moved c c' os m) :
    c.shared.executions <:+ c'.shared.executions := by
  cases moved with
  | act t rest ts _ _ ran => exact acted_executions (RpcServer.acted ran)
  | @spawn e ts ran =>
      cases e with
      | register p =>
          simp only [RpcServer.machine, RpcServer.spawn] at ran
          split_ifs at ran with known
          obtain ⟨same, _⟩ := Prod.mk.inj (Option.some.inj ran)
          rw [← same]

theorem Changed.executions (changed : Changed net net') (v : ι) :
    (net.server v).shared.executions <:+ (net'.server v).shared.executions := by
  cases changed with
  | client _ _ _ server => rw [server]
  | @server v' m c os ran _ _ server =>
      rw [server]
      by_cases same : v = v'
      · subst same
        rw [Function.update_self]
        exact moved_executions (Machine.moved ran)
      · rw [Function.update_of_ne same]
  | packets _ server => rw [server]

theorem logs_grow (net : Network S κ ι) (a : NetworkAction S κ ι) (net' : Network S κ ι)
    (moved : (system S κ ι).next net a = some net') (v : ι) :
    (calls N).log v net <:+ (calls N).log v net' :=
  (((stepped moved).changed.executions v).filter _).map _

/-- From any reachable state on, the calls of all applications are linear, and every report
to an application is the answer of one. -/
theorem calls_linear (N : Nonces κ ι) (nonzero : ∀ v, N.server v ≠ 0) (net net' : Network S κ ι)
    (run : Reachable (system S κ ι) anyStep (start S N) net)
    (later : Reachable (system S κ ι) anyStep net net') :
    Linearization.Linear (calls N) net net' ∧
      ∀ k, ∀ r ∈ (net'.client k).shared.callbacks, r.proc ≠ BIND → ∃ o value,
        (calls N).answered net' o ∧ N.client k = o.cltNonce ∧ o.result = .ok value ∧
          r = ⟨o.xid, o.proc, o.err, some value⟩ := by
  constructor
  · refine Linearization.linear ?_ ?_ ?_ ?_ logs_grow run later
    · intro net run v
      have once := executions_nodup run v
      rw [calls, List.map_map]
      exact once.sublist (List.filter_sublist.map _)
    · intro net run v o member
      obtain ⟨ex, executed, _, rfl⟩ := mem_log.mp member
      exact (reachable_traced run).called executed
    · intro net run o answered
      exact answered_executed run answered
    · intro net run v v' o member o' member' same
      obtain ⟨ex, executed, other, rfl⟩ := mem_log.mp member
      obtain ⟨ex', executed', _, rfl⟩ := mem_log.mp member'
      obtain ⟨client', xid'⟩ := Prod.mk.inj same.symm
      obtain ⟨k, called⟩ := (reachable_traced run).called executed
      obtain ⟨_, elsewhere⟩ :=
        execution_only nonzero run (called.application other) (called.mem_executionsOf executed)
      by_contra apart
      have there : ex' ∈ (net.server v').shared.executionsOf (N.client k) (outcome ex).xid :=
        RpcServer.mem_executionsOf.mpr ⟨executed', client'.trans called.1.symm, xid'⟩
      rw [elsewhere v' (Ne.symm apart)] at there
      cases there
  · intro k r reported other
    have reached := run.trans later
    have member : r ∈ reports (net'.client k).shared r.xid :=
      List.mem_filter.mpr ⟨reported, decide_eq_true rfl⟩
    obtain ⟨v, ex, executed, value, read, same⟩ := report_executed reached member
    obtain ⟨issued, _⟩ := execution_issued reached executed
    obtain ⟨_, client, xid⟩ := RpcServer.mem_executionsOf.mp executed
    rw [← xid] at issued same
    rw [same] at other reported
    exact ⟨outcome ex, value, ⟨other, k, value, ⟨client.symm, issued⟩, read, reported⟩,
      client.symm, read, same⟩

/-- The client makes another call once it has the error of the first. -/
def calledAgain : List (NetworkAction .sample Unit Bool) :=
  [.client () (.spawn (.call 7 (2 : UInt32))), .client () (.act 0 .go), .client () (.act 0 .go),
    .client () (.act 0 .transmit), .server false (.act 0 (.sent .ok)), .request false 0 0,
    .server false (.act 0 .go), .server false (.act 0 .go), .server false (.act 0 .go),
    .server false (.act 0 .go), .server false (.act 0 (.returns 7 (8 : UInt32) .ok))]

/-- Which calls ran at an instance, the latest first. -/
def runsAt (net : Network .sample Unit Bool) (v : Bool) : List (Nat × Nat) :=
  (net.server v).shared.executions.map fun ex => (ex.xid, ex.proc)

theorem calledAgain_run : ∃ net net' : Network .sample Unit Bool,
    (system .sample Unit Bool).exec (fun _ _ => true) (start .sample restarted) failedCall = some net ∧
      (system .sample Unit Bool).exec (fun _ _ => true) net calledAgain = some net' ∧
      (net.client ()).shared.callbacks.map (fun r => (r.xid, r.proc)) = [(3, 7), (2, BIND)] ∧
      ((net.client ()).shared.issued 4).isNone ∧ runsAt net' true = [] ∧
      runsAt net' false = [(4, 7), (3, 7), (2, BIND)] :=
  System.exec_any_later (by decide +kernel)

theorem calls_linear_again : ∃ (net' : Network .sample Unit Bool) (o o' : Outcome .sample),
    (o.xid, o'.xid) = (3, 4) ∧ runsAt net' false = [(4, 7), (3, 7), (2, BIND)] ∧
      Linearization.Before ((calls restarted).log false net') o o' := by
  obtain ⟨net, net', ran, ran', reported, unissued, none, runs⟩ := calledAgain_run
  have run := (System.exec_reachable ran).any
  have later := (System.exec_reachable ran').any
  obtain ⟨linear, _⟩ := calls_linear restarted instanceNonce_ne_zero net net' run later
  have first : (3, 7) ∈ (net.client ()).shared.callbacks.map fun r => (r.xid, r.proc) := by
    rw [reported]
    exact List.mem_cons_self
  obtain ⟨r, member, same⟩ := List.mem_map.mp first
  obtain ⟨xid, proc⟩ := Prod.mk.inj same
  obtain ⟨o, value, answered, _, _, rfl⟩ :=
    (calls_linear restarted instanceNonce_ne_zero net net run .init).2 () r member (by
      rw [proc]
      decide)
  have second : (4, 7) ∈ runsAt net' false := by
    rw [runs]
    exact List.mem_cons_self
  obtain ⟨ex', executed, same'⟩ := List.mem_map.mp second
  obtain ⟨xid', proc'⟩ := Prod.mk.inj same'
  have uncalled : ¬ (calls restarted).called net (outcome ex') := by
    rintro ⟨_, _, args, issued, _⟩
    rw [show (outcome ex').xid = 4 from xid'] at issued
    rw [issued] at unissued
    cases unissued
  have logged : o ∈ (calls restarted).log false net' := by
    obtain ⟨v, here⟩ := answered_executed run answered
    have here := (linear.grows v).subset here
    cases v with
    | false => exact here
    | true =>
        obtain ⟨ex, executed, _⟩ := mem_log.mp here
        have some : (ex.xid, ex.proc) ∈ runsAt net' true := List.mem_map_of_mem executed
        rw [none] at some
        cases some
  have logged' : outcome ex' ∈ (calls restarted).log false net' := by
    refine mem_log.mpr ⟨ex', executed, ?_, rfl⟩
    rw [proc']
    decide
  refine ⟨net', o, outcome ex', ?_, runs, ?_⟩
  · rw [show (outcome ex').xid = 4 from xid', show o.xid = 3 from xid]
  · exact (linear.order false o logged (outcome ex') logged' answered uncalled).1

end AsyncRpc.Network
