import AsyncRpc.Callback
import AsyncRpc.Restart
import AsyncRpc.Foundation.Once

/-! The network as its applications see it: each call goes through the stages of a call
that runs once, whatever is lost, copied or reordered, and whichever instances a packet
reaches. -/
namespace AsyncRpc.Network
open Interleaving Transition

variable {S : Services} {κ ι : Type}

abbrev CallStage (S : Services) := Once.Stage (Issue S) (Execution S)

/-- The reports of call `x` to the application. -/
def reports (c : RpcClient S) (x : Nat) : List (CallbackRun S) := c.callbacks.filter fun r => r.xid = x

/-- What a stage says of call `x` of client `k`: of the one run over all instances, with what
its type reads back from the arguments of the call, and of the one report, with the error
of that run and what the type of the reply reads back from its result. -/
structure Stands (N : Nonces κ ι) (net : Network S κ ι) (k : κ) (x : Nat) (st : CallStage S) :
    Prop where
  given : (net.client k).shared.issued x = st.given
  unmade : st.made = none → ∀ v, (net.server v).shared.executionsOf (N.client k) x = []
  made : ∀ ex, st.made = some ex →
    (∃ args, st.given = some ⟨ex.proc, args⟩ ∧ (S.args ex.proc).readback args = .ok ex.args) ∧
    ∃ v, (net.server v).shared.executionsOf (N.client k) x = [ex] ∧
      ∀ v', v' ≠ v → (net.server v').shared.executionsOf (N.client k) x = []
  unreported : st.done = false → reports (net.client k).shared x = []
  reported : st.done = true → ∀ ex, st.made = some ex → ∃ v,
    (S.rep ex.proc).readback ex.reply = .ok v ∧
      reports (net.client k).shared x = [⟨x, ex.proc, ex.err, some v⟩]

variable [DecidableEq κ] [DecidableEq ι] {N : Nonces κ ι} {net net' : Network S κ ι}

/-- A client in the network is a client on its own, whose connection delivers what it likes. -/
theorem client_reachable {ok : Network S κ ι → NetworkAction S κ ι → Prop}
    (run : Reachable (system S κ ι) ok (start S N) net) (k : κ) :
    Reachable (RpcClient.machine S).system RpcClient.FailsUndone (RpcClient.start S (N.client k))
      (net.client k) := by
  apply run.invariant
  · exact .init
  intro net a net' reached alone _ moved
  cases (stepped moved).changed with
  | @client k' m c os ran _ client =>
      rw [client]
      by_cases same : k = k'
      · subst same
        rw [Function.update_self]
        refine .step alone (a := m) ?_ (congrArg (Option.map Prod.fst) ran)
        have pos : (net.client k).shared.cltNonce ≠ 0 := by
          rw [(reachable_traced reached).cltNonce k]
          exact UInt32.pos_iff_ne_zero.mp (N.client_pos k)
        cases m with
        | act i l => exact fun zero => absurd zero pos
        | spawn e => trivial
      · rw [Function.update_of_ne same]
        exact alone
  | server _ _ client => rw [client]; exact alone
  | packets client => rw [client]; exact alone

/-- A call of the application: its request names the instance the client had bound to. -/
def Application (net : Network S κ ι) (k : κ) (x : Nat) : Prop :=
  ∀ i, (net.client k).shared.issued x = some i → i.proc ≠ BIND

theorem execution_issued {ok : Network S κ ι → NetworkAction S κ ι → Prop}
    (run : Reachable (system S κ ι) ok (start S N) net) {k : κ} {x : Nat} {v : ι} {ex : Execution S}
    (member : ex ∈ (net.server v).shared.executionsOf (N.client k) x) :
    (∃ args, (net.client k).shared.issued x = some ⟨ex.proc, args⟩ ∧
      (S.args ex.proc).readback args = .ok ex.args) ∧
      ∃ h, (net.client k).shared.headers x = some h ∧ (net.server v).shared.Current h := by
  obtain ⟨executed, client, rfl⟩ := RpcServer.mem_executionsOf.mp member
  obtain ⟨k', h, client', header, _, current, issued⟩ := (reachable_traced run).execution executed
  obtain rfl : k = k' := N.client_injective (client.symm.trans client')
  exact ⟨issued, h, header, current⟩

/-- An application's call runs at one instance, and once there. -/
theorem execution_only (nonzero : ∀ v, N.server v ≠ 0)
    {ok : Network S κ ι → NetworkAction S κ ι → Prop}
    (run : Reachable (system S κ ι) ok (start S N) net) {k : κ} {x : Nat}
    (app : Application net k x) {v : ι} {ex : Execution S}
    (member : ex ∈ (net.server v).shared.executionsOf (N.client k) x) :
    (net.server v).shared.executionsOf (N.client k) x = [ex] ∧
      ∀ v', v' ≠ v → (net.server v').shared.executionsOf (N.client k) x = [] := by
  have traced := reachable_traced run
  constructor
  · obtain ⟨executed, client, xid⟩ := RpcServer.mem_executionsOf.mp member
    have alone := (execution_alone run executed (client ▸ N.client_pos k)).1
    rw [client, xid] at alone
    exact alone
  · intro v' other
    apply List.eq_nil_iff_forall_not_mem.mpr
    intro ex' member'
    obtain ⟨issued, h, header, current⟩ := execution_issued run member
    obtain ⟨_, h', header', current'⟩ := execution_issued run member'
    cases header.symm.trans header'
    have known := (traced.client k).held.shared.headers x h header
    obtain ⟨args, issued'⟩ := known.issued
    obtain ⟨w, named⟩ := traced.bound (known.bound (app _ issued'))
    have bound : h.srvNonce ≠ 0 := named ▸ nonzero w
    have first := (current bound).trans (traced.nonce v)
    have second := (current' bound).trans (traced.nonce v')
    exact other (N.server_injective (second.symm.trans first))

/-- A report is one of the run of the call. -/
theorem report_executed {ok : Network S κ ι → NetworkAction S κ ι → Prop}
    (run : Reachable (system S κ ι) ok (start S N) net) {k : κ} {x : Nat} {r : CallbackRun S}
    (member : r ∈ reports (net.client k).shared x) : ∃ v ex,
      ex ∈ (net.server v).shared.executionsOf (N.client k) x ∧
        ∃ value, (S.rep ex.proc).readback ex.reply = .ok value ∧
          r = ⟨x, ex.proc, ex.err, some value⟩ := by
  have traced := reachable_traced run
  obtain ⟨here, same⟩ := List.mem_filter.mp member
  obtain rfl : r.xid = x := of_decide_eq_true same
  have known := (traced.client k).held.shared.runs r here
  obtain ⟨x, p, e, reply⟩ := r
  cases reply with
  | none =>
      have zero := (known.absent rfl).2
      rw [traced.cltNonce k] at zero
      exact absurd zero (UInt32.pos_iff_ne_zero.mp (N.client_pos k))
  | some value =>
      obtain ⟨v, args, args', made, _, _, read, executed⟩ :=
        traced.replied (known.replied value rfl)
      exact ⟨v, _, RpcServer.mem_executionsOf.mpr ⟨executed, rfl, rfl⟩, value, read, rfl⟩

theorem reports_once {ok : Network S κ ι → NetworkAction S κ ι → Prop}
    (run : Reachable (system S κ ι) ok (start S N) net) (k : κ) (x : Nat) :
    (reports (net.client k).shared x).length ≤ 1 := by
  have once := (RpcClient.reachable_settled (client_reachable run k) x).once
  have counted : (reports (net.client k).shared x).length = RpcClient.ran (net.client k).shared x :=
    List.countP_eq_length_filter.symm
  simp only [RpcClient.completions] at once
  omega

theorem exists_stage (nonzero : ∀ v, N.server v ≠ 0)
    {ok : Network S κ ι → NetworkAction S κ ι → Prop}
    (run : Reachable (system S κ ι) ok (start S N) net) {k : κ} {x : Nat}
    (app : Application net k x) : ∃ st, Stands N net k x st := by
  have none_reported : (∀ v, (net.server v).shared.executionsOf (N.client k) x = []) →
      reports (net.client k).shared x = [] := by
    intro never
    apply List.eq_nil_iff_forall_not_mem.mpr
    intro r member
    obtain ⟨v, ex, executed, _⟩ := report_executed run member
    rw [never v] at executed
    cases executed
  by_cases executed : ∃ v ex, ex ∈ (net.server v).shared.executionsOf (N.client k) x
  · obtain ⟨v, ex, member⟩ := executed
    obtain ⟨⟨args, issued, read⟩, _⟩ := execution_issued run member
    have only := execution_only nonzero run app member
    cases reported : reports (net.client k).shared x with
    | nil =>
        refine ⟨.executed ⟨ex.proc, args⟩ ex, issued, nofun, ?_, fun _ => reported, nofun⟩
        rintro _ ⟨rfl⟩
        exact ⟨⟨args, rfl, read⟩, v, only⟩
    | cons r rest =>
        refine ⟨.completed ⟨ex.proc, args⟩ ex, issued, nofun, ?_, nofun, ?_⟩
        · rintro _ ⟨rfl⟩
          exact ⟨⟨args, rfl, read⟩, v, only⟩
        · rintro _ _ ⟨rfl⟩
          have once := reports_once run k x
          rw [reported] at once
          obtain rfl : rest = [] := List.length_eq_zero_iff.mp (by simpa using once)
          obtain ⟨v', ex', member', value, back, rfl⟩ :=
            report_executed run (reported ▸ List.mem_cons_self : r ∈ reports _ x)
          have same : v' = v := by
            by_contra other
            rw [only.2 v' other] at member'
            cases member'
          subst same
          rw [only.1] at member'
          cases List.mem_singleton.mp member'
          exact ⟨value, back, reported⟩
  · have never : ∀ v, (net.server v).shared.executionsOf (N.client k) x = [] := by
      intro v
      apply List.eq_nil_iff_forall_not_mem.mpr
      exact fun ex member => executed ⟨v, ex, member⟩
    cases issued : (net.client k).shared.issued x with
    | none => exact ⟨.idle, issued, fun _ => never, nofun, fun _ => none_reported never, nofun⟩
    | some i => exact ⟨.issued i, issued, fun _ => never, nofun, fun _ => none_reported never, nofun⟩

/-! A step of the network is a step of the call or none. -/

omit [DecidableEq κ] [DecidableEq ι] in
theorem Stands.done_iff {k : κ} {x : Nat} {st : CallStage S} (stands : Stands N net k x st) :
    st.done = true ↔ reports (net.client k).shared x ≠ [] := by
  constructor
  · intro done
    cases st with
    | completed a ex =>
        obtain ⟨_, _, reported⟩ := stands.reported rfl ex rfl
        rw [reported]
        exact List.cons_ne_nil _ _
    | _ => cases done
  · intro some
    by_contra undone
    exact some (stands.unreported (by simpa using undone))

omit [DecidableEq κ] [DecidableEq ι] in
/-- What ran is what the call made. -/
theorem Stands.made_iff {k : κ} {x : Nat} {st : CallStage S} (stands : Stands N net k x st)
    {ex : Execution S} : st.made = some ex ↔
      ∃ v, ex ∈ (net.server v).shared.executionsOf (N.client k) x := by
  constructor
  · intro made
    obtain ⟨_, v, here, _⟩ := stands.made ex made
    exact ⟨v, here ▸ List.mem_cons_self⟩
  · rintro ⟨v, member⟩
    cases made : st.made with
    | none =>
        rw [stands.unmade made v] at member
        cases member
    | some ex' =>
        obtain ⟨_, v', here, elsewhere⟩ := stands.made ex' made
        have same : v = v' := by
          by_contra other
          rw [elsewhere v other] at member
          cases member
        rw [same, here] at member
        rw [List.mem_singleton.mp member]

theorem Stands.step {k : κ} {x : Nat} {st st' : CallStage S} (traced : Traced N net)
    (changed : Changed net net') (stands : Stands N net k x st) (stands' : Stands N net' k x st') :
    st' = st ∨ ∃ a, (Once.call (Issue S) (Execution S)).next st a = some st' := by
  have grown := changed.grown traced
  apply Once.one_step
  · intro i given
    rw [← stands'.given]
    exact (grown.client k).issued x i (stands.given.trans given)
  · intro ex made
    obtain ⟨v, member⟩ := stands.made_iff.mp made
    obtain ⟨executed, key⟩ := RpcServer.mem_executionsOf.mp member
    exact stands'.made_iff.mpr ⟨v,
      RpcServer.mem_executionsOf.mpr ⟨(grown.server v).executions ex executed, key⟩⟩
  · intro done
    obtain ⟨r, member⟩ := List.exists_mem_of_ne_nil _ (stands.done_iff.mp done)
    obtain ⟨reported, key⟩ := List.mem_filter.mp member
    refine stands'.done_iff.mpr (List.ne_nil_of_mem (a := r) ?_)
    exact List.mem_filter.mpr ⟨(grown.client k).callbacks r reported, key⟩
  · have still : net'.client = net.client → st'.given = st.given ∧ st'.done = st.done := by
      intro client
      have given := stands'.given
      have done := stands'.done_iff
      rw [client] at given done
      refine ⟨given.symm.trans stands.given, ?_⟩
      rw [Bool.eq_iff_iff, done, stands.done_iff]
    cases changed with
    | client _ _ _ server =>
        left
        apply Option.ext
        intro ex
        rw [stands'.made_iff, stands.made_iff, server]
    | server _ _ client => exact .inr (still client)
    | packets client => exact .inr (still client)

omit [DecidableEq κ] [DecidableEq ι] in
theorem Application.before {k : κ} {x : Nat} (grown : Grown net net') (app : Application net' k x) :
    Application net k x :=
  fun i issued => app i ((grown.client k).issued x i issued)

/-- What a run keeps, from any reachable state on. -/
theorem grown_later {ok : Network S κ ι → NetworkAction S κ ι → Prop} (traced : Traced N net)
    (later : Reachable (system S κ ι) ok net net') : Traced N net' ∧ Grown net net' := by
  apply later.invariant (I := fun net' => Traced N net' ∧ Grown net net')
  · exact ⟨traced, fun k => .refl _, fun v => .refl _⟩
  rintro t a u _ ⟨traced, grown⟩ _ moved
  have changed := (stepped moved).changed
  have more := changed.grown traced
  exact ⟨traced.step changed, fun k => (grown.client k).trans (more.client k),
    fun v => (grown.server v).trans (more.server v)⟩

/-- From any reachable state on, a call of an application takes the steps of a call that
runs once: some instance runs it, with its arguments, and then the client reports the error
and the result of that run. No nonce of an instance is 0, which to a server means that
the client names none. -/
theorem calls_run_once (N : Nonces κ ι) (nonzero : ∀ v, N.server v ≠ 0) (net net' : Network S κ ι)
    (run : Reachable (system S κ ι) anyStep (start S N) net)
    (later : Reachable (system S κ ι) anyStep net net') (k : κ) (x : Nat)
    (app : Application net' k x) : ∃ st st', Stands N net k x st ∧ Stands N net' k x st' ∧
      Reachable (Once.call (Issue S) (Execution S)) anyStep st st' := by
  have grown := (grown_later (reachable_traced run) later).2
  obtain ⟨st, stands⟩ := exists_stage nonzero run (app.before grown)
  obtain ⟨st', run', stands'⟩ : ∃ st', Reachable (Once.call (Issue S) (Execution S)) anyStep st st' ∧
      (Application net' k x → Stands N net' k x st') := by
    apply later.simulated (R := fun net st => Application net k x → Stands N net k x st)
    · exact fun _ => stands
    intro t a u st reached _ moved here
    have reached := run.trans reached
    have changed := (stepped moved).changed
    have traced := reachable_traced reached
    by_cases app : Application u k x
    · have stands := here (app.before (changed.grown traced))
      obtain ⟨st', stands'⟩ := exists_stage nonzero (.step reached trivial moved) app
      refine ⟨st', fun _ => stands', ?_⟩
      rcases stands.step traced changed stands' with same | ⟨b, moved'⟩
      · exact .inl same
      · exact .inr ⟨b, trivial, moved'⟩
    · exact ⟨st, fun app' => absurd app' app, .inl rfl⟩
  exact ⟨st, st', stands, stands' app, run'⟩

/-- The handler of the call fails, and its error reaches the application. -/
def failedCall : List (NetworkAction .sample Unit Bool) :=
  callAfterRestart ++
  [.server false (.act 0 (.returns 7 (9 : UInt32) .cancel)), .server false (.act 0 .go),
    .server false (.act 0 .transmit), .client () (.act 0 (.sent .ok)), .reply () 0 0,
    .client () (.act 0 .go), .client () (.act 0 .go), .client () (.act 0 .go),
    .client () (.act 0 .go)]

theorem failedCall_run : ∃ net : Network .sample Unit Bool,
    (system .sample Unit Bool).exec (fun _ _ => true) (start .sample restarted) failedCall = some net ∧
      ((net.client ()).shared.issued 3).map Issue.proc = some 7 ∧
      (reports (net.client ()).shared 3).map (fun r => (r.xid, r.proc, r.err)) = [(3, 7, .cancel)] :=
  System.exec_any (by decide +kernel)

theorem calls_run_once_failed : ∃ net : Network .sample Unit Bool,
    (reports (net.client ()).shared 3).map (fun r => (r.xid, r.proc, r.err)) = [(3, 7, .cancel)] ∧
      ∃ st st', Stands restarted (start .sample restarted) () 3 st ∧ Stands restarted net () 3 st' ∧
        Reachable (Once.call (Issue .sample) (Execution .sample)) anyStep st st' := by
  obtain ⟨net, ran, issued, reported⟩ := failedCall_run
  have app : Application net () 3 := by
    intro i here
    rw [here] at issued
    rw [Option.some.inj issued]
    decide
  exact ⟨net, reported, calls_run_once restarted instanceNonce_ne_zero (start .sample restarted) net
    .init (System.exec_reachable ran).any () 3 app⟩

end AsyncRpc.Network
