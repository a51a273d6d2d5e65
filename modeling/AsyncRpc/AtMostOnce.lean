import AsyncRpc.RpcServer

/-! One server instance calls the handler at most once for a client and xid. -/
namespace AsyncRpc.RpcServer
open Interleaving Transition

variable {S : Services} {ς : Type}

/-- A dispatch that was answered NEW and has not called the handler yet. -/
def aboutToInvoke (n : UInt32) (x : Nat) : ServerTask S ς → Nat
  | .invoke _ h _ => if (h.cltNonce, h.xid) = (n, x) then 1 else 0
  | _ => 0

/-- Calls made and calls still owed for one client and xid. -/
def calls (n : UInt32) (x : Nat) (c : Cfg (RpcServer S ς) (ServerTask S ς)) : Nat :=
  c.shared.invoked.count (n, x) + weigh (aboutToInvoke n x) c.pool

/-- The filter has taken every xid for which a call was made or is owed. -/
structure CallInv (n : UInt32) (x : Nat) (c : Cfg (RpcServer S ς) (ServerTask S ς)) : Prop where
  sorted : c.shared.filter.Sorted
  once : calls n x c ≤ 1
  covered : 0 < calls n x c → c.shared.filter.Covers n x

/-- A request with nonce 0 belongs to no client that has one. -/
theorem anonymous_ne {n m : UInt32} (pos : 0 < n) (zero : m = 0) (x y : Nat) : (m, y) ≠ (n, x) := by
  intro same
  have anonymous : n = 0 := (congrArg Prod.fst same).symm.trans zero
  exact absurd anonymous (UInt32.pos_iff_ne_zero.mp pos)

theorem dispatch_aboutToInvoke {sv : RpcServer S ς} {s : ς} {buf : S.Buf} {t : ServerTask S ς}
    (ok : sv.dispatch s buf = .ok t) {n : UInt32} (pos : 0 < n) (x : Nat) :
    aboutToInvoke n x t = 0 := by
  cases dispatched ok with
  | oldServer | filtered => rfl
  | plain _ _ _ zero => exact if_neg (anonymous_ne pos zero x _)

/-- After a reply there is at most the next receive. -/
theorem mem_onSent {s : ς} {o : Origin} {e : Err} {u : ServerTask S ς} (member : u ∈ onSent s o e) :
    u = .receive s := by
  cases o with
  | handled | oldServer =>
      unfold onSent at member
      split_ifs at member
      · exact List.mem_singleton.mp member
      · cases member
  | remembered | forgotten => exact List.mem_singleton.mp member

/-- A weight that ignores the next receive ignores what follows a reply. -/
theorem weigh_onSent {w : ServerTask S ς → Nat} (idle : ∀ s, w (.receive s) = 0) (s : ς)
    (o : Origin) (e : Err) : weigh w (onSent s o e) = 0 := by
  apply weigh_eq_zero
  intro u member
  rw [mem_onSent member, idle]

/-- A section moves the calls of one client and xid along, except that a NEW verdict
adds one, and only when the filter had not taken that xid. -/
theorem acted_calls [DecidableEq ς] {sv sv' : RpcServer S ς} {t : ServerTask S ς}
    {l : ServerLabel S ς} {ts : List (ServerTask S ς)} {os : List (ς × S.Buf)}
    (h : Acted sv t l sv' ts os) {n : UInt32} (pos : 0 < n) (x : Nat) (sorted : sv.filter.Sorted) :
    sv'.invoked.count (n, x) + weigh (aboutToInvoke n x) ts =
        sv.invoked.count (n, x) + aboutToInvoke n x t ∨
      (sv'.invoked.count (n, x) + weigh (aboutToInvoke n x) ts =
          sv.invoked.count (n, x) + aboutToInvoke n x t + 1 ∧
        ¬ sv.filter.Covers n x ∧ sv'.filter.Covers n x) := by
  cases h with
  | dispatched ok =>
      left
      rw [weigh_cons, dispatch_aboutToInvoke ok pos]
      rfl
  | invoked | invokeThrew =>
      left
      simp only [throwing, List.count_cons, weigh_nil, weigh_cons, aboutToInvoke, beq_iff_eq,
        Nat.add_zero]
  | sent => exact .inl (by rw [weigh_onSent fun _ => rfl]; rfl)
  | @check s h req =>
      cases verdict : (sv.filter.checkDuplicateAndUpdate S.empty h.cltNonce h.xid h.xidRep).1 with
      | inprogress | done | forgotten => exact .inl rfl
      | new =>
          by_cases same : (h.cltNonce, h.xid) = (n, x)
          · right
            constructor
            · simp [onVerdict, aboutToInvoke, same]
            · cases same
              exact ⟨DupFilter.check_new_fresh _ _ _ _ _ sorted verdict,
                DupFilter.check_new_covers _ _ _ _ _ verdict⟩
          · exact .inl (by simp [onVerdict, aboutToInvoke, same])
  | _ => exact .inl rfl

theorem acted_sorted [DecidableEq ς] {sv sv' : RpcServer S ς} {t : ServerTask S ς}
    {l : ServerLabel S ς} {ts : List (ServerTask S ς)} {os : List (ς × S.Buf)}
    (h : Acted sv t l sv' ts os) (sorted : sv.filter.Sorted) : sv'.filter.Sorted := by
  cases h with
  | newWindow => intro n; rw [DupFilter.createWindow_window]; exact sorted n
  | check => exact DupFilter.check_sorted _ _ _ _ _ sorted
  | recorded ok => exact DupFilter.addReply_sorted ok sorted
  | _ => exact sorted

/-- What the filter has taken it never gives back. -/
theorem acted_covers [DecidableEq ς] {sv sv' : RpcServer S ς} {t : ServerTask S ς}
    {l : ServerLabel S ς} {ts : List (ServerTask S ς)} {os : List (ς × S.Buf)}
    (h : Acted sv t l sv' ts os) {n : UInt32} {x : Nat} (taken : sv.filter.Covers n x) :
    sv'.filter.Covers n x := by
  cases h with
  | newWindow => simpa [DupFilter.Covers] using taken
  | check => exact taken.check _ _ _ _ _
  | recorded ok => exact (DupFilter.addReply_covers ok).mpr taken
  | _ => exact taken

theorem spawn_spec {sv sv' : RpcServer S ς} {e : ServerEvent} {ts : List (ServerTask S ς)}
    (h : sv.spawn e = some (sv', ts)) : ∃ ps, sv' = { sv with procs := ps } ∧ ts = [] := by
  obtain ⟨p⟩ := e
  simp only [spawn] at h
  split_ifs at h
  cases h
  exact ⟨_, rfl, rfl⟩

theorem CallInv.next [DecidableEq ς] {n : UInt32} (pos : 0 < n) {x : Nat}
    {c c' : Cfg (RpcServer S ς) (ServerTask S ς)} {m : Move (ServerLabel S ς) ServerEvent}
    {os : List (ς × S.Buf)} (inv : CallInv n x c) (moved : (machine S ς).Moved c c' os m) :
    CallInv n x c' := by
  obtain ⟨sorted, once, covered⟩ := inv
  cases moved with
  | spawn ts ran _ left =>
      obtain ⟨ps, shared, rfl⟩ := spawn_spec ran
      have same : calls n x c' = calls n x c := by simp [calls, left, shared]
      exact ⟨shared ▸ sorted, same ▸ once, fun some => shared ▸ covered (same ▸ some)⟩
  | act t rest ts _ split ran left =>
      have step := acted ran
      have account := weigh_act (aboutToInvoke n x) split left
      refine ⟨acted_sorted step sorted, ?_, ?_⟩
      · rcases acted_calls step pos x sorted with same | ⟨more, free, _⟩
        · simp only [calls] at once ⊢
          omega
        · have none : calls n x c = 0 := by
            by_contra some
            exact free (covered (Nat.pos_of_ne_zero some))
          simp only [calls] at none ⊢
          omega
      · intro some
        rcases acted_calls step pos x sorted with same | ⟨_, _, taken⟩
        · refine acted_covers step (covered ?_)
          simp only [calls] at some ⊢
          omega
        · exact taken

theorem reachable_callInv [DecidableEq ς] {nonce : UInt32}
    {c : Cfg (RpcServer S ς) (ServerTask S ς)}
    (run : Reachable (machine S ς).system anyStep (start S ς nonce) c) {n : UInt32} (pos : 0 < n)
    (x : Nat) : CallInv n x c := by
  apply Machine.invariant run
  · refine ⟨fun _ => List.Pairwise.nil, ?_, ?_⟩
    · simp [calls, start, aboutToInvoke]
    · simp [calls, start, aboutToInvoke]
  · intro c m c' os inv _ moved
    exact inv.next pos moved

/-- A handler that was called and has not come back. -/
def inHandler (n : UInt32) (x : Nat) : ServerTask S ς → Nat
  | .running _ h _ => if (h.cltNonce, h.xid) = (n, x) then 1 else 0
  | _ => 0

def executionsOf (sv : RpcServer S ς) (n : UInt32) (x : Nat) : List (Execution S) :=
  sv.executions.filter fun ex => (ex.cltNonce, ex.xid) = (n, x)

theorem mem_executionsOf {sv : RpcServer S ς} {n : UInt32} {x : Nat} {ex : Execution S} :
    ex ∈ sv.executionsOf n x ↔ ex ∈ sv.executions ∧ ex.cltNonce = n ∧ ex.xid = x := by
  simp [executionsOf, List.mem_filter]

theorem executed_executionsOf (sv : RpcServer S ς) (s : ς) (h : RequestHeader)
    (args : S.Args h.proc) (r : S.Rep h.proc) (e : Err) (n : UInt32) (x : Nat) :
    ((sv.executed h args r e).executionsOf n x).length =
      (sv.executionsOf n x).length + inHandler (S := S) n x (.running s h args) := by
  simp only [executed, executionsOf, List.filter_cons, inHandler, decide_eq_true_iff]
  split_ifs <;> rfl

theorem onVerdict_inHandler (s : ς) (h : RequestHeader) (req : Unmarshall) (verdict : State)
    (n : UInt32) (x : Nat) : inHandler (S := S) n x (onVerdict s h req verdict) = 0 := by
  cases verdict <;> rfl

theorem dispatch_inHandler {sv : RpcServer S ς} {s : ς} {buf : S.Buf} {t : ServerTask S ς}
    (ok : sv.dispatch s buf = .ok t) (n : UInt32) (x : Nat) : inHandler n x t = 0 := by
  cases dispatched ok <;> rfl

/-- A call of the handler comes back at most once. -/
theorem acted_executions [DecidableEq ς] {sv sv' : RpcServer S ς} {t : ServerTask S ς}
    {l : ServerLabel S ς} {ts : List (ServerTask S ς)} {os : List (ς × S.Buf)}
    (h : Acted sv t l sv' ts os) (n : UInt32) (x : Nat) :
    (sv'.executionsOf n x).length + weigh (inHandler n x) ts + sv.invoked.count (n, x) ≤
      (sv.executionsOf n x).length + inHandler n x t + sv'.invoked.count (n, x) := by
  cases h with
  | dispatched ok => rw [weigh_cons, dispatch_inHandler ok]; exact Nat.le_refl _
  | check => rw [weigh_cons, onVerdict_inHandler]; exact Nat.le_refl _
  | @invoked s h req args read =>
      simp only [weigh_cons, weigh_nil, inHandler, List.count_cons, beq_iff_eq]
      exact Nat.le_of_eq (by rw [Nat.add_zero, Nat.add_zero, Nat.add_right_comm, Nat.add_assoc]; rfl)
  | @invokeThrew s h req e threw =>
      simp only [weigh_nil, inHandler, throwing, List.count_cons]
      exact Nat.add_le_add_left (Nat.le_add_right _ _) _
  | @recording s h args | @answered s h args | @answerThrew s h args =>
      exact Nat.add_le_add_right (Nat.le_of_eq (executed_executionsOf sv s h args _ _ n x)) _
  | raised => exact Nat.add_le_add_right (Nat.add_le_add_left (Nat.zero_le _) _) _
  | sent => rw [weigh_onSent fun _ => rfl]; exact Nat.le_refl _
  | _ => exact Nat.le_refl _

theorem reachable_executions [DecidableEq ς] {nonce : UInt32}
    {c : Cfg (RpcServer S ς) (ServerTask S ς)}
    (run : Reachable (machine S ς).system anyStep (start S ς nonce) c) (n : UInt32) (x : Nat) :
    (c.shared.executionsOf n x).length + weigh (inHandler n x) c.pool ≤
      c.shared.invoked.count (n, x) := by
  refine Machine.invariant run (I := fun c => (c.shared.executionsOf n x).length +
    weigh (inHandler n x) c.pool ≤ c.shared.invoked.count (n, x)) (Nat.le_refl _) ?_
  intro c m c' os bound _ moved
  cases moved with
  | act t rest ts _ split ran left =>
      have step := acted_executions (acted ran) n x
      have account := weigh_act (inHandler n x) split left
      omega
  | spawn ts ran _ left =>
      obtain ⟨ps, shared, rfl⟩ := spawn_spec ran
      rw [left, shared]
      exact bound

/-- The handler of a call runs at most once to its end, and the call of that handler is
the only one. -/
theorem execution_alone [DecidableEq ς] {nonce : UInt32} {c : Cfg (RpcServer S ς) (ServerTask S ς)}
    (run : Reachable (machine S ς).system anyStep (start S ς nonce) c) {ex : Execution S}
    (member : ex ∈ c.shared.executions) (pos : 0 < ex.cltNonce) :
    c.shared.executionsOf ex.cltNonce ex.xid = [ex] ∧
      c.shared.invoked.count (ex.cltNonce, ex.xid) = 1 := by
  have once := (reachable_callInv run pos ex.xid).once
  have back := reachable_executions run ex.cltNonce ex.xid
  have here : ex ∈ c.shared.executionsOf ex.cltNonce ex.xid :=
    mem_executionsOf.mpr ⟨member, rfl, rfl⟩
  have some := List.length_pos_of_mem here
  simp only [calls] at once
  have one : (c.shared.executionsOf ex.cltNonce ex.xid).length = 1 := by omega
  obtain ⟨ex', same⟩ := List.length_eq_one_iff.mp one
  rw [same] at here
  exact ⟨by rw [same, List.mem_singleton.mp here], by omega⟩

/-- A dispatch of this client and xid between the NEW verdict and the end of `AddReply`. -/
def pending (n : UInt32) (x : Nat) : ServerTask S ς → Nat
  | .invoke _ h _ | .running _ h _ | .record _ h _ => if (h.cltNonce, h.xid) = (n, x) then 1 else 0
  | _ => 0

/-- Nothing but a NEW verdict puts another dispatch between NEW and `AddReply`. -/
theorem acted_pending [DecidableEq ς] {sv sv' : RpcServer S ς} {t : ServerTask S ς} {l : ServerLabel S ς}
    {ts : List (ServerTask S ς)} {os : List (ς × S.Buf)} (step : Acted sv t l sv' ts os)
    (sorted : sv.filter.Sorted) (n : UInt32) (x : Nat)
    (apart : ∀ s buf u, t = .dispatch s buf → sv.dispatch s buf = .ok u → pending n x u = 0) :
    weigh (pending n x) ts ≤ pending n x t ∨
      (weigh (pending n x) ts = 1 ∧ pending n x t = 0 ∧ ¬ sv.filter.Covers n x) := by
  cases step with
  | dispatched ok =>
      left
      rw [weigh_cons, weigh_nil, apart _ _ _ rfl ok]
      exact Nat.zero_le _
  | @check s h req =>
      cases verdict : (sv.filter.checkDuplicateAndUpdate S.empty h.cltNonce h.xid h.xidRep).1 with
      | inprogress | done | forgotten => exact .inl (Nat.le_refl _)
      | new =>
          by_cases same : (h.cltNonce, h.xid) = (n, x)
          · right
            refine ⟨by simp [onVerdict, pending, same], rfl, ?_⟩
            cases same
            exact DupFilter.check_new_fresh _ _ _ _ _ sorted verdict
          · exact .inl (by simp [onVerdict, pending, same])
  | sent => exact .inl (by rw [weigh_onSent fun _ => rfl]; exact Nat.zero_le _)
  | invokeThrew | raised | answered | answerThrew | recordThrew | bufThrew | recorded =>
      exact .inl (Nat.zero_le _)
  | _ => exact .inl (Nat.le_refl _)

/-- Whatever the connections send and however the workers interleave, the handler is
called at most once for a client nonce and xid. -/
theorem handler_at_most_once [DecidableEq ς] (nonce : UInt32)
    (c : Cfg (RpcServer S ς) (ServerTask S ς))
    (run : Reachable (machine S ς).system anyStep (start S ς nonce) c) (n : UInt32) (pos : 0 < n)
    (x : Nat) : c.shared.invoked.count (n, x) ≤ 1 := by
  have once := (reachable_callInv run pos x).once
  simp only [calls] at once
  omega

/-- One request, delivered twice on two connections. -/
def duplicatedRequest : List (Move (ServerLabel .sample Nat) ServerEvent) :=
  let buf : Json := (requestDoc .sample ⟨2, BIND, 5, 0, 0⟩ (0 : UInt32)).json
  [.act 0 (.accepted 0 .ok), .act 1 (.accepted 1 .ok), .act 0 (.received buf .ok),
    .act 2 (.received buf .ok), .act 0 .go, .act 0 .go, .act 0 .go, .act 0 .go,
    .act 1 .go, .act 0 .go, .act 0 .go]

theorem duplicatedRequest_run :
    ∃ c, (machine .sample Nat).system.exec (fun _ _ => true) (start .sample Nat 77)
        duplicatedRequest = some c ∧ c.shared.invoked = [(5, 2)] :=
  ⟨_, rfl, rfl⟩

theorem handler_at_most_once_duplicated :
    ∃ c, Reachable (machine .sample Nat).system anyStep (start .sample Nat 77) c ∧
      c.shared.invoked = [(5, 2)] ∧ c.shared.invoked.count (5, 2) ≤ 1 := by
  obtain ⟨c, ran, made⟩ := duplicatedRequest_run
  have run := (System.exec_reachable ran).any
  exact ⟨c, run, made, handler_at_most_once 77 c run 5 (by decide) 2⟩

end AsyncRpc.RpcServer
