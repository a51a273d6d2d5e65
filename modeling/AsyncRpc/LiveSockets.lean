import AsyncRpc.Connection

/-! The registry of accepted sockets holds plain pointers: a socket lives as long as an
operation or a dispatch of its connection does. -/
namespace AsyncRpc.RpcServer
open Interleaving Transition

variable {S : Services} {ς : Type}

/-- An outstanding operation or a dispatch under way shares in the socket. -/
def Owned (c : Cfg (RpcServer S ς) (ServerTask S ς)) (s : ς) : Prop :=
  ∃ t ∈ c.pool, socketOf t = some s

/-- The sockets that `Stop` closes, in order. -/
def closeAllClientSockets (sv : RpcServer S ς) : List ς := sv.clientSockets

def ClosesLive (c : Cfg (RpcServer S ς) (ServerTask S ς)) : Prop :=
  ∀ s ∈ closeAllClientSockets c.shared, Owned c s

/-- How a section has to end for its connection to go on: a receive without an error, a
dispatch without an exception, which `Buf` of the reply may throw too, and without an
error the `Send` of a fresh or an old-instance reply. -/
def Continues (sv : RpcServer S ς) : ServerTask S ς → ServerLabel S ς → Prop
  | .receive _, .received _ e => e = .ok
  | .dispatch s buf, _ => (sv.dispatch s buf).toOption.isSome
  | .invoke _ h req, _ => (req.get (S.args h.proc)).1.toOption.isSome
  | .running _ _ _, .raises => False
  | .running _ h _, .returns p r _ => h.cltNonce = 0 → ((S.rep p).toJson r).utf8
  | .record _ h rep, _ => (rep.buf S.toCodec).toOption.isSome ∧
      ∃ r ∈ sv.filter.window h.cltNonce, r.xid = h.xid
  | .send _ o _ _, .sent e => o = .handled ∨ o = .oldServer → e = .ok
  | _, _ => True

def GoesOn (c : Cfg (RpcServer S ς) (ServerTask S ς)) : Move (ServerLabel S ς) ServerEvent → Prop
  | .act i l => ∀ t ∈ c.pool[i]?, Continues c.shared t l
  | .spawn _ => True

instance (sv : RpcServer S ς) (t : ServerTask S ς) (l : ServerLabel S ς) :
    Decidable (Continues sv t l) := by
  cases t <;> cases l <;> unfold Continues <;> infer_instance

instance (c : Cfg (RpcServer S ς) (ServerTask S ς)) : DecidablePred (GoesOn c)
  | .act i l => inferInstanceAs (Decidable (∀ t ∈ c.pool[i]?, Continues c.shared t l))
  | .spawn _ => isTrue trivial

theorem socketOf_some {t : ServerTask S ς} (other : t ≠ .accept) : ∃ s, socketOf t = some s := by
  cases t with
  | accept => exact absurd rfl other
  | _ => exact ⟨_, rfl⟩

variable [DecidableEq ς]

/-- A section of a connection leaves nothing behind exactly when it breaks it off. -/
theorem acted_continues {sv sv' : RpcServer S ς} {t : ServerTask S ς} {l : ServerLabel S ς}
    {ts : List (ServerTask S ς)} {os : List (ς × S.Buf)} (step : Acted sv t l sv' ts os)
    (other : t ≠ .accept) : ts ≠ [] ↔ Continues sv t l := by
  cases step with
  | acceptFailed | accepted => exact absurd rfl other
  | receiveFailed failed => simp [Continues, failed]
  | received => simp [Continues]
  | dispatched ok => simp [Continues, ok, Except.toOption]
  | dispatchThrew threw => simp [Continues, threw, Except.toOption]
  | invoked read => simp [Continues, read, Except.toOption]
  | invokeThrew threw => simp [Continues, threw, Except.toOption]
  | raised => simp [Continues]
  | recording returned pos =>
      cases returned with
      | bind => simp [Continues]
      | handler => simp [Continues, UInt32.pos_iff_ne_zero.mp pos]
  | @answered s h args l r e buf returned zero written =>
      have plain : ((S.rep h.proc).toJson r).utf8 :=
        replyDoc_utf8 h.proc ⟨h.xid, e⟩ r ▸ (buf_ok_iff.mp written).1
      cases returned with
      | bind => simp [Continues]
      | handler => simp [Continues, plain]
  | @answerThrew s h args l r e err returned zero threw =>
      have broken : ((S.rep h.proc).toJson r).utf8 = false :=
        replyDoc_utf8 h.proc ⟨h.xid, e⟩ r ▸ (buf_error_iff.mp threw).1
      cases returned with
      | bind isBind =>
          rw [S.bind_utf8 isBind] at broken
          cases broken
      | handler => simp [Continues, zero, broken]
  | @recorded s h rep buf f ok written =>
      have entry := DupFilter.addReply_ok_iff.mp ⟨f, ok⟩
      simpa [Continues, written, Except.toOption] using entry
  | recordThrew threw written =>
      have absent := DupFilter.addReply_absent threw
      simpa [Continues, written, Except.toOption] using absent
  | bufThrew threw => simp [Continues, threw, Except.toOption]
  | @sent s o buf t e whole =>
      simp only [Continues, ← rereads_iff]
      by_cases rereads : Rereads o e
      · simp [onSent_rereads rereads, rereads]
      · simp [onSent_ends rereads, rereads]
  | _ => simp [Continues]

/-- What every run keeps: a connection has one activity at most, and those that have one
are in the registry. -/
theorem reachable_keeps {ok : Cfg (RpcServer S ς) (ServerTask S ς) →
    Move (ServerLabel S ς) ServerEvent → Prop} {nonce : UInt32}
    {c : Cfg (RpcServer S ς) (ServerTask S ς)}
    (run : Reachable (machine S ς).system ok (start S ς nonce) c) (s : ς) : ∃ p, Keeps s c p := by
  obtain ⟨log, watched⟩ := run.any.observed ((machine S ς).shown (seen s))
  obtain ⟨p, _, keeps⟩ := Watched.keeps watched
  exact ⟨p, keeps⟩

variable {c c' : Cfg (RpcServer S ς) (ServerTask S ς)} {m : Move (ServerLabel S ς) ServerEvent}
  {os : List (ς × S.Buf)}

/-- A step that goes on keeps the owners of a socket. -/
theorem Owned.move {s : ς} (owned : Owned c s) (moved : (machine S ς).Moved c c' os m)
    (on : GoesOn c m) : Owned c' s := by
  obtain ⟨t, member, own⟩ := owned
  rcases moved.kept member with stays | ⟨i, l, ts, rfl, taken, ran, left⟩
  · exact ⟨t, stays, own⟩
  · have other : t ≠ .accept := by
      rintro rfl
      cases own
    have step := acted ran
    obtain ⟨u, next⟩ := List.exists_mem_of_ne_nil ts ((acted_continues step other).mpr (on t taken))
    exact ⟨u, left u next, ((acted_socket step other).1 u next).trans own⟩

/-- A new socket is received from at once. -/
theorem moved_registers {s : ς} (moved : (machine S ς).Moved c c' os m)
    (listed : s ∈ c'.shared.clientSockets) : s ∈ c.shared.clientSockets ∨ Owned c' s := by
  cases moved with
  | spawn ts ran quiet left =>
      obtain ⟨ps, shared, _⟩ := spawn_spec ran
      rw [shared] at listed
      exact .inl listed
  | act t rest ts taken split ran left =>
      have step := acted ran
      by_cases accept : t = .accept
      · subst accept
        generalize c'.shared = sv at step listed
        cases step with
        | acceptFailed => exact .inl listed
        | @accepted s' new =>
            rcases List.mem_append.mp listed with old | here
            · exact .inl old
            · cases List.mem_singleton.mp here
              refine .inr ⟨.receive s, ?_, rfl⟩
              rw [left]
              exact List.mem_append_left rest List.mem_cons_self
      · rw [(acted_socket step accept).2] at listed
        exact .inl listed

theorem ClosesLive.move (live : ClosesLive c) (moved : (machine S ς).Moved c c' os m)
    (on : GoesOn c m) : ClosesLive c' := by
  intro s listed
  rcases moved_registers moved listed with old | owned
  · exact (live s old).move moved on
  · exact owned

/-- The activity that breaks off was the only owner of its socket, which stays in the
registry. -/
theorem ClosesLive.goesOn (live : ClosesLive c') (keeps : ∀ s, ∃ p, Keeps s c p)
    (moved : (machine S ς).Moved c c' os m) : GoesOn c m := by
  cases moved with
  | spawn => trivial
  | @act i l t rest ts taken split ran left =>
      intro t' taken'
      cases taken.symm.trans taken'
      by_cases accept : t = .accept
      · subst accept
        cases l <;> trivial
      · have step := acted ran
        obtain ⟨s, own⟩ := socketOf_some accept
        obtain ⟨p, keeps⟩ := keeps s
        apply (acted_continues step accept).mp
        rintro rfl
        have working := keeps.working_iff.mp ⟨t, List.mem_of_getElem? taken, own⟩
        have listed : s ∈ c'.shared.clientSockets := by
          rw [(acted_socket step accept).2]
          exact keeps.known.mpr working.1
        obtain ⟨u, member, mine⟩ := live s listed
        have stays : u ∈ activitiesOf s rest := by
          rw [left] at member
          exact List.mem_filter.mpr ⟨member, decide_eq_true mine⟩
        rw [(keeps.alone split own).2] at stays
        cases stays

theorem reachable_closesLive {nonce : UInt32}
    (run : Reachable (machine S ς).system GoesOn (start S ς nonce) c) : ClosesLive c := by
  apply Machine.invariant run
  · intro s listed
    cases listed
  · intro c m c' os live on moved
    exact live.move moved on

/-- As long as no section breaks its connection off, whatever `Stop` closes is still
owned, and a step leaves it so if and only if it does not break off a connection. -/
theorem stop_closes_live (nonce : UInt32) (c : Cfg (RpcServer S ς) (ServerTask S ς))
    (run : Reachable (machine S ς).system GoesOn (start S ς nonce) c) :
    ClosesLive c ∧
      ∀ m c', (machine S ς).system.next c m = some c' → (ClosesLive c' ↔ GoesOn c m) := by
  have live := reachable_closesLive run
  refine ⟨live, fun m c' moved => ?_⟩
  obtain ⟨os, moved⟩ := Machine.moved_of_system moved
  exact ⟨fun live' => live'.goesOn (reachable_keeps run) moved, live.move moved⟩

/-- A request is answered on a connection that waits for the next one. -/
theorem untilReply_goesOn : ∃ c, (machine .sample Nat).system.exec (fun c m => decide (GoesOn c m))
    (start .sample Nat 77) (untilReply ++ [.act 0 .transmit, .act 0 (.sent .ok)]) = some c ∧
      closeAllClientSockets c.shared = [0] :=
  ⟨_, rfl, rfl⟩

theorem stop_closes_live_replied : ∃ c,
    Reachable (machine .sample Nat).system GoesOn (start .sample Nat 77) c ∧
      closeAllClientSockets c.shared = [0] ∧ Owned c 0 := by
  obtain ⟨c, ran, listed⟩ := untilReply_goesOn
  have run := (System.exec_reachable ran).mono fun _ _ met => of_decide_eq_true met
  refine ⟨c, run, listed, (stop_closes_live 77 c run).1 0 ?_⟩
  rw [listed]
  exact List.mem_cons_self

/-- The peer closes the connection before its first request. -/
theorem peerClosed_run : ∃ c, (machine .sample Nat).system.exec (fun _ _ => true)
    (start .sample Nat 77) [.act 0 (.accepted 0 .ok), .act 0 (.received .null .connectionClosed)] =
      some c ∧ closeAllClientSockets c.shared = [0] ∧ c.pool = [.accept] :=
  ⟨_, rfl, rfl, rfl⟩

theorem stop_closes_dead : ¬ ∀ (nonce : UInt32)
    (c : Cfg (RpcServer .sample Nat) (ServerTask .sample Nat)),
    Reachable (machine .sample Nat).system anyStep (start .sample Nat nonce) c → ClosesLive c := by
  intro always
  obtain ⟨c, ran, listed, pool⟩ := peerClosed_run
  obtain ⟨t, member, own⟩ := always 77 c (System.exec_reachable ran).any 0 (by simp [listed])
  rw [pool, List.mem_singleton] at member
  subst member
  cases own

end AsyncRpc.RpcServer
