import AsyncRpc.ExactlyOnce

/-! What the server forgets the client has received. -/
namespace AsyncRpc
open Interleaving Transition

namespace RpcClient

variable {S : Services} {R : S.Buf → Prop} {c c' : RpcClient S}

/-- The application binds once, and only through `Bind`. -/
def OnceEvent (c : RpcClient S) : ClientEvent S → Prop
  | .call p _ => p ≠ BIND
  | .bind => c.binds = 0
  | .expire _ => True

def OnceMove (c : RpcClient S) : Move (ClientLabel S) (ClientEvent S) → Prop
  | .spawn e => OnceEvent c e
  | .act _ _ => True

instance (c : RpcClient S) (e : ClientEvent S) : Decidable (c.OnceEvent e) :=
  match e with
  | .call p _ => inferInstanceAs (Decidable (p ≠ BIND))
  | .bind => inferInstanceAs (Decidable (c.binds = 0))
  | .expire _ => isTrue trivial

instance (c : RpcClient S) : DecidablePred c.OnceMove
  | .spawn e => inferInstanceAs (Decidable (c.OnceEvent e))
  | .act _ _ => isTrue trivial

/-- Until the binding there is one call, so the window starts at its xid and its front
is reached from there without a gap. -/
structure Contiguous (c : RpcClient S) : Prop where
  binds : c.binds ≤ 1
  first : c.bindDone = false → c.xid ≤ 2 + c.binds
  upto : c.xidRepWindow ≠ [] → XidWindow.Upto (· ∈ c.received) 2 (XidWindow.front c.xidRepWindow)

theorem Contiguous.gotPdu (h : Contiguous c) (known : Known R c) {x : Nat}
    (issued : ∃ i, c.issued x = some i) : Contiguous { c with
      xidRepWindow := XidWindow.updateXidRep c.xidRepWindow x
      received := x :: c.received } := by
  refine ⟨h.binds, h.first, fun _ => ?_⟩
  show XidWindow.Upto (· ∈ x :: c.received) 2 _
  refine XidWindow.updateXidRep_upto known.sorted
    (fun y member => List.mem_cons_of_mem x (known.window y member)) List.mem_cons_self ?_ ?_
  · intro empty
    -- no reply has come, so there is no binding and the only call is the first one
    obtain ⟨i, issued⟩ := issued
    have unbound : c.bindDone = false := by
      apply Bool.eq_false_iff.mpr
      intro bound
      obtain ⟨y, v, ran, _⟩ := known.bound bound
      obtain ⟨_, _, _, received, _⟩ := (known.runs _ ran).replied v rfl
      exact known.acknowledged _ received.2 empty
    have low := known.least.2 x i issued
    have high : ¬ c.xid ≤ x := by
      intro late
      rw [known.fresh x late] at issued
      cases issued
    have := h.first unbound
    have := h.binds
    omega
  · intro some y low high
    exact List.mem_cons_of_mem x (h.upto some y low high)

theorem Contiguous.act {t : ClientTask S} {l : ClientLabel S} {ts : List (ClientTask S)}
    {os : List S.Buf} (h : Contiguous c) (step : Acted c t l c' ts os) (known : Known R c)
    (once : t ≠ .rebind)
    (issued : ∀ buf hd u, t = .gotPdu buf → readReply buf = .ok (hd, u) →
      ∃ i, c.issued hd.xid = some i) : Contiguous c' := by
  cases step with
  | gotPdu reads => exact h.gotPdu known (issued _ _ _ rfl reads)
  | @delivered hd u caller v live value =>
      unfold bindCallback
      split_ifs
      · exact ⟨h.binds, fun unset => (by cases unset), h.upto⟩
      · exact ⟨h.binds, h.first, h.upto⟩
      · exact ⟨h.binds, h.first, h.upto⟩
  | rebind => exact absurd rfl once
  | _ => exact ⟨h.binds, h.first, h.upto⟩

theorem Contiguous.call (h : Contiguous c) {p : Nat} (args : S.Args p) (cb : Callback)
    (room : c.Accepts p → c.bindDone = false → c.xid + 1 ≤ 2 + c.binds) :
    Contiguous (c.call p args cb).1 := by
  rcases call_cases c p args cb with ⟨same, _⟩ | ⟨same, accepted⟩ <;> rw [same]
  · exact h
  · exact ⟨h.binds, room accepted, h.upto⟩

theorem Contiguous.spawn {e : ClientEvent S} {ts : List (ClientTask S)} (h : Contiguous c)
    (step : Spawned c e c' ts) (once : OnceEvent c e) : Contiguous c' := by
  cases step with
  | call => exact h.call _ _ fun accepted unset => absurd (.inl ⟨once, unset⟩) accepted
  | bind =>
      have none : c.binds = 0 := once
      have counted : Contiguous c.countBind :=
        ⟨Nat.le_of_eq (congrArg (· + 1) none), fun unset => (h.first unset).trans (Nat.le_succ _),
          h.upto⟩
      exact counted.call S.bindArgs .bind fun _ unset => Nat.succ_le_succ (h.first unset)
  | expire => exact ⟨h.binds, h.first, h.upto⟩

end RpcClient

namespace Network

variable {S : Services} {κ ι : Type} {N : Nonces κ ι} {net net' : Network S κ ι}

/-- Client `k` starts no second `Bind`. -/
def BindsOnce (k : κ) (net : Network S κ ι) : NetworkAction S κ ι → Prop :=
  OnClient k (net.client k).shared.OnceMove

/-- What an instance takes as acknowledged was once the front of the window. -/
theorem Traced.acked_le_front (traced : Traced N net) (v : ι) (k : κ) :
    (net.server v).shared.filter.maxAckowledgedRep (N.client k) ≤
      XidWindow.front (net.client k).shared.xidRepWindow := by
  by_cases none : (net.server v).shared.filter.maxAckowledgedRep (N.client k) = 0
  · exact none ▸ Nat.zero_le _
  · obtain ⟨s, h, req, asked, client, same⟩ := (traced.server v).shared.acked _ none
    obtain ⟨header, client', _⟩ := traced.asked asked
    obtain rfl : s.1 = k := N.client_injective (client'.symm.trans client)
    exact same ▸ ((traced.client s.1).held.shared.headers _ h header).xidRep

/-- What a contiguous client issued up to the front of its window it has received. -/
theorem Traced.front_received (traced : Traced N net) {k : κ}
    (contiguous : (net.client k).shared.Contiguous) {x : Nat} {i : Issue S}
    (issued : (net.client k).shared.issued x = some i)
    (high : x ≤ XidWindow.front (net.client k).shared.xidRepWindow) :
    x ∈ (net.client k).shared.received := by
  have low := (traced.client k).held.shared.least.2 x i issued
  refine contiguous.upto (fun empty => ?_) x low high
  rw [empty] at high
  exact absurd (low.trans high) (by decide)

/-- An acknowledged xid of a contiguous client came with some reply. -/
theorem Traced.acked_received (traced : Traced N net) {v : ι} {k : κ}
    (contiguous : (net.client k).shared.Contiguous) {x : Nat} {i : Issue S}
    (issued : (net.client k).shared.issued x = some i)
    (acked : x ≤ (net.server v).shared.filter.maxAckowledgedRep (N.client k)) :
    x ∈ (net.client k).shared.received :=
  traced.front_received contiguous issued (acked.trans (traced.acked_le_front v k))

variable [DecidableEq κ] [DecidableEq ι]

theorem reachable_contiguous {k : κ}
    (run : Reachable (system S κ ι) (BindsOnce k) (start S N) net) :
    (net.client k).shared.Contiguous := by
  apply run.invariant (I := fun net => (net.client k).shared.Contiguous)
  · exact ⟨Nat.zero_le _, fun _ => Nat.le_refl _, fun some => absurd rfl some⟩
  intro net a net' run contiguous once moved
  have traced := reachable_traced run
  rcases (stepped moved).atClient k with same | ⟨m, os, moved, _, from'⟩
  · rw [same]; exact contiguous
  cases moved with
  | @act i l t rest ts taken split ran left =>
      have member : t ∈ (net.client k).pool := List.mem_of_getElem? taken
      apply contiguous.act (RpcClient.acted ran) (traced.client k).held.shared
      · rintro rfl
        exact traced.rebinds_never k member
      · rintro buf h u rfl reads
        exact traced.got_issued ⟨buf, (traced.client k).held.task _ member, reads⟩
  | spawn ts ran quiet left =>
      apply contiguous.spawn (RpcClient.spawned ran)
      rcases from' with rfl | ⟨i, j, buf, _, other⟩
      · exact once rfl
      · cases other

theorem moved_covers {ς : Type} [DecidableEq ς] {c c' : Cfg (RpcServer S ς) (ServerTask S ς)}
    {m : Move (ServerLabel S ς) ServerEvent} {os : List (ς × S.Buf)}
    (moved : (RpcServer.machine S ς).Moved c c' os m) {n : UInt32} {x : Nat}
    (taken : c.shared.filter.Covers n x) : c'.shared.filter.Covers n x := by
  cases moved with
  | act t rest ts _ split ran left => exact RpcServer.acted_covers (RpcServer.acted ran) taken
  | spawn ts ran quiet left =>
      obtain ⟨ps, shared, _⟩ := RpcServer.spawn_spec ran
      rw [shared]
      exact taken

/-- For a client that binds once to one server: the acknowledgements it sends and the
one the server keeps stay behind the front of its window, an acknowledged call had a
reply, and so has one whose remembered reply the server drops or whose request it
answers with `ATMOST_ONCE_FAILURE`. -/
theorem no_premature_forgetting (N : Nonces κ Unit) (k : κ) (net : Network S κ Unit)
    (run : Reachable (system S κ Unit) (BindsOnce k) (start S N) net) :
    (net.server ()).shared.filter.maxAckowledgedRep (N.client k) ≤
        XidWindow.front (net.client k).shared.xidRepWindow ∧
      (∀ p ∈ net.requests, p.1 = k → ∀ h req, RpcServer.Reads p.2 h req →
        h.xidRep ≤ XidWindow.front (net.client k).shared.xidRepWindow) ∧
      (∀ x, ((net.client k).shared.issued x).isSome →
        x ≤ (net.server ()).shared.filter.maxAckowledgedRep (N.client k) →
        x ∈ (net.client k).shared.received) ∧
      (∀ a net', BindsOnce k net a → (system S κ Unit).next net a = some net' →
        ∀ r ∈ (net.server ()).shared.filter.window (N.client k),
          (∀ r' ∈ (net'.server ()).shared.filter.window (N.client k), r'.xid ≠ r.xid) →
          r.xid ∈ (net.client k).shared.received) ∧
      ∀ n buf sent, .send (k, n) .forgotten buf sent ∈ (net.server ()).pool →
        ∃ x ∈ (net.client k).shared.received, buf = forgottenBuf S x := by
  have traced := reachable_traced run
  have contiguous := reachable_contiguous run
  refine ⟨traced.acked_le_front () k, ?_, ?_, ?_, ?_⟩
  · rintro p member rfl h req reads
    obtain ⟨x, request⟩ := traced.requests p member
    exact ((traced.client p.1).held.shared.headers x h (request_reads request reads).1).xidRep
  · intro x issued acked
    obtain ⟨i, issued⟩ := Option.isSome_iff_exists.mp issued
    exact traced.acked_received contiguous issued acked
  · intro a net' once moved r member dropped
    have traced' := traced.step (stepped moved).changed
    cases (stepped moved).changed with
    | client _ _ _ server => rw [server] at dropped; exact absurd rfl (dropped r member)
    | packets _ server => rw [server] at dropped; exact absurd rfl (dropped r member)
    | @server v m c os ran _ client server =>
        obtain ⟨s, h, req, asked, owner, same⟩ := (traced.server ()).shared.taken _ r member
        obtain ⟨_, owner', args, issued, _⟩ := traced.asked asked
        obtain rfl : s.1 = k := N.client_injective (owner'.symm.trans owner)
        have moved : (RpcServer.machine S (κ × Nat)).Moved (net.server ()) (net'.server ()) os m := by
          rw [server]
          simpa using Machine.moved ran
        rcases moved_covers moved (.inr ⟨r, member, rfl⟩) with acked | ⟨r', member', here⟩
        · rw [← client] at contiguous issued ⊢
          exact traced'.acked_received contiguous (same ▸ issued) acked
        · exact absurd here (dropped r' member')
  · intro n buf sent member
    obtain ⟨h, req, asked, reply⟩ := (traced.server ()).task _ member
    obtain ⟨_, owner, args, issued, _⟩ := traced.asked asked
    cases reply with
    | forgotten _ acked =>
        exact ⟨h.xid, traced.acked_received contiguous issued (owner ▸ acked), rfl⟩

instance (k : κ) (net : Network S κ ι) (a : NetworkAction S κ ι) : Decidable (BindsOnce k net a) :=
  inferInstanceAs (Decidable (OnClient k _ a))

/-- A call after the binding acknowledges the xid of `Bind`. -/
def acknowledging : List (NetworkAction .sample Unit Unit) :=
  bindRun () ++
  [.client () (.spawn (.call 7 (1 : UInt32))), .client () (.act 0 .go), .client () (.act 0 .go),
    .client () (.act 0 .transmit), .request () 0 0, .server () (.act 0 .go),
    .server () (.act 0 .go), .server () (.act 0 .go)]

theorem acknowledging_run : ∃ net : Network .sample Unit Unit,
    (system .sample Unit Unit).exec (fun net a => decide (BindsOnce () net a))
      (start .sample pair) acknowledging = some net ∧
      ((net.client ()).shared.issued 2).isSome = true ∧
      (net.server ()).shared.filter.maxAckowledgedRep 5 = 2 :=
  System.exec_any (by decide +kernel)

theorem no_premature_forgetting_acknowledging : ∃ net : Network .sample Unit Unit,
    Reachable (system .sample Unit Unit) (BindsOnce ()) (start .sample pair) net ∧
      2 ∈ (net.client ()).shared.received := by
  obtain ⟨net, ran, issued, acked⟩ := acknowledging_run
  have run := (System.exec_reachable ran).mono fun _ _ met => of_decide_eq_true met
  refine ⟨net, run, (no_premature_forgetting pair () net run).2.2.1 2 issued ?_⟩
  exact acked.ge

end Network

end AsyncRpc
