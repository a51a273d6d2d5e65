import AsyncRpc.ExactlyOnce
import Mathlib.Algebra.BigOperators.Group.Finset.Basic

/-! Instances come and go, and every packet may reach every one of them: the nonce in
a request sends it to the instance its client had bound to. -/
namespace AsyncRpc.Network
open Interleaving Transition

/-- A number per index, at most one in all, if no two indices have one. -/
theorem sum_le_one {α : Type} (I : Finset α) (f : α → Nat) (each : ∀ v, f v ≤ 1)
    (one : ∀ v v', f v ≠ 0 → f v' ≠ 0 → v = v') : ∑ v ∈ I, f v ≤ 1 := by
  by_cases some : ∃ v ∈ I, f v ≠ 0
  · obtain ⟨v, member, here⟩ := some
    rw [Finset.sum_eq_single_of_mem v member fun v' _ other => by
      by_contra there
      exact other (one v' v there here)]
    exact each v
  · push Not at some
    rw [Finset.sum_eq_zero some]
    exact Nat.zero_le 1

variable {S : Services} {κ ι : Type} [DecidableEq κ] [DecidableEq ι]

/-- A packet in flight has the header that its call built, which never changes. Where no
nonce of an instance is 0, a header that is not for `BIND` names an instance whose Bind
reply a callback of the client got, so its call runs a handler at most once, over any
instances taken together. -/
theorem restart_at_most_once (N : Nonces κ ι) (nonzero : ∀ v, N.server v ≠ 0) (net : Network S κ ι)
    (run : Reachable (system S κ ι) anyStep (start S N) net) :
    (∀ p ∈ net.requests, ∀ h req, RpcServer.Reads p.2 h req →
      (net.client p.1).shared.headers h.xid = some h ∧ h.cltNonce = N.client p.1) ∧
    ∀ k x h, (net.client k).shared.headers x = some h →
      (∀ later, Reachable (system S κ ι) anyStep net later →
        (later.client k).shared.headers x = some h) ∧
      (h.proc ≠ BIND →
        (∃ v, h.srvNonce = N.server v ∧ h.srvNonce ≠ 0 ∧
          (net.client k).shared.Bound h.srvNonce) ∧
        ∀ I : Finset ι, ∑ v ∈ I, (net.server v).shared.invoked.count (N.client k, x) ≤ 1) := by
  have traced := reachable_traced run
  refine ⟨fun p member h req reads => ?_, fun k x h header => ⟨fun later after => ?_, fun other => ?_⟩⟩
  · obtain ⟨x, request⟩ := traced.requests p member
    obtain ⟨header, _⟩ := request_reads request reads
    have known := (traced.client p.1).held.shared.headers x h header
    obtain rfl : h.xid = x := known.xid
    exact ⟨header, known.cltNonce.trans (traced.cltNonce p.1)⟩
  · have both : Traced N later ∧ (later.client k).shared.headers x = some h :=
      after.invariant (I := fun net => Traced N net ∧ (net.client k).shared.headers x = some h)
        ⟨traced, header⟩ fun _ _ _ _ inv _ moved =>
          ⟨inv.1.step (stepped moved).changed,
            ((stepped moved).changed.grown inv.1 |>.client k).headers x h inv.2⟩
    exact both.2
  · have bound := ((traced.client k).held.shared.headers x h header).bound other
    obtain ⟨v, here⟩ := traced.bound bound
    have named : h.srvNonce ≠ 0 := here ▸ nonzero v
    refine ⟨⟨v, here, named, bound⟩,
      fun I => sum_le_one I _ (fun v' => ?_) fun v₁ v₂ some₁ some₂ => ?_⟩
    · have once := (RpcServer.reachable_callInv (server_reachable run v') (N.client_pos k) x).once
      simp only [RpcServer.calls] at once
      omega
    · have names : ∀ v', (net.server v').shared.invoked.count (N.client k, x) ≠ 0 →
          h.srvNonce = N.server v' := by
        intro v' some
        obtain ⟨k', h', client, header', current⟩ :=
          traced.invoked (List.count_pos_iff.mp (Nat.pos_of_ne_zero some))
        obtain rfl := N.client_injective client
        cases header.symm.trans header'
        exact current named
      exact N.server_injective ((names v₁ some₁).symm.trans (names v₂ some₂))

def instanceNonce (v : Bool) : UInt32 := if v then 78 else 77

theorem instanceNonce_ne_zero (v : Bool) : instanceNonce v ≠ 0 := by
  cases v <;> decide

theorem instanceNonce_injective : Function.Injective instanceNonce := by
  intro v v' same
  revert v v'
  decide

/-- One client with nonce 5 and two instances with nonces 77 and 78. -/
def restarted : Nonces Unit Bool where
  client _ := 5
  server := instanceNonce
  client_pos := pair.client_pos
  client_injective _ _ _ := rfl
  server_injective := instanceNonce_injective

/-- The client binds to the first instance, and a copy of its call reaches the second
one first. -/
def callAfterRestart : List (NetworkAction .sample Unit Bool) :=
  bindRun false ++
  [.server true (.act 0 (.accepted ((), 0) .ok)), .server true (.spawn (.register 7)),
    .client () (.spawn (.call 7 (1 : UInt32))), .client () (.act 0 .go), .client () (.act 0 .go),
    .client () (.act 0 .transmit), .copyRequest 0, .request true 0 0, .server true (.act 0 .go),
    .request false 0 0, .server false (.act 0 .go), .server false (.act 0 .go),
    .server false (.act 0 .go), .server false (.act 0 .go)]

theorem callAfterRestart_run : ∃ net : Network .sample Unit Bool,
    (system .sample Unit Bool).exec (fun _ _ => true) (start .sample restarted) callAfterRestart =
      some net ∧ (net.client ()).shared.headers 3 = some ⟨3, 7, 5, 77, 2⟩ ∧
      (net.server false).shared.invoked.count (5, 3) = 1 :=
  System.exec_any (by decide +kernel)

theorem restart_at_most_once_called : ∃ net : Network .sample Unit Bool,
    Reachable (system .sample Unit Bool) anyStep (start .sample restarted) net ∧
      (net.server false).shared.invoked.count (5, 3) = 1 ∧
      ∑ v ∈ {false, true}, (net.server v).shared.invoked.count (5, 3) ≤ 1 := by
  obtain ⟨net, ran, header, called⟩ := callAfterRestart_run
  have run := (System.exec_reachable ran).any
  have call := ((restart_at_most_once restarted instanceNonce_ne_zero net run).2 () 3 _ header).2
    (by decide)
  exact ⟨net, run, called, call.2 {false, true}⟩

end AsyncRpc.Network
