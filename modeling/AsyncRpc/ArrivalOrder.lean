import AsyncRpc.ReplyHistory
import Mathlib.Data.List.Sort

/-! What the filter remembers of a client does not depend on the order in which its
requests came in. -/
namespace AsyncRpc
open Serving

/-- The filter operations of a list of requests, each an xid and an acknowledgement. -/
def arrivals {β : Type} (requests : List (Nat × Nat)) : List (FilterOp β) :=
  requests.map fun r => .checkDuplicateAndUpdate r.1 r.2

/-- The highest acknowledgement of the requests. -/
def lastAck (ack : Nat) (requests : List (Nat × Nat)) : Nat :=
  requests.foldl (fun ack r => max ack r.2) ack

theorem le_lastAck (ack : Nat) (requests : List (Nat × Nat)) : ack ≤ lastAck ack requests := by
  induction requests generalizing ack with
  | nil => exact Nat.le_refl _
  | cons r rest ih => exact (Nat.le_max_left ack r.2).trans (ih _)

theorem lastAck_perm {requests requests' : List (Nat × Nat)} (perm : requests.Perm requests')
    (ack : Nat) : lastAck ack requests = lastAck ack requests' := by
  apply perm.foldl_eq'
  intro r _ r' _ ack
  exact Nat.max_right_comm ack r.2 r'.2

namespace ReplyHistory

variable {β : Type}

/-- An xid above the mark is taken as soon as it is asked for. -/
theorem check_taken (H : ReplyHistory β) (xid : Nat) {x : Nat} (above : H.ack < x) :
    x ∈ (H.check xid).2.taken ↔ x ∈ H.taken ∨ x = xid := by
  unfold check
  split_ifs with old fresh
  · constructor
    · exact .inl
    · rintro (taken | rfl)
      · exact taken
      · exact absurd old (Nat.not_le_of_lt above)
  · have here : x ∈ H.taken ↔ x ∈ H.taken ∨ x = xid := by
      constructor
      · exact .inl
      · rintro (taken | rfl)
        · exact taken
        · exact fresh
    split <;> exact here
  · rw [Finset.mem_insert, or_comm]

@[simp] theorem check_ack (H : ReplyHistory β) (xid : Nat) : (H.check xid).2.ack = H.ack := by
  unfold check
  split_ifs
  · rfl
  · split <;> rfl
  · rfl

theorem after_arrivals (H : ReplyHistory β) (requests : List (Nat × Nat)) :
    (service.after H (arrivals requests)).ack = lastAck H.ack requests ∧
      ∀ x, lastAck H.ack requests < x →
        (x ∈ (service.after H (arrivals requests)).taken ↔
          x ∈ H.taken ∨ x ∈ requests.map Prod.fst) := by
  induction requests generalizing H with
  | nil =>
      refine ⟨rfl, fun x _ => ?_⟩
      simp [arrivals, Service.after]
  | cons r rest ih =>
      have first : (service.serve H (.checkDuplicateAndUpdate r.1 r.2)).2.ack = max H.ack r.2 :=
        check_ack _ r.1
      obtain ⟨ack, taken⟩ := ih (service.serve H (.checkDuplicateAndUpdate r.1 r.2)).2
      rw [first] at ack taken
      refine ⟨ack, fun x above => ?_⟩
      have low : max H.ack r.2 < x := (le_lastAck _ rest).trans_lt above
      refine (taken x above).trans ?_
      rw [List.map_cons, List.mem_cons, ← or_assoc]
      exact or_congr_left (check_taken { H with ack := max H.ack r.2 } r.1 low)

end ReplyHistory

namespace DupFilter

variable {β : Type}

/-- One client's requests passed to `CheckDuplicateAndUpdate` one after another. -/
def checkAll (empty : β) (n : UInt32) (f : DupFilter β) (requests : List (Nat × Nat)) :
    DupFilter β :=
  requests.foldl (fun f r => (checkDuplicateAndUpdate empty f n r.1 r.2).2) f

theorem checkAll_eq (empty : β) (n : UInt32) (f : DupFilter β) (requests : List (Nat × Nat)) :
    checkAll empty n f requests =
      (service empty).after f ((arrivals requests).map fun op => (n, op)) := by
  induction requests generalizing f with
  | nil => rfl
  | cons r rest ih => exact ih _

theorem opsOf_map {α : Type} (n : UInt32) (ops : List α) :
    opsOf n (ops.map fun op => (n, op)) = ops := by
  induction ops with
  | nil => rfl
  | cons op rest ih => rw [List.map_cons, opsOf, if_pos rfl, ih]

/-- What is remembered in the end: the highest acknowledgement, and every xid above it
that was asked for at all. -/
theorem checkAll_spec (empty : β) (n : UInt32) (requests : List (Nat × Nat)) :
    (checkAll empty n {} requests).maxAckowledgedRep n = lastAck 0 requests ∧
      Ascending ((checkAll empty n {} requests).window n) ∧
      ∀ x, x ∈ ((checkAll empty n {} requests).window n).map ReplyT.xid ↔
        x ∈ requests.map Prod.fst ∧ lastAck 0 requests < x := by
  rw [checkAll_eq]
  have after := (service_simulates empty n).after (Remembers.start n)
    ((arrivals requests).map fun op => (n, op))
  rw [opsOf_map] at after
  obtain ⟨ack, taken⟩ := ReplyHistory.after_arrivals ({} : ReplyHistory β) requests
  refine ⟨after.ack.trans ack, after.sorted n, fun x => ?_⟩
  rw [List.mem_map, after.xids x, ack]
  constructor
  · rintro ⟨member, above⟩
    exact ⟨((taken x above).mp member).resolve_left (Finset.notMem_empty x), above⟩
  · rintro ⟨member, above⟩
    exact ⟨(taken x above).mpr (.inr member), above⟩

/-- Two orders of arrival leave the same mark and the same xids in the window. -/
theorem arrival_order_immaterial (empty : β) (n : UInt32) {requests requests' : List (Nat × Nat)}
    (perm : requests.Perm requests') :
    (checkAll empty n {} requests).maxAckowledgedRep n =
        (checkAll empty n {} requests').maxAckowledgedRep n ∧
      ((checkAll empty n {} requests).window n).map ReplyT.xid =
        ((checkAll empty n {} requests').window n).map ReplyT.xid := by
  obtain ⟨ack, asc, xids⟩ := checkAll_spec empty n requests
  obtain ⟨ack', asc', xids'⟩ := checkAll_spec empty n requests'
  have same := lastAck_perm perm 0
  constructor
  · rw [ack, ack', same]
  · apply List.Pairwise.eq_of_mem_iff (ascending_iff.mp asc) (ascending_iff.mp asc')
    intro x
    rw [xids, xids', same, (perm.map Prod.fst).mem_iff]

/-- Call 3 acknowledges nothing and call 5 acknowledges 4: which comes first decides
whether 3 is NEW, but not what is left. -/
theorem arrival_order_immaterial_swapped :
    (checkAll "" 7 {} [(5, 4), (3, 0)]).maxAckowledgedRep 7 = 4 ∧
      ((checkAll "" 7 {} [(5, 4), (3, 0)]).window 7).map ReplyT.xid = [5] := by
  obtain ⟨mark, xids⟩ := arrival_order_immaterial "" 7 (List.Perm.swap (3, 0) (5, 4) [])
  exact ⟨mark.trans rfl, xids.trans rfl⟩

end DupFilter

end AsyncRpc
