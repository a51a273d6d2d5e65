import AsyncRpc.Foundation.Service
import AsyncRpc.ReplyWindow
import Mathlib.Data.Finset.Insert

/-! The duplicate filter against one that forgets nothing: the window is what is left
of the whole history above the acknowledgement. -/
namespace AsyncRpc
open Serving

inductive FilterOp (β : Type) where
  | checkDuplicateAndUpdate (xid xidRep : Nat)
  | addReply (xid : Nat) (buf : β)

/-- A verdict with the bytes under `*rep_buf`, which only DONE sets; for `AddReply`
whether it threw. -/
inductive FilterAnswer (β : Type) where
  | verdict (s : State) (repBuf : Option β)
  | added
  | threw
  deriving DecidableEq

namespace DupFilter

variable {β : Type}

/-- `*rep_buf`, which points into the entry of `xid`. -/
def repBuf (f : DupFilter β) (cltNonce : UInt32) (xid : Nat) : Option β :=
  ((f.window cltNonce).find? fun r => r.xid = xid).map ReplyT.buf

def serve (empty : β) (f : DupFilter β) : UInt32 × FilterOp β → FilterAnswer β × DupFilter β
  | (n, .checkDuplicateAndUpdate xid xidRep) =>
      let r := checkDuplicateAndUpdate empty f n xid xidRep
      (.verdict r.1 (if r.1 = .done then r.2.repBuf n xid else none), r.2)
  | (n, .addReply xid buf) =>
      match f.addReply n xid buf with
      | .ok f' => (.added, f')
      | .error _ => (.threw, f)

def service (empty : β) : Service (DupFilter β) (UInt32 × FilterOp β) (FilterAnswer β) where
  serve := serve empty

end DupFilter

/-- All that one client ever asked and was told: `taken` are the xids answered NEW. -/
structure ReplyHistory (β : Type) where
  ack : Nat := 0
  taken : Finset Nat := ∅
  reply : Nat → Option β := fun _ => none

namespace ReplyHistory

variable {β : Type}

def check (H : ReplyHistory β) (xid : Nat) : FilterAnswer β × ReplyHistory β :=
  if xid ≤ H.ack then (.verdict .forgotten none, H)
  else if xid ∉ H.taken then (.verdict .new none, { H with taken := insert xid H.taken })
  else
    match H.reply xid with
    | some buf => (.verdict .done (some buf), H)
    | none => (.verdict .inprogress none, H)

def serve (H : ReplyHistory β) : FilterOp β → FilterAnswer β × ReplyHistory β
  | .checkDuplicateAndUpdate xid xidRep => { H with ack := max H.ack xidRep }.check xid
  | .addReply xid buf =>
      if xid ≤ H.ack ∨ xid ∉ H.taken then (.threw, H)
      else (.added, { H with reply := Function.update H.reply xid (some buf) })

def service : Service (ReplyHistory β) (FilterOp β) (FilterAnswer β) where
  serve := serve

end ReplyHistory

namespace DupFilter

variable {β : Type}

theorem repBuf_eq {f : DupFilter β} {n : UInt32} {r : ReplyT β} (asc : Ascending (f.window n))
    (member : r ∈ f.window n) : f.repBuf n r.xid = some r.buf := by
  unfold repBuf
  cases found : (f.window n).find? fun s => s.xid = r.xid with
  | none =>
      have absent := List.find?_eq_none.mp found r member
      simp at absent
  | some s =>
      have same : s.xid = r.xid := by simpa using List.find?_some found
      rw [asc.unique (List.mem_of_find?_eq_some found) member same]
      rfl

/-- What the filter holds for client `n` when `H` is the history of that client. -/
structure Remembers (n : UInt32) (f : DupFilter β) (H : ReplyHistory β) : Prop where
  sorted : f.Sorted
  ack : f.maxAckowledgedRep n = H.ack
  xids : ∀ x, (∃ r ∈ f.window n, r.xid = x) ↔ x ∈ H.taken ∧ H.ack < x
  replies : ∀ r ∈ f.window n, H.reply r.xid = if r.cbPresent then some r.buf else none
  unsaid : ∀ x, x ∉ H.taken → H.reply x = none

theorem Remembers.start (n : UInt32) : Remembers n ({} : DupFilter β) {} where
  sorted _ := List.Pairwise.nil
  ack := rfl
  xids x := by simp [window]
  replies r member := by cases member
  unsaid _ _ := rfl

section Check

variable (empty : β) {f : DupFilter β} {n : UInt32} {H : ReplyHistory β} (xid xidRep : Nat)

/-- What is in the window after the trim: the old entries and a fresh one on NEW, as
far as they are above the mark. -/
theorem check_mem_iff (sorted : f.Sorted) {r : ReplyT β} :
    r ∈ (checkDuplicateAndUpdate empty f n xid xidRep).2.window n ↔
      (r ∈ f.window n ∨
        ((checkDuplicateAndUpdate empty f n xid xidRep).1 = .new ∧ r = .fresh empty xid)) ∧
      max (f.maxAckowledgedRep n) xidRep < r.xid := by
  rw [check_window, if_pos rfl, trim_eq_filter (judge_ascending empty f n xid xidRep sorted),
    List.mem_filter, judge_mem, newAck_eq_max, decide_eq_true_iff]
  rfl

theorem check_new_iff (sorted : f.Sorted) :
    (checkDuplicateAndUpdate empty f n xid xidRep).1 = .new ↔
      max (f.maxAckowledgedRep n) xidRep < xid ∧ ∀ r ∈ f.window n, r.xid ≠ xid := by
  have forgotten := check_forgotten_iff empty f n xid xidRep
  constructor
  · intro new
    refine ⟨?_, fun r member same => ?_⟩
    · rw [new] at forgotten
      exact Nat.lt_of_not_le fun old => by cases forgotten.mpr old
    · exact check_new_fresh empty f n xid xidRep sorted new (.inr ⟨r, member, same⟩)
  · rintro ⟨above, absent⟩
    cases verdict : (checkDuplicateAndUpdate empty f n xid xidRep).1 with
    | new => rfl
    | forgotten => exact absurd (forgotten.mp verdict) (Nat.not_le_of_lt above)
    | inprogress =>
        obtain ⟨r, member, same, _⟩ := check_inprogress_entry empty f n xid xidRep verdict
        exact absurd same (absent r member)
    | done =>
        obtain ⟨r, member, same, _⟩ := check_done_entry empty f n xid xidRep verdict
        rw [check_mem_iff empty xid xidRep sorted, verdict] at member
        rcases member.1 with old | ⟨other, _⟩
        · exact absurd same (absent r old)
        · cases other

/-- A verdict other than NEW only moves the mark and trims. -/
theorem Remembers.trimmed (h : Remembers n f H)
    (old : (checkDuplicateAndUpdate empty f n xid xidRep).1 ≠ .new) :
    Remembers n (checkDuplicateAndUpdate empty f n xid xidRep).2
      { H with ack := max H.ack xidRep } where
  sorted := check_sorted empty f n xid xidRep h.sorted
  ack := by rw [check_ack, if_pos rfl, h.ack]
  xids x := by
    have before := h.xids x
    simp only [check_mem_iff empty xid xidRep h.sorted, old, false_and, or_false, h.ack]
    constructor
    · rintro ⟨r, ⟨member, above⟩, rfl⟩
      exact ⟨(before.mp ⟨r, member, rfl⟩).1, above⟩
    · rintro ⟨taken, above⟩
      obtain ⟨r, member, rfl⟩ := before.mpr ⟨taken, by omega⟩
      exact ⟨r, ⟨member, above⟩, rfl⟩
  replies r member := by
    rw [check_mem_iff empty xid xidRep h.sorted] at member
    exact h.replies r (member.1.resolve_right fun new => old new.1)
  unsaid := h.unsaid

/-- A NEW verdict takes the xid. -/
theorem Remembers.taken (h : Remembers n f H)
    (new : (checkDuplicateAndUpdate empty f n xid xidRep).1 = .new) :
    Remembers n (checkDuplicateAndUpdate empty f n xid xidRep).2
      { H with ack := max H.ack xidRep, taken := insert xid H.taken } where
  sorted := check_sorted empty f n xid xidRep h.sorted
  ack := by rw [check_ack, if_pos rfl, h.ack]
  xids x := by
    have before := h.xids x
    have above := ((check_new_iff empty xid xidRep h.sorted).mp new).1
    rw [h.ack] at above
    simp only [check_mem_iff empty xid xidRep h.sorted, new, true_and, h.ack, Finset.mem_insert]
    constructor
    · rintro ⟨r, ⟨member | rfl, high⟩, rfl⟩
      · exact ⟨.inr (before.mp ⟨r, member, rfl⟩).1, high⟩
      · exact ⟨.inl rfl, above⟩
    · rintro ⟨rfl | taken, high⟩
      · exact ⟨.fresh empty x, ⟨.inr rfl, above⟩, rfl⟩
      · obtain ⟨r, member, rfl⟩ := before.mpr ⟨taken, by omega⟩
        exact ⟨r, ⟨.inl member, high⟩, rfl⟩
  replies r member := by
    have above := (check_new_iff empty xid xidRep h.sorted).mp new
    rw [check_mem_iff empty xid xidRep h.sorted] at member
    rcases member.1 with old | ⟨_, rfl⟩
    · exact h.replies r old
    · -- an xid that was never taken has no reply in the history either
      refine h.unsaid xid fun taken => ?_
      rw [h.ack] at above
      obtain ⟨r, member, same⟩ := (h.xids xid).mpr ⟨taken, by omega⟩
      exact above.2 r member same
  unsaid x free := h.unsaid x fun taken => free (Finset.mem_insert_of_mem taken)

/-- The verdict, and the bytes of a DONE, are those of the history. -/
theorem Remembers.check_serve (h : Remembers n f H) :
    (serve empty f (n, .checkDuplicateAndUpdate xid xidRep)).1 =
        (H.serve (.checkDuplicateAndUpdate xid xidRep)).1 ∧
      Remembers n (serve empty f (n, .checkDuplicateAndUpdate xid xidRep)).2
        (H.serve (.checkDuplicateAndUpdate xid xidRep)).2 := by
  have forgotten := check_forgotten_iff empty f n xid xidRep
  have newer := check_new_iff empty (n := n) xid xidRep h.sorted
  rw [h.ack] at forgotten newer
  simp only [serve, ReplyHistory.serve, ReplyHistory.check]
  cases verdict : (checkDuplicateAndUpdate empty f n xid xidRep).1 with
  | forgotten =>
      rw [if_pos (forgotten.mp verdict)]
      exact ⟨rfl, h.trimmed empty xid xidRep (by simp [verdict])⟩
  | new =>
      obtain ⟨above, absent⟩ := newer.mp verdict
      have free : xid ∉ H.taken := by
        intro taken
        obtain ⟨r, member, same⟩ := (h.xids xid).mpr ⟨taken, by omega⟩
        exact absent r member same
      rw [if_neg (Nat.not_le_of_lt above), if_pos free]
      exact ⟨rfl, h.taken empty xid xidRep verdict⟩
  | inprogress =>
      have unacked : ¬ xid ≤ max H.ack xidRep := fun acked => by
        cases verdict.symm.trans (forgotten.mpr acked)
      obtain ⟨r, member, rfl, absent⟩ := check_inprogress_entry empty f n xid xidRep verdict
      have taken := ((h.xids r.xid).mp ⟨r, member, rfl⟩).1
      have silent := h.replies r member
      rw [absent] at silent
      rw [if_neg unacked, if_neg (not_not_intro taken), silent]
      exact ⟨rfl, h.trimmed empty r.xid xidRep (by simp [verdict])⟩
  | done =>
      have unacked : ¬ xid ≤ max H.ack xidRep := fun acked => by
        cases verdict.symm.trans (forgotten.mpr acked)
      have after := h.trimmed empty xid xidRep (by simp [verdict])
      obtain ⟨r, member, rfl, present⟩ := check_done_entry empty f n xid xidRep verdict
      have taken := ((after.xids r.xid).mp ⟨r, member, rfl⟩).1
      have said := after.replies r member
      rw [present] at said
      rw [if_neg unacked, if_neg (not_not_intro taken), said]
      refine ⟨?_, after⟩
      rw [if_pos rfl, repBuf_eq (after.sorted n) member]
      rfl

end Check

/-- `AddReply` throws where the history has no open entry for the xid. -/
theorem Remembers.addReply_serve (empty : β) {f : DupFilter β} {n : UInt32} {H : ReplyHistory β}
    (h : Remembers n f H) (xid : Nat) (buf : β) :
    (serve empty f (n, .addReply xid buf)).1 = (H.serve (.addReply xid buf)).1 ∧
      Remembers n (serve empty f (n, .addReply xid buf)).2 (H.serve (.addReply xid buf)).2 := by
  simp only [serve, ReplyHistory.serve]
  cases result : f.addReply n xid buf with
  | error e =>
      have absent : xid ≤ H.ack ∨ xid ∉ H.taken := by
        by_contra opened
        obtain ⟨above, taken⟩ := not_or.mp opened
        obtain ⟨r, member, same⟩ := (h.xids xid).mpr ⟨not_not.mp taken, Nat.lt_of_not_le above⟩
        exact addReply_absent result r member same
      rw [if_pos absent]
      exact ⟨rfl, h⟩
  | ok f' =>
      have listed : ∀ x, (∃ r ∈ f'.window n, r.xid = x) ↔ ∃ r ∈ f.window n, r.xid = x := by
        intro x
        have same := congrArg (x ∈ ·) (addReply_xids result n)
        simpa only [List.mem_map, eq_iff_iff] using same
      have opened : xid ∈ H.taken ∧ H.ack < xid := by
        obtain ⟨r, member, same, _⟩ := addReply_entry result
        exact (h.xids xid).mp ((listed xid).mp ⟨r, member, same⟩)
      rw [if_neg (by simpa using ⟨opened.2, opened.1⟩)]
      dsimp only
      refine ⟨rfl, addReply_sorted result h.sorted, ?_, fun x => (listed x).trans (h.xids x), ?_, ?_⟩
      · rw [addReply_ack result, h.ack]
      · intro r member
        show Function.update H.reply xid (some buf) r.xid = _
        by_cases same : r.xid = xid
        · obtain ⟨present, bytes⟩ := addReply_filled result h.sorted member same
          rw [same, Function.update_self, present, bytes, if_pos rfl]
        · rw [Function.update_of_ne same]
          exact h.replies r ((addReply_mem result member).resolve_right fun new => same new.2.1)
      · intro x free
        have other : x ≠ xid := fun same => free (by rw [same]; exact opened.1)
        exact (Function.update_of_ne other _ _).trans (h.unsaid x free)

/-- The operations of another client leave no trace. -/
theorem Remembers.others (empty : β) {f : DupFilter β} {n : UInt32} {H : ReplyHistory β}
    (h : Remembers n f H) {m : UInt32} (other : m ≠ n) (op : FilterOp β) :
    Remembers n (serve empty f (m, op)).2 H := by
  have congr : ∀ f' : DupFilter β, f'.Sorted → f'.window n = f.window n →
      f'.maxAckowledgedRep n = f.maxAckowledgedRep n → Remembers n f' H := by
    intro f' sorted window ack
    exact ⟨sorted, ack.trans h.ack, window ▸ h.xids, window ▸ h.replies, h.unsaid⟩
  cases op with
  | checkDuplicateAndUpdate xid xidRep =>
      apply congr _ (check_sorted empty f m xid xidRep h.sorted)
      · rw [check_window, if_neg other.symm]
      · rw [check_ack, if_neg other.symm]
  | addReply xid buf =>
      simp only [serve]
      cases result : f.addReply m xid buf with
      | error e => exact h
      | ok f' =>
          apply congr f' (addReply_sorted result h.sorted)
          · obtain ⟨w', _, rfl⟩ := addReply_spec result
            simp [window, Function.update_of_ne other.symm]
          · rw [addReply_ack result]

theorem service_simulates (empty : β) (n : UInt32) :
    Simulates (service empty) ReplyHistory.service n (Remembers n) where
  answer f H op h := by
    cases op with
    | checkDuplicateAndUpdate xid xidRep => exact (h.check_serve empty xid xidRep).1
    | addReply xid buf => exact (h.addReply_serve empty xid buf).1
  own f H op h := by
    cases op with
    | checkDuplicateAndUpdate xid xidRep => exact (h.check_serve empty xid xidRep).2
    | addReply xid buf => exact (h.addReply_serve empty xid buf).2
  other f H m op other h := h.others empty other op

/-- Whatever operations the clients mix, each gets the answers of a filter that never
forgets, run on its own operations, and the window holds what that one has taken above
the mark. -/
theorem refines_history (empty : β) (ops : List (UInt32 × FilterOp β)) (n : UInt32) :
    (service empty).answersTo n {} ops = ReplyHistory.service.answers {} (opsOf n ops) ∧
      Ascending (((service empty).after {} ops).window n) ∧
      ∀ x, x ∈ (((service empty).after {} ops).window n).map ReplyT.xid ↔
        x ∈ (ReplyHistory.service.after {} (opsOf n ops)).taken ∧
          (ReplyHistory.service.after {} (opsOf n ops)).ack < x := by
  have sim := service_simulates empty n
  have after := sim.after (Remembers.start n) ops
  refine ⟨sim.answersTo (Remembers.start n) ops, after.sorted n, fun x => ?_⟩
  rw [List.mem_map]
  exact after.xids x

end DupFilter

end AsyncRpc
