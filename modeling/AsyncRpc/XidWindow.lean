import Mathlib.Data.List.Pairwise
import Mathlib.Data.List.Infix
import Mathlib.Tactic.Cases

/-! `xid_rep_window_` of the client: the replies it has got, from the cumulative
acknowledgement at the front upwards. -/
namespace AsyncRpc.XidWindow

/-- `front()`, and the 0 that `Call` reads from an empty window. -/
def front (w : List Nat) : Nat := w.headD 0

/-- The first loop of `UpdateXidRep`: before the first greater element. -/
def insertXid (xid : Nat) : List Nat → List Nat
  | [] => [xid]
  | y :: ys => if y > xid then xid :: y :: ys else y :: insertXid xid ys

/-- `while (front() + 1 == *it) pop_front()` with `v` for `*it` and the nodes before
`it` as a list; once they are gone the front is `v` itself and the test fails. -/
def popWhile (v : Nat) : List Nat → List Nat
  | [] => []
  | f :: before => if f + 1 = v then popWhile v before else f :: before

/-- The `compress` loop, the iterator standing on the first node of the second list. -/
def compress (before : List Nat) : List Nat → List Nat
  | [] => before
  | v :: rest => compress (popWhile v before ++ [v]) rest

def updateXidRep (w : List Nat) (xid : Nat) : List Nat :=
  if w ≠ [] ∧ xid ≤ front w then w
  else match insertXid xid w with
    | [] => []
    | f :: rest => compress [f] rest

/-- Everything from `f` to `k` is in `got`. -/
def Upto (got : Nat → Prop) (f k : Nat) : Prop := ∀ x, f ≤ x → x ≤ k → got x

theorem popWhile_suffix (v : Nat) (before : List Nat) : popWhile v before <:+ before := by
  induction before with
  | nil => exact List.suffix_rfl
  | cons f before ih =>
      rw [popWhile]
      split_ifs
      · exact ih.trans (List.suffix_cons f before)
      · exact List.suffix_rfl

/-- One round of the `for` loop only drops nodes from the front of the list. -/
theorem popWhile_round (v : Nat) (before rest : List Nat) :
    popWhile v before ++ [v] ++ rest <:+ before ++ v :: rest := by
  obtain ⟨gone, same⟩ := popWhile_suffix v before
  refine ⟨gone, ?_⟩
  have whole := congrArg (· ++ v :: rest) same
  simpa using whole

theorem compress_suffix (before rest : List Nat) : compress before rest <:+ before ++ rest := by
  induction rest generalizing before with
  | nil => simp [compress]
  | cons v rest ih => exact (ih _).trans (popWhile_round v before rest)

theorem compress_ne_nil {before : List Nat} (h : before ≠ []) (rest : List Nat) :
    compress before rest ≠ [] := by
  induction rest generalizing before with
  | nil => exact h
  | cons v rest ih => exact ih (by simp)

theorem insertXid_mem {xid x : Nat} {w : List Nat} : x ∈ insertXid xid w ↔ x = xid ∨ x ∈ w := by
  induction w with
  | nil => simp [insertXid]
  | cons y ys ih =>
      rw [insertXid]
      split_ifs
      · simp
      · simp only [List.mem_cons, ih]
        tauto

theorem insertXid_sorted {xid : Nat} {w : List Nat} (h : w.Pairwise (· ≤ ·)) :
    (insertXid xid w).Pairwise (· ≤ ·) := by
  induction w with
  | nil => simp [insertXid]
  | cons y ys ih =>
      obtain ⟨least, tail⟩ := List.pairwise_cons.mp h
      rw [insertXid]
      split_ifs with past
      · refine List.pairwise_cons.mpr ⟨fun z hz => ?_, h⟩
        rcases List.mem_cons.mp hz with rfl | later
        · omega
        · have := least z later
          omega
      · refine List.pairwise_cons.mpr ⟨fun z hz => ?_, ih tail⟩
        rcases insertXid_mem.mp hz with rfl | later
        · omega
        · exact least z later

/-- The front survives an insertion of something beyond it. -/
theorem insertXid_front {xid : Nat} {w : List Nat} (some : w ≠ []) (beyond : front w < xid) :
    front (insertXid xid w) = front w := by
  cases w with
  | nil => exact absurd rfl some
  | cons y ys =>
      have notPast : ¬ y > xid := by simp only [front, List.headD_cons] at beyond; omega
      simp [insertXid, notPast, front]

theorem front_mem {w : List Nat} (some : w ≠ []) : front w ∈ w := by
  cases w with
  | nil => exact absurd rfl some
  | cons y ys => exact List.mem_cons_self

theorem front_le {w : List Nat} (h : w.Pairwise (· ≤ ·)) {x : Nat} (member : x ∈ w) :
    front w ≤ x := by
  cases w with
  | nil => cases member
  | cons y ys =>
      rcases List.mem_cons.mp member with rfl | later
      · exact Nat.le_refl _
      · exact (List.pairwise_cons.mp h).1 x later

/-- Popping walks the front from one received xid to the next, so it never jumps a gap. -/
theorem popWhile_upto {got : Nat → Prop} {f v : Nat} {before : List Nat}
    (sorted : (before ++ [v]).Pairwise (· ≤ ·)) (member : ∀ x ∈ before ++ [v], got x)
    (upto : Upto got f (front (before ++ [v]))) :
    Upto got f (front (popWhile v before ++ [v])) := by
  induction before with
  | nil => exact upto
  | cons g before ih =>
      rw [popWhile]
      split_ifs with next
      · have tail : (before ++ [v]).Pairwise (· ≤ ·) := (List.pairwise_cons.mp sorted).2
        apply ih tail (fun x hx => member x (List.mem_cons_of_mem g hx))
        intro x low high
        have bound : front (before ++ [v]) ≤ v := front_le tail (by simp)
        by_cases here : x ≤ g
        · exact upto x low here
        · have : x = v := by omega
          exact this ▸ member v (by simp)
      · exact upto

theorem compress_upto {got : Nat → Prop} {f : Nat} {before rest : List Nat} (some : before ≠ [])
    (sorted : (before ++ rest).Pairwise (· ≤ ·)) (member : ∀ x ∈ before ++ rest, got x)
    (upto : Upto got f (front before)) : Upto got f (front (compress before rest)) := by
  induction rest generalizing before with
  | nil => exact upto
  | cons v rest ih =>
      have whole : before ++ [v] ++ rest = before ++ v :: rest := by simp
      have suffix := popWhile_round v before rest
      have part : (before ++ [v]).Sublist (before ++ v :: rest) := by
        rw [← whole]
        exact List.sublist_append_left _ _
      have here : front (before ++ [v]) = front before := by
        cases before with
        | nil => exact absurd rfl some
        | cons y ys => rfl
      refine ih (by simp) (sorted.sublist suffix.sublist)
        (fun x hx => member x (suffix.subset hx)) ?_
      exact popWhile_upto (sorted.sublist part) (fun x hx => member x (part.subset hx))
        (here.symm ▸ upto)

/-- What the loops start from once the early return is passed. -/
theorem updateXidRep_cases (w : List Nat) (xid : Nat) :
    (w ≠ [] ∧ xid ≤ front w ∧ updateXidRep w xid = w) ∨
    (w = [] ∧ updateXidRep w xid = [xid]) ∨
    (∃ rest, w ≠ [] ∧ front w < xid ∧ insertXid xid w = front w :: rest ∧
      updateXidRep w xid = compress [front w] rest) := by
  by_cases early : w ≠ [] ∧ xid ≤ front w
  · exact .inl ⟨early.1, early.2, if_pos early⟩
  · by_cases empty : w = []
    · subst empty
      exact .inr (.inl ⟨rfl, rfl⟩)
    · have beyond : front w < xid := Nat.lt_of_not_le fun le => early ⟨empty, le⟩
      have same := insertXid_front empty beyond
      cases inserted : insertXid xid w with
      | nil => exact absurd (insertXid_mem.mpr (.inl rfl)) (by rw [inserted]; simp)
      | cons f rest =>
          rw [inserted] at same
          have same : f = front w := same
          subst same
          refine .inr (.inr ⟨rest, empty, beyond, rfl, ?_⟩)
          rw [updateXidRep, if_neg early, inserted]

theorem updateXidRep_ne_nil (w : List Nat) (xid : Nat) : updateXidRep w xid ≠ [] := by
  rcases updateXidRep_cases w xid with ⟨some, _, same⟩ | ⟨_, same⟩ | ⟨rest, _, _, _, same⟩ <;>
    rw [same]
  · exact some
  · simp
  · exact compress_ne_nil (by simp) rest

theorem updateXidRep_mem {w : List Nat} {xid x : Nat} (h : x ∈ updateXidRep w xid) :
    x = xid ∨ x ∈ w := by
  rcases updateXidRep_cases w xid with ⟨_, _, same⟩ | ⟨_, same⟩ | ⟨rest, _, _, inserted, same⟩ <;>
    rw [same] at h
  · exact .inr h
  · exact .inl (List.mem_singleton.mp h)
  · rw [← insertXid_mem, inserted]
    exact (compress_suffix [front w] rest).subset h

theorem updateXidRep_sorted {w : List Nat} (sorted : w.Pairwise (· ≤ ·)) (xid : Nat) :
    (updateXidRep w xid).Pairwise (· ≤ ·) := by
  rcases updateXidRep_cases w xid with ⟨_, _, same⟩ | ⟨_, same⟩ | ⟨rest, _, _, inserted, same⟩ <;>
    rw [same]
  · exact sorted
  · simp
  · have sorted' : (insertXid xid w).Pairwise (· ≤ ·) := insertXid_sorted sorted
    rw [inserted] at sorted'
    exact sorted'.sublist (compress_suffix [front w] rest).sublist

/-- The acknowledgement only grows. -/
theorem front_updateXidRep_le {w : List Nat} (sorted : w.Pairwise (· ≤ ·)) (xid : Nat) :
    front w ≤ front (updateXidRep w xid) := by
  have member := front_mem (updateXidRep_ne_nil w xid)
  by_cases empty : w = []
  · subst empty; exact Nat.zero_le _
  · rcases updateXidRep_cases w xid with ⟨_, _, same⟩ | ⟨absurd', _⟩ | ⟨_, _, beyond, _, _⟩
    · rw [same]
    · exact absurd absurd' empty
    · rcases updateXidRep_mem member with new | old
      · omega
      · exact front_le sorted old

/-- A front reached from `f` without a gap stays so when one more reply comes in. -/
theorem updateXidRep_upto {got : Nat → Prop} {w : List Nat} {f xid : Nat}
    (sorted : w.Pairwise (· ≤ ·)) (member : ∀ x ∈ w, got x) (new : got xid)
    (first : w = [] → f = xid) (upto : w ≠ [] → Upto got f (front w)) :
    Upto got f (front (updateXidRep w xid)) := by
  rcases updateXidRep_cases w xid with ⟨some, _, same⟩ | ⟨empty, same⟩ |
    ⟨rest, some, _, inserted, same⟩ <;> rw [same]
  · exact upto some
  · intro x low high
    have : x = xid := Nat.le_antisymm high (first empty ▸ low)
    exact this ▸ new
  · have sorted' : (insertXid xid w).Pairwise (· ≤ ·) := insertXid_sorted sorted
    rw [inserted] at sorted'
    refine compress_upto (by simp) sorted' (fun x hx => ?_) (upto some)
    have hx : x ∈ insertXid xid w := by rw [inserted]; exact hx
    rcases insertXid_mem.mp hx with rfl | old
    · exact new
    · exact member x old

end AsyncRpc.XidWindow
