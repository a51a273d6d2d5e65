import AsyncRpc.XidWindow
import Mathlib.Order.Bounds.Basic

/-! The client's window over a whole sequence of replies: its front is the cumulative
acknowledgement. -/
namespace AsyncRpc.XidWindow

/-! `UpdateXidRep` once more with its iterator, to see that it stays valid. -/

/-- `while (front() + 1 == *it) pop_front()` with `i` nodes before `it`. What has no
meaning is `none`: an `it` past the end, or popping the node that `it` stands on. The
sum wraps at the largest `xid_t` only, and what follows that in a sorted list is not 0. -/
def popFronts : List Nat → Nat → Option (List Nat × Nat)
  | [], _ => none
  | f :: rest, i =>
      (f :: rest)[i]?.bind fun v =>
        if f + 1 = v then
          match i with
          | 0 => none
          | i + 1 => popFronts rest i
        else some (f :: rest, i)

/-- The `for` loop, the first argument being how many nodes are left from `it` on. -/
def compressFrom : Nat → List Nat → Nat → Option (List Nat)
  | 0, w, _ => some w
  | left + 1, w, i => (popFronts w i).bind fun r => compressFrom left r.1 (r.2 + 1)

def updateXidRepAt (w : List Nat) (xid : Nat) : Option (List Nat) :=
  if w ≠ [] ∧ xid ≤ front w then some w
  else compressFrom ((insertXid xid w).length - 1) (insertXid xid w) 1

/-- The loop stops at the node under the iterator at the latest: `v + 1 == v` fails. -/
theorem popFronts_eq (before : List Nat) (v : Nat) (rest : List Nat) :
    popFronts (before ++ v :: rest) before.length =
      some (popWhile v before ++ v :: rest, (popWhile v before).length) := by
  induction before with
  | nil => simp [popFronts, popWhile]
  | cons f before ih =>
      have node : (f :: (before ++ v :: rest))[before.length + 1]? = some v := by simp
      rw [List.cons_append, List.length_cons, popFronts, node, Option.bind_some, popWhile]
      by_cases next : f + 1 = v
      · rw [if_pos next, if_pos next]
        exact ih
      · rw [if_neg next, if_neg next]
        rfl

theorem compressFrom_eq (before rest : List Nat) :
    compressFrom rest.length (before ++ rest) before.length = some (compress before rest) := by
  induction rest generalizing before with
  | nil => rw [List.append_nil]; rfl
  | cons v rest ih =>
      rw [List.length_cons, compressFrom, popFronts_eq, Option.bind_some, compress]
      have round := ih (popWhile v before ++ [v])
      rw [List.append_assoc, List.length_append] at round
      exact round

theorem updateXidRepAt_eq (w : List Nat) (xid : Nat) :
    updateXidRepAt w xid = some (updateXidRep w xid) := by
  rw [updateXidRepAt, updateXidRep]
  by_cases early : w ≠ [] ∧ xid ≤ front w
  · rw [if_pos early, if_pos early]
  · rw [if_neg early, if_neg early]
    cases insertXid xid w with
    | nil => rfl
    | cons f rest => exact compressFrom_eq [f] rest

/-! One reply. -/

theorem insertXid_perm (xid : Nat) (w : List Nat) : (insertXid xid w).Perm (xid :: w) := by
  induction w with
  | nil => exact .refl _
  | cons y ys ih =>
      rw [insertXid]
      split_ifs
      · exact .refl _
      · exact (ih.cons y).trans (.swap xid y ys)

theorem popWhile_all {v : Nat} {before : List Nat} (h : ∀ f ∈ before, f + 1 = v) :
    popWhile v before = [] := by
  induction before with
  | nil => rfl
  | cons f before ih =>
      rw [popWhile, if_pos (h f List.mem_cons_self)]
      exact ih fun g later => h g (List.mem_cons_of_mem f later)

/-- Nothing follows the front directly. -/
def Gap (w : List Nat) : Prop := front w + 1 ∉ w

theorem popWhile_gap {v : Nat} {before : List Nat} (some : before ≠ [])
    (sorted : (before ++ [v]).Pairwise (· ≤ ·)) (gap : Gap before) :
    Gap (popWhile v before ++ [v]) := by
  cases before with
  | nil => exact absurd rfl some
  | cons f before =>
      obtain ⟨least, tail⟩ := List.pairwise_cons.mp sorted
      by_cases next : f + 1 = v
      · -- everything between `f` and `f + 1` repeats `f`
        have same : ∀ g ∈ before, g + 1 = v := by
          intro g member
          have low : f ≤ g := least g (List.mem_append_left [v] member)
          have high : g ≤ v := (List.pairwise_append.mp tail).2.2 g member v (by simp)
          have other : g ≠ f + 1 := by
            rintro rfl
            exact gap (List.mem_cons_of_mem f member)
          omega
        rw [popWhile, if_pos next, popWhile_all same]
        simp [Gap, front]
      · rw [popWhile, if_neg next]
        intro member
        rcases List.mem_append.mp member with old | last
        · exact gap old
        · exact next (List.mem_singleton.mp last)

theorem compress_gap {before rest : List Nat} (some : before ≠ [])
    (sorted : (before ++ rest).Pairwise (· ≤ ·)) (gap : Gap before) : Gap (compress before rest) := by
  induction rest generalizing before with
  | nil => exact gap
  | cons v rest ih =>
      have whole : before ++ [v] ++ rest = before ++ v :: rest := by simp
      have part : (before ++ [v]).Sublist (before ++ v :: rest) := by
        rw [← whole]
        exact List.sublist_append_left _ _
      apply ih (by simp)
      · exact sorted.sublist (popWhile_round v before rest).sublist
      · exact popWhile_gap some (sorted.sublist part) gap

/-- What falls off the front of a sorted list is not above the new front. -/
theorem dropped_le {gone w : List Nat} (some : w ≠ []) (sorted : (gone ++ w).Pairwise (· ≤ ·))
    {x : Nat} (dropped : x ∈ gone) : x ≤ front w :=
  (List.pairwise_append.mp sorted).2.2 x dropped (front w) (front_mem some)

theorem mem_of_suffix {w w' : List Nat} (suffix : w' <:+ w) (some : w' ≠ [])
    (sorted : w.Pairwise (· ≤ ·)) {x : Nat} (member : x ∈ w) (above : front w' < x) : x ∈ w' := by
  obtain ⟨gone, rfl⟩ := suffix
  rcases List.mem_append.mp member with dropped | kept
  · exact absurd above (Nat.not_lt_of_le (dropped_le some sorted dropped))
  · exact kept

/-! A sequence of replies. -/

/-- The window after the replies `got`, in their order. -/
def windowAfter (got : List Nat) : List Nat := got.foldl updateXidRep []

theorem windowAfter_snoc (got : List Nat) (x : Nat) :
    windowAfter (got ++ [x]) = updateXidRep (windowAfter got) x := by
  rw [windowAfter, List.foldl_append]
  rfl

/-- The window `w` after the replies `got`, the first of which was to `f`. -/
structure Cumulative (f : Nat) (got w : List Nat) : Prop where
  some : w ≠ []
  sorted : w.Pairwise (· ≤ ·)
  low : f ≤ front w
  upto : Upto (· ∈ got) f (front w)
  next : front w + 1 ∉ got
  above : ∀ x, front w < x → (x ∈ w ↔ x ∈ got)

theorem Cumulative.first (f : Nat) : Cumulative f [f] [f] where
  some := by simp
  sorted := List.pairwise_singleton _ _
  low := Nat.le_refl _
  upto x low high := by
    have same : x = f := Nat.le_antisymm high low
    exact List.mem_singleton.mpr same
  next := by simp [front]
  above x high := Iff.rfl

section Step

variable {f : Nat} {got w : List Nat}

theorem Cumulative.front_mem (h : Cumulative f got w) : front w ∈ got :=
  h.upto (front w) h.low (Nat.le_refl _)

theorem Cumulative.mem (h : Cumulative f got w) {x : Nat} (member : x ∈ w) : x ∈ got := by
  rcases Nat.eq_or_lt_of_le (front_le h.sorted member) with rfl | high
  · exact h.front_mem
  · exact (h.above x high).mp member

theorem Cumulative.snoc (h : Cumulative f got w) (xid : Nat) :
    Cumulative f (got ++ [xid]) (updateXidRep w xid) := by
  have upto : Upto (· ∈ got ++ [xid]) f (front (updateXidRep w xid)) := by
    refine updateXidRep_upto h.sorted ?_ ?_ ?_ ?_
    · intro x member
      exact List.mem_append_left [xid] (h.mem member)
    · exact List.mem_append_right got (List.mem_singleton_self xid)
    · intro empty
      exact absurd empty h.some
    · intro _ x low high
      exact List.mem_append_left [xid] (h.upto x low high)
  have low := h.low.trans (front_updateXidRep_le h.sorted xid)
  have sorted := updateXidRep_sorted h.sorted xid
  rcases updateXidRep_cases w xid with ⟨_, early, same⟩ | ⟨empty, _⟩ | ⟨rest, _, beyond, inserted, same⟩
  · rw [same] at upto ⊢
    refine ⟨h.some, h.sorted, h.low, upto, ?_, fun x high => ?_⟩
    · intro member
      rcases List.mem_append.mp member with old | new
      · exact h.next old
      · have := List.mem_singleton.mp new
        omega
    · rw [h.above x high, List.mem_append, List.mem_singleton]
      exact ⟨.inl, fun member => member.resolve_right (by omega)⟩
  · exact absurd empty h.some
  · have ne := updateXidRep_ne_nil w xid
    have sorted' : (front w :: rest).Pairwise (· ≤ ·) := inserted ▸ insertXid_sorted h.sorted
    have suffix : updateXidRep w xid <:+ front w :: rest := same ▸ compress_suffix [front w] rest
    have gap : Gap (updateXidRep w xid) := by
      rw [same]
      exact compress_gap (by simp) sorted' (by simp [Gap, front])
    have grows := front_updateXidRep_le h.sorted xid
    have above : ∀ x, front (updateXidRep w xid) < x →
        (x ∈ updateXidRep w xid ↔ x ∈ got ++ [xid]) := by
      intro x high
      rw [List.mem_append, List.mem_singleton]
      constructor
      · intro member
        rcases updateXidRep_mem member with new | old
        · exact .inr new
        · exact .inl (h.mem old)
      · intro member
        refine mem_of_suffix suffix ne sorted' ?_ high
        rw [← inserted, insertXid_mem]
        exact member.symm.imp_right ((h.above x (grows.trans_lt high)).mpr)
    exact ⟨ne, sorted, low, upto, fun member => gap ((above _ (Nat.lt_succ_self _)).mpr member), above⟩

theorem windowAfter_cumulative (f : Nat) (rest : List Nat) :
    Cumulative f (f :: rest) (windowAfter (f :: rest)) := by
  induction rest using List.reverseRecOn with
  | nil => exact .first f
  | append_singleton rest x ih =>
      rw [← List.cons_append, windowAfter_snoc]
      exact ih.snoc x

/-- The front is the end of the run of received xids that starts at the first. -/
theorem Cumulative.greatest (h : Cumulative f got w) :
    IsGreatest {k | f ≤ k ∧ Upto (· ∈ got) f k} (front w) := by
  refine ⟨⟨h.low, h.upto⟩, fun k upto => ?_⟩
  by_contra high
  have low := h.low
  exact h.next (upto.2 (front w + 1) (by omega) (by omega))

end Step

/-- After any replies the front is the largest `k` that is reached from the first xid
without a gap, the rest of the window is what was received beyond it, and on the way
the iterator never loses its node nor the list its last. -/
theorem updateXidRep_cumulative (f : Nat) (rest : List Nat) :
    IsGreatest {k | f ≤ k ∧ Upto (· ∈ f :: rest) f k} (front (windowAfter (f :: rest))) ∧
      (∀ x, x ∈ windowAfter (f :: rest) ↔ x = front (windowAfter (f :: rest)) ∨
        (x ∈ f :: rest ∧ front (windowAfter (f :: rest)) < x)) ∧
      ∀ got x, got ++ [x] <+: f :: rest →
        updateXidRepAt (windowAfter got) x = some (windowAfter (got ++ [x])) ∧
          windowAfter (got ++ [x]) ≠ [] := by
  have h := windowAfter_cumulative f rest
  refine ⟨h.greatest, fun x => ?_, fun got x _ => ?_⟩
  · constructor
    · intro member
      rcases Nat.eq_or_lt_of_le (front_le h.sorted member) with same | high
      · exact .inl same.symm
      · exact .inr ⟨h.mem member, high⟩
    · rintro (rfl | ⟨member, high⟩)
      · exact front_mem h.some
      · exact (h.above x high).mpr member
  · rw [windowAfter_snoc]
    exact ⟨updateXidRepAt_eq _ x, updateXidRep_ne_nil _ x⟩

/-! Repeats. -/

/-- `x` is acknowledged by the replies `got`: it is below the first of them, or in the
run of received xids that starts there. -/
def Acknowledged (got : List Nat) (x : Nat) : Prop :=
  ∀ f ∈ got.head?, x < f ∨ Upto (· ∈ got) f x

theorem acknowledged_iff {got : List Nat} (some : got ≠ []) (x : Nat) :
    Acknowledged got x ↔ x ≤ front (windowAfter got) := by
  cases got with
  | nil => exact absurd rfl some
  | cons f rest =>
      have h := windowAfter_cumulative f rest
      simp only [Acknowledged, List.head?_cons, Option.mem_some_iff, forall_eq']
      constructor
      · rintro (below | upto)
        · exact below.le.trans h.low
        · by_contra high
          have low := h.low
          exact absurd (h.greatest.2 ⟨by omega, upto⟩) high
      · intro low
        by_cases below : x < f
        · exact .inl below
        · exact .inr fun y from' to' => h.upto y from' (to'.trans low)

theorem insertXid_strict {xid : Nat} {w : List Nat} (strict : w.Pairwise (· < ·))
    (new : xid ∉ w) : (insertXid xid w).Pairwise (· < ·) := by
  have sorted : (insertXid xid w).Pairwise (· ≤ ·) :=
    insertXid_sorted (strict.imp Nat.le_of_lt)
  have distinct : (insertXid xid w).Nodup := by
    rw [(insertXid_perm xid w).nodup_iff]
    exact List.nodup_cons.mpr ⟨new, strict.imp Nat.ne_of_lt⟩
  exact (sorted.and distinct).imp fun both => Nat.lt_of_le_of_ne both.1 both.2

/-- A window without repeats keeps none when the xid is new or acknowledged. -/
theorem updateXidRep_strict {w : List Nat} {xid : Nat} (strict : w.Pairwise (· < ·))
    (fresh : front w < xid → xid ∉ w) : (updateXidRep w xid).Pairwise (· < ·) := by
  rcases updateXidRep_cases w xid with ⟨_, _, same⟩ | ⟨_, same⟩ | ⟨rest, _, beyond, inserted, same⟩ <;>
    rw [same]
  · exact strict
  · exact List.pairwise_singleton _ _
  · have strict' := insertXid_strict strict (fresh beyond)
    rw [inserted] at strict'
    exact strict'.sublist (compress_suffix [front w] rest).sublist

/-- An xid beyond the front is always inserted, a repeat for a second time. -/
theorem Cumulative.beyond_changes {f : Nat} {got w : List Nat} (h : Cumulative f got w) {x : Nat}
    (beyond : front w < x) : updateXidRep w x ≠ w := by
  intro unchanged
  rcases updateXidRep_cases w x with ⟨_, early, _⟩ | ⟨empty, _⟩ | ⟨rest, _, _, inserted, same⟩
  · exact absurd beyond (Nat.not_lt_of_le early)
  · exact h.some empty
  · have twice := (insertXid_perm x w).count_eq x
    rw [List.count_cons_self, inserted] at twice
    obtain ⟨gone, split⟩ := compress_suffix [front w] rest
    rw [← same, unchanged] at split
    have split : gone ++ w = front w :: rest := split
    -- what was popped is not above the front, so the inserted copy is still there
    have sorted : (gone ++ w).Pairwise (· ≤ ·) := by
      rw [split, ← inserted]
      exact insertXid_sorted h.sorted
    have absent : x ∉ gone := by
      intro dropped
      exact absurd beyond (Nat.not_lt_of_le (dropped_le h.some sorted dropped))
    rw [← split, List.count_append, List.count_eq_zero_of_not_mem absent] at twice
    omega

/-- The window is strictly increasing and ignores what it has got already, in every
prefix of a sequence of replies, exactly when every repeat in it is acknowledged by
what came before. -/
theorem window_is_set_iff (replies : List Nat) :
    (∀ got x, got ++ [x] <+: replies → (windowAfter (got ++ [x])).Pairwise (· < ·) ∧
        (x ∈ got → windowAfter (got ++ [x]) = windowAfter got)) ↔
      ∀ got x, got ++ [x] <+: replies → x ∈ got → Acknowledged got x := by
  constructor
  · intro isSet got x part member
    have some : got ≠ [] := List.ne_nil_of_mem member
    rw [acknowledged_iff some]
    by_contra beyond
    have unchanged := (isSet got x part).2 member
    rw [windowAfter_snoc] at unchanged
    cases got with
    | nil => exact some rfl
    | cons f rest =>
        exact (windowAfter_cumulative f rest).beyond_changes (Nat.lt_of_not_le beyond) unchanged
  · intro settled
    have strict : ∀ got, got <+: replies → (windowAfter got).Pairwise (· < ·) := by
      intro got
      induction got using List.reverseRecOn with
      | nil => exact fun _ => List.Pairwise.nil
      | append_singleton got x ih =>
          intro part
          rw [windowAfter_snoc]
          apply updateXidRep_strict (ih ((List.prefix_append got [x]).trans part))
          intro beyond member
          cases got with
          | nil => cases member
          | cons f rest =>
              have received := (windowAfter_cumulative f rest).mem member
              have low := (acknowledged_iff (by simp) x).mp (settled _ x part received)
              exact absurd beyond (Nat.not_lt_of_le low)
    intro got x part
    refine ⟨strict _ part, fun member => ?_⟩
    have some : got ≠ [] := List.ne_nil_of_mem member
    have low := (acknowledged_iff some x).mp (settled got x part member)
    cases got with
    | nil => exact absurd rfl some
    | cons f rest =>
        rw [windowAfter_snoc, updateXidRep, if_pos ⟨(windowAfter_cumulative f rest).some, low⟩]

/-- The reply to 4 comes twice while 3 is outstanding, and the window is `[2, 4, 4]`. -/
theorem window_keeps_repeat : ¬ ∀ replies got x, got ++ [x] <+: replies →
    (windowAfter (got ++ [x])).Pairwise (· < ·) ∧
      (x ∈ got → windowAfter (got ++ [x]) = windowAfter got) := by
  intro isSet
  have strict := (isSet [2, 4, 4] [2, 4] 4 (List.prefix_refl _)).1
  exact absurd strict (by decide)

end AsyncRpc.XidWindow
