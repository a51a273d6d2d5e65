import Mathlib.Data.List.TakeWhile

/-! Readers take a value off the front of a list. A local reader decides by what it takes,
a peeking one also by the element behind it. -/
namespace Reading

variable {α β γ : Type*}

abbrev Reader (β α : Type*) := List β → Option (α × List β)

def Local (f : Reader β α) : Prop :=
  ∀ ⦃input : List β⦄ ⦃a : α⦄ ⦃rest : List β⦄, f input = some (a, rest) →
    ∃ taken, input = taken ++ rest ∧ ∀ more, f (taken ++ more) = some (a, more)

def Peeking (f : Reader β α) : Prop :=
  ∀ ⦃input : List β⦄ ⦃a : α⦄ ⦃rest : List β⦄, f input = some (a, rest) →
    ∃ taken, input = taken ++ rest ∧
      ∀ more, more.head? = rest.head? → f (taken ++ more) = some (a, more)

/-- Takes at least one element. -/
def Consuming (f : Reader β α) : Prop :=
  ∀ ⦃input : List β⦄ ⦃a : α⦄ ⦃rest : List β⦄, f input = some (a, rest) →
    rest.length < input.length

/-- Read the first element and go on with it. -/
def onHead (f : β → Reader β α) : Reader β α
  | [] => none
  | b :: input => f b input

/-- Take the elements that satisfy `p`, and go on with them. -/
def onSpan (p : β → Bool) (f : List β → Reader β α) : Reader β α :=
  fun input => f (input.takeWhile p) (input.dropWhile p)

/-- Read a value and go on with it. -/
def andThen (f : Reader β α) (g : α → Reader β γ) : Reader β γ :=
  fun input => (f input).bind fun r => g r.1 r.2

theorem Local.peeking {f : Reader β α} (h : Local f) : Peeking f := by
  intro input a rest read
  obtain ⟨taken, split, again⟩ := h read
  exact ⟨taken, split, fun more _ => again more⟩

theorem local_none : Local (fun _ => none : Reader β α) := by
  intro input a rest read
  cases read

theorem local_pure (a : α) : Local (fun input => some (a, input) : Reader β α) := by
  rintro input a rest ⟨rfl⟩
  exact ⟨[], rfl, fun more => rfl⟩

theorem Local.onHead {f : β → Reader β α} (h : ∀ b, Local (f b)) : Local (onHead f) := by
  intro input a rest read
  cases input with
  | nil => cases read
  | cons b input =>
      obtain ⟨taken, split, again⟩ := h b read
      exact ⟨b :: taken, congrArg (b :: ·) split, again⟩

theorem Peeking.onHead {f : β → Reader β α} (h : ∀ b, Peeking (f b)) : Peeking (onHead f) := by
  intro input a rest read
  cases input with
  | nil => cases read
  | cons b input =>
      obtain ⟨taken, split, again⟩ := h b read
      exact ⟨b :: taken, congrArg (b :: ·) split, again⟩

theorem Local.andThen {f : Reader β α} {g : α → Reader β γ} (first : Local f)
    (second : ∀ a, Local (g a)) : Local (andThen f g) := by
  intro input c rest read
  obtain ⟨⟨a, middle⟩, here, later⟩ := Option.bind_eq_some_iff.mp read
  dsimp only at later
  obtain ⟨taken, split, again⟩ := first here
  obtain ⟨taken', split', again'⟩ := second a later
  refine ⟨taken ++ taken', by rw [split, split', List.append_assoc], fun more => ?_⟩
  simp only [Reading.andThen, List.append_assoc, again, Option.bind_some, again']

theorem Peeking.andThen {f : Reader β α} {g : α → Reader β γ} (first : Peeking f)
    (second : ∀ a, Peeking (g a)) : Peeking (andThen f g) := by
  intro input c rest read
  obtain ⟨⟨a, middle⟩, here, later⟩ := Option.bind_eq_some_iff.mp read
  dsimp only at later
  obtain ⟨taken, split, again⟩ := first here
  obtain ⟨taken', split', again'⟩ := second a later
  refine ⟨taken ++ taken', by rw [split, split', List.append_assoc], fun more same => ?_⟩
  have next : (taken' ++ more).head? = middle.head? := by
    subst split'
    cases taken' with
    | nil => exact same
    | cons _ _ => rfl
  simp only [Reading.andThen, List.append_assoc, again _ next, Option.bind_some, again' _ same]

/-- Where a run of elements that satisfy `p` ends. -/
theorem span_append {p : β → Bool} {run more : List β} (all : ∀ b ∈ run, p b = true)
    (stops : ∀ b, more.head? = some b → p b = false) :
    (run ++ more).takeWhile p = run ∧ (run ++ more).dropWhile p = more := by
  rw [List.takeWhile_append_of_pos all, List.dropWhile_append_of_pos all]
  cases more with
  | nil => exact ⟨List.append_nil run, rfl⟩
  | cons b more => simp [stops b rfl]

theorem span_again {p : β → Bool} {input more : List β}
    (same : more.head? = (input.dropWhile p).head?) :
    (input.takeWhile p ++ more).takeWhile p = input.takeWhile p ∧
      (input.takeWhile p ++ more).dropWhile p = more := by
  apply span_append
  · intro b member
    exact List.mem_takeWhile_imp member
  · intro b head
    have found := List.head?_dropWhile_not p input
    rw [← same, head] at found
    simpa using found

theorem Peeking.onSpan {p : β → Bool} {f : List β → Reader β α} (h : ∀ bs, Peeking (f bs)) :
    Peeking (onSpan p f) := by
  intro input a rest read
  obtain ⟨taken, split, again⟩ := h _ read
  refine ⟨input.takeWhile p ++ taken, ?_, fun more same => ?_⟩
  · rw [List.append_assoc, ← split, List.takeWhile_append_dropWhile]
  · have next : (taken ++ more).head? = (input.dropWhile p).head? := by
      rw [split]
      cases taken with
      | nil => exact same
      | cons _ _ => rfl
    obtain ⟨taking, dropping⟩ := span_again next
    rw [Reading.onSpan, List.append_assoc, taking, dropping]
    exact again more same

theorem Peeking.le {f : Reader β α} (h : Peeking f) {input rest : List β} {a : α}
    (read : f input = some (a, rest)) : rest.length ≤ input.length := by
  obtain ⟨taken, rfl, _⟩ := h read
  simp

theorem Consuming.onHead {f : β → Reader β α} (h : ∀ b, Peeking (f b)) : Consuming (onHead f) := by
  intro input a rest read
  cases input with
  | nil => cases read
  | cons b input => exact Nat.lt_succ_of_le ((h b).le read)

/-- Gives only values with `P`. -/
def Produces (f : Reader β α) (P : α → Prop) : Prop :=
  ∀ ⦃input : List β⦄ ⦃a : α⦄ ⦃rest : List β⦄, f input = some (a, rest) → P a

theorem produces_none {P : α → Prop} : Produces (fun _ => none : Reader β α) P := by
  intro input a rest read
  cases read

theorem produces_pure {P : α → Prop} {a : α} (holds : P a) :
    Produces (fun input => some (a, input) : Reader β α) P := by
  rintro input a rest ⟨rfl⟩
  exact holds

theorem Produces.onHead {P : α → Prop} {f : β → Reader β α} (h : ∀ b, Produces (f b) P) :
    Produces (onHead f) P := by
  intro input a rest read
  cases input with
  | nil => cases read
  | cons b input => exact h b read

theorem Produces.onSpan {P : α → Prop} {p : β → Bool} {f : List β → Reader β α}
    (h : ∀ bs, Produces (f bs) P) : Produces (onSpan p f) P :=
  fun _ _ _ read => h _ read

theorem Produces.andThen {Q : α → Prop} {P : γ → Prop} {f : Reader β α} {g : α → Reader β γ}
    (first : Produces f Q) (second : ∀ a, Q a → Produces (g a) P) : Produces (andThen f g) P := by
  intro input c rest read
  obtain ⟨⟨a, middle⟩, here, later⟩ := Option.bind_eq_some_iff.mp read
  exact second a (first here) later

end Reading
