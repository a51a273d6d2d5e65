import AsyncRpc.Foundation.Transition

/-! What a caller expects of a call: it is made, it runs once, and its result comes
back once. -/
namespace Once
open Transition

variable {α β : Type*}

inductive Stage (α β : Type*) where
  | idle
  | issued (a : α)
  | executed (a : α) (b : β)
  | completed (a : α) (b : β)

inductive Step (α β : Type*) where
  | issue (a : α)
  | execute (b : β)
  | complete

def next : Stage α β → Step α β → Option (Stage α β)
  | .idle, .issue a => some (.issued a)
  | .issued a, .execute b => some (.executed a b)
  | .executed a b, .complete => some (.completed a b)
  | _, _ => none

def call (α β : Type*) : System (Stage α β) (Step α β) where
  next := next

/-- What the call was given. -/
def Stage.given : Stage α β → Option α
  | .idle => none
  | .issued a | .executed a _ | .completed a _ => some a

/-- What its run made. -/
def Stage.made : Stage α β → Option β
  | .idle | .issued _ => none
  | .executed _ b | .completed _ b => some b

def Stage.done : Stage α β → Bool
  | .completed _ _ => true
  | _ => false

/-- Stages that only go on, the run apart from the call and from the report of its result,
are at most one step apart. -/
theorem one_step {st st' : Stage α β} (given : ∀ a, st.given = some a → st'.given = some a)
    (made : ∀ b, st.made = some b → st'.made = some b) (done : st.done = true → st'.done = true)
    (apart : st'.made = st.made ∨ (st'.given = st.given ∧ st'.done = st.done)) :
    st' = st ∨ ∃ a, (call α β).next st a = some st' := by
  cases st with
  | idle =>
      cases st' with
      | idle => exact .inl rfl
      | issued a => exact .inr ⟨.issue a, rfl⟩
      | executed | completed => simp [Stage.made, Stage.given] at apart
  | issued a =>
      cases st' with
      | idle => cases given a rfl
      | issued =>
          cases given a rfl
          exact .inl rfl
      | executed _ b =>
          cases given a rfl
          exact .inr ⟨.execute b, rfl⟩
      | completed => simp [Stage.made, Stage.done] at apart
  | executed a b =>
      cases st' with
      | idle | issued => cases made b rfl
      | executed =>
          cases given a rfl
          cases made b rfl
          exact .inl rfl
      | completed =>
          cases given a rfl
          cases made b rfl
          exact .inr ⟨.complete, rfl⟩
  | completed a b =>
      cases st' with
      | idle | issued => cases made b rfl
      | executed => cases done rfl
      | completed =>
          cases given a rfl
          cases made b rfl
          exact .inl rfl

end Once
