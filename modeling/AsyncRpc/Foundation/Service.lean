import Mathlib.Data.List.Basic

/-! Services: one answer to each operation. A service that many clients share is
compared with one of a single client, which sees the operations of that client alone. -/
namespace Serving

variable {σ τ κ α ρ : Type*}

structure Service (σ α ρ : Type*) where
  serve : σ → α → ρ × σ

namespace Service

def answers (M : Service σ α ρ) : σ → List α → List ρ
  | _, [] => []
  | s, a :: rest => (M.serve s a).1 :: M.answers (M.serve s a).2 rest

def after (M : Service σ α ρ) : σ → List α → σ
  | s, [] => s
  | s, a :: rest => M.after (M.serve s a).2 rest

end Service

variable [DecidableEq κ]

/-- The operations of client `k`, in their order. -/
def opsOf (k : κ) : List (κ × α) → List α
  | [] => []
  | op :: rest => if op.1 = k then op.2 :: opsOf k rest else opsOf k rest

/-- The answers that client `k` gets. -/
def Service.answersTo (M : Service σ (κ × α) ρ) (k : κ) : σ → List (κ × α) → List ρ
  | _, [] => []
  | s, op :: rest =>
      if op.1 = k then (M.serve s op).1 :: M.answersTo k (M.serve s op).2 rest
      else M.answersTo k (M.serve s op).2 rest

/-- The relation `R` survives the operations of `k`, which get the same answer on both
sides, and the operations of the others, which only the shared service sees. -/
structure Simulates (M : Service σ (κ × α) ρ) (N : Service τ α ρ) (k : κ) (R : σ → τ → Prop) :
    Prop where
  answer : ∀ s t a, R s t → (M.serve s (k, a)).1 = (N.serve t a).1
  own : ∀ s t a, R s t → R (M.serve s (k, a)).2 (N.serve t a).2
  other : ∀ s t j a, j ≠ k → R s t → R (M.serve s (j, a)).2 t

section Runs

variable {M : Service σ (κ × α) ρ} {N : Service τ α ρ} {k : κ} {R : σ → τ → Prop}

theorem Simulates.after (sim : Simulates M N k R) {s : σ} {t : τ} (related : R s t)
    (ops : List (κ × α)) : R (M.after s ops) (N.after t (opsOf k ops)) := by
  induction ops generalizing s t with
  | nil => exact related
  | cons op rest ih =>
      obtain ⟨j, a⟩ := op
      by_cases same : j = k
      · subst same
        rw [opsOf, if_pos rfl]
        exact ih (sim.own s t a related)
      · rw [opsOf, if_neg same]
        exact ih (sim.other s t j a same related)

theorem Simulates.answersTo (sim : Simulates M N k R) {s : σ} {t : τ} (related : R s t)
    (ops : List (κ × α)) : M.answersTo k s ops = N.answers t (opsOf k ops) := by
  induction ops generalizing s t with
  | nil => rfl
  | cons op rest ih =>
      obtain ⟨j, a⟩ := op
      rw [Service.answersTo, opsOf]
      by_cases same : j = k
      · subst same
        rw [if_pos rfl, if_pos rfl, Service.answers, sim.answer s t a related]
        exact congrArg (_ :: ·) (ih (sim.own s t a related))
      · rw [if_neg same, if_neg same]
        exact ih (sim.other s t j a same related)

end Runs

end Serving
