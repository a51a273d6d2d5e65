import Mathlib.Data.List.Basic

/-! Labelled transition functions and guarded runs. A guard reads the state
before the step, so "every step of the run meets the condition" is a run. -/
namespace Transition

variable {σ α : Type*}

/-- A partial transition function; `none` means the action is not enabled. -/
structure System (σ α : Type*) where
  next : σ → α → Option σ

/-- Any action at any state. -/
def anyStep : σ → α → Prop := fun _ _ => True

/-- States of the runs from `s` all of whose steps satisfy the guard `ok`. -/
inductive Reachable (S : System σ α) (ok : σ → α → Prop) (s : σ) : σ → Prop
  | init : Reachable S ok s s
  | step {t u : σ} {a : α} : Reachable S ok s t → ok t a → S.next t a = some u →
      Reachable S ok s u

/-- What holds at the start and is kept by every allowed step holds on the run. -/
theorem Reachable.invariant {S : System σ α} {ok : σ → α → Prop} {s t : σ} {I : σ → Prop}
    (h : Reachable S ok s t) (base : I s)
    (keep : ∀ t a u, Reachable S ok s t → I t → ok t a → S.next t a = some u → I u) : I t := by
  induction h with
  | init => exact base
  | step reached allowed moved ih => exact keep _ _ _ reached ih allowed moved

theorem Reachable.mono {S : System σ α} {ok ok' : σ → α → Prop} {s t : σ}
    (h : Reachable S ok s t) (weaker : ∀ t a, ok t a → ok' t a) : Reachable S ok' s t := by
  induction h with
  | init => exact .init
  | step _ allowed moved ih => exact .step ih (weaker _ _ allowed) moved

theorem Reachable.any {S : System σ α} {ok : σ → α → Prop} {s t : σ}
    (h : Reachable S ok s t) : Reachable S anyStep s t :=
  h.mono fun _ _ _ => trivial

theorem Reachable.trans {S : System σ α} {ok : σ → α → Prop} {s t u : σ}
    (first : Reachable S ok s t) (second : Reachable S ok t u) : Reachable S ok s u := by
  induction second with
  | init => exact first
  | step _ allowed moved ih => exact .step ih allowed moved

/-- Run a list of actions, checking the guard before each. -/
def System.exec (S : System σ α) (ok : σ → α → Bool) : σ → List α → Option σ
  | s, [] => some s
  | s, a :: rest => if ok s a then (S.next s a).bind fun t => S.exec ok t rest else none

theorem Reachable.head {S : System σ α} {ok : σ → α → Prop} {s t u : σ} {a : α}
    (allowed : ok s a) (moved : S.next s a = some t) (h : Reachable S ok t u) :
    Reachable S ok s u := by
  induction h with
  | init => exact .step .init allowed moved
  | step _ allowed' moved' ih => exact .step ih allowed' moved'

theorem System.exec_reachable {S : System σ α} {ok : σ → α → Bool} {s t : σ} {acts : List α}
    (h : S.exec ok s acts = some t) : Reachable S (fun s a => ok s a = true) s t := by
  induction acts generalizing s with
  | nil => cases h; exact .init
  | cons a rest ih =>
      simp only [System.exec] at h
      split_ifs at h with allowed
      obtain ⟨u, moved, tail⟩ := Option.bind_eq_some_iff.mp h
      exact .head allowed moved (ih tail)

/-- A run on given actions to a state with a property that can be evaluated. -/
theorem System.exec_any {S : System σ α} {ok : σ → α → Bool} {s : σ} {acts : List α} {P : σ → Prop}
    [DecidablePred P] (found : (S.exec ok s acts).any (fun t => decide (P t)) = true) :
    ∃ t, S.exec ok s acts = some t ∧ P t := by
  cases ran : S.exec ok s acts with
  | none => rw [ran] at found; cases found
  | some t =>
      rw [ran] at found
      exact ⟨t, rfl, of_decide_eq_true found⟩

/-- The same for two runs one after the other. -/
theorem System.exec_any_later {S : System σ α} {ok : σ → α → Bool} {s : σ} {acts more : List α}
    {P : σ → σ → Prop} [∀ t u, Decidable (P t u)]
    (found : (S.exec ok s acts).any (fun t => (S.exec ok t more).any fun u => decide (P t u)) = true) :
    ∃ t u, S.exec ok s acts = some t ∧ S.exec ok t more = some u ∧ P t u := by
  cases ran : S.exec ok s acts with
  | none => rw [ran] at found; cases found
  | some t =>
      rw [ran] at found
      obtain ⟨u, later, holds⟩ := System.exec_any found
      exact ⟨t, u, rfl, later, holds⟩

/-- A component of a larger system is itself a run when each step of the system
either moves it by a step of its own or leaves it alone. -/
theorem Reachable.project {σ' α' : Type*} {S : System σ α} {S' : System σ' α'}
    {ok : σ → α → Prop} {ok' : σ' → α' → Prop} {s t : σ} (f : σ → σ')
    (h : Reachable S ok s t)
    (sim : ∀ t a u, ok t a → S.next t a = some u →
      f u = f t ∨ ∃ a', ok' (f t) a' ∧ S'.next (f t) a' = some (f u)) :
    Reachable S' ok' (f s) (f t) := by
  induction h with
  | init => exact .init
  | step _ allowed moved ih =>
      rcases sim _ _ _ allowed moved with same | ⟨a', allowed', moved'⟩
      · rw [same]; exact ih
      · exact .step ih allowed' moved'

/-- A concrete run is matched step by step by runs of an abstract system, up to `R`. -/
theorem Reachable.simulated {σ' α' : Type*} {S : System σ α} {S' : System σ' α'} {ok : σ → α → Prop}
    {ok' : σ' → α' → Prop} {R : σ → σ' → Prop} {s t : σ} {s' : σ'} (run : Reachable S ok s t)
    (start : R s s')
    (sim : ∀ t a u t', Reachable S ok s t → ok t a → S.next t a = some u → R t t' →
      ∃ u', R u u' ∧ (u' = t' ∨ ∃ a', ok' t' a' ∧ S'.next t' a' = some u')) :
    ∃ t', Reachable S' ok' s' t' ∧ R t t' := by
  induction run with
  | init => exact ⟨s', .init, start⟩
  | step reached allowed moved ih =>
      obtain ⟨t', run', related⟩ := ih
      obtain ⟨u', related', rfl | ⟨a', allowed', moved'⟩⟩ := sim _ _ _ _ reached allowed moved related
      · exact ⟨u', run', related'⟩
      · exact ⟨u', .step run' allowed' moved', related'⟩

end Transition
