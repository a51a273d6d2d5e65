import AsyncRpc.Foundation.Transition
import Mathlib.Data.List.Nodup

/-! Operations that take effect one at a time, each between its call and its answer. The
order in which they do is one that callers cannot tell from theirs. -/
namespace Linearization
open Transition

variable {σ α ω ι ν : Type*}

/-- What can be seen of operations `ω`: that they were called, in which order they took
effect in each of several places, the latest first, and that they were answered. The name
of an operation says which one it is, whatever came of it. -/
structure Object (σ ω ι ν : Type*) where
  name : ω → ν
  called : σ → ω → Prop
  log : ι → σ → List ω
  answered : σ → ω → Prop

/-- `o` took effect before `o'`. -/
def Before (l : List ω) (o o' : ω) : Prop := ∃ new old, l = new ++ old ∧ o' ∈ new ∧ o ∈ old

/-- Where nothing takes effect twice, it is an order. -/
theorem Before.asymm {l : List ω} (once : l.Nodup) {o o' : ω} (h : Before l o o') :
    ¬ Before l o' o := by
  rintro ⟨new', old', same, later', earlier'⟩
  obtain ⟨new, old, rfl, later, earlier⟩ := h
  have apart := List.disjoint_of_nodup_append once
  have apart' := List.disjoint_of_nodup_append (same ▸ once)
  rcases List.append_eq_append_iff.mp same with ⟨mid, rfl, rfl⟩ | ⟨mid, rfl, rfl⟩
  · exact apart later (List.mem_append_right mid earlier')
  · exact apart' later' (List.mem_append_right mid earlier)

/-- What holds between a state and a later one: the order is only added to, operations
take effect once, in one place and only when called, an answer says that its operation
did, and what was answered before another was called took effect before it. -/
structure Linear (O : Object σ ω ι ν) (t u : σ) : Prop where
  grows : ∀ v, O.log v t <:+ O.log v u
  once : ∀ v, ((O.log v u).map O.name).Nodup
  placed : ∀ v v', ∀ o ∈ O.log v u, ∀ o' ∈ O.log v' u, O.name o = O.name o' → v = v'
  called : ∀ v, ∀ o ∈ O.log v u, O.called u o
  answered : ∀ o, O.answered u o → ∃ v, o ∈ O.log v u
  order : ∀ v, ∀ o ∈ O.log v u, ∀ o' ∈ O.log v u, O.answered t o → ¬ O.called t o' →
    Before (O.log v u) o o' ∧ ¬ Before (O.log v u) o' o

theorem log_grows {S : System σ α} {ok : σ → α → Prop} {t u : σ} {O : Object σ ω ι ν}
    (grows : ∀ t a u, S.next t a = some u → ∀ v, O.log v t <:+ O.log v u)
    (later : Reachable S ok t u) (v : ι) : O.log v t <:+ O.log v u := by
  induction later with
  | init => exact List.suffix_refl _
  | step _ _ moved more => exact more.trans (grows _ _ _ moved v)

/-- An object is linear if its logs only grow and share no name. -/
theorem linear {S : System σ α} {ok : σ → α → Prop} {s t u : σ} {O : Object σ ω ι ν}
    (once : ∀ t, Reachable S ok s t → ∀ v, ((O.log v t).map O.name).Nodup)
    (called : ∀ t, Reachable S ok s t → ∀ v, ∀ o ∈ O.log v t, O.called t o)
    (answered : ∀ t, Reachable S ok s t → ∀ o, O.answered t o → ∃ v, o ∈ O.log v t)
    (placed : ∀ t, Reachable S ok s t → ∀ v v', ∀ o ∈ O.log v t, ∀ o' ∈ O.log v' t,
      O.name o = O.name o' → v = v')
    (grows : ∀ t a u, S.next t a = some u → ∀ v, O.log v t <:+ O.log v u)
    (run : Reachable S ok s t) (later : Reachable S ok t u) : Linear O t u := by
  have reached := run.trans later
  have grown : ∀ v, O.log v t <:+ O.log v u := log_grows grows later
  refine ⟨grown, once u reached, placed u reached, called u reached, answered u reached, ?_⟩
  intro v o member o' member' reply uncalled
  obtain ⟨v', early⟩ := answered t run o reply
  have here : v' = v := placed u reached v' v o ((grown v').subset early) o member rfl
  subst here
  obtain ⟨new, same⟩ := grown v'
  have ordered : Before (O.log v' u) o o' := by
    refine ⟨new, O.log v' t, same.symm, ?_, early⟩
    rcases List.mem_append.mp (same ▸ member') with after | before
    · exact after
    · exact absurd (called t run v' o' before) uncalled
  exact ⟨ordered, ordered.asymm (once u reached v').of_map⟩

end Linearization
