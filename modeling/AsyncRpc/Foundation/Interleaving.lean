import AsyncRpc.Foundation.Transition
import Mathlib.Data.List.Perm.Basic

/-! Programs of atomic sections. A configuration is a shared state and the pool
of activities that have not ended; a move runs the next section of one of them. -/
namespace Interleaving

variable {σ τ ℓ ε ω : Type*}

structure Cfg (σ τ : Type*) where
  shared : σ
  pool : List τ

/-- `act` is the next atomic section of an activity under a choice `ℓ` of its
environment: the new shared state, its continuations and what it hands out.
`spawn` starts activities on an event from outside. -/
structure Machine (σ τ ℓ ε ω : Type*) where
  act : σ → τ → ℓ → Option (σ × List τ × List ω)
  spawn : σ → ε → Option (σ × List τ)

inductive Move (ℓ ε : Type*) where
  | act (i : Nat) (l : ℓ)
  | spawn (e : ε)

/-- Whether a move runs a section that satisfies `p`. -/
def Move.runs (p : τ → ℓ → Bool) (pool : List τ) : Move ℓ ε → Bool
  | .act i l => pool[i]?.any fun t => p t l
  | .spawn _ => false

theorem Move.runs_act {p : τ → ℓ → Bool} {pool : List τ} {i : Nat} {t : τ} (taken : pool[i]? = some t)
    (l : ℓ) : (Move.act i l : Move ℓ ε).runs p pool = p t l := by
  rw [Move.runs, taken]
  rfl

def Machine.next (M : Machine σ τ ℓ ε ω) (c : Cfg σ τ) : Move ℓ ε → Option (Cfg σ τ × List ω)
  | .act i l =>
      c.pool[i]?.bind fun t => (M.act c.shared t l).map fun r =>
        (⟨r.1, r.2.1 ++ c.pool.eraseIdx i⟩, r.2.2)
  | .spawn e => (M.spawn c.shared e).map fun r => (⟨r.1, r.2 ++ c.pool⟩, [])

def Machine.system (M : Machine σ τ ℓ ε ω) : Transition.System (Cfg σ τ) (Move ℓ ε) where
  next c m := (M.next c m).map Prod.fst

theorem perm_cons_eraseIdx {l : List τ} {i : Nat} {t : τ} (h : l[i]? = some t) :
    l.Perm (t :: l.eraseIdx i) := by
  obtain ⟨hi, rfl⟩ := List.getElem?_eq_some_iff.mp h
  exact (List.getElem_cons_eraseIdx_perm hi).symm

/-- Everything a move can do: one activity `old` is taken out (none on a spawn)
and replaced by its continuations, beside the untouched `rest`. -/
inductive Machine.Moved (M : Machine σ τ ℓ ε ω) (c : Cfg σ τ) (c' : Cfg σ τ) (os : List ω) :
    Move ℓ ε → Prop
  | act {i : Nat} {l : ℓ} (t : τ) (rest ts : List τ) (taken : c.pool[i]? = some t)
      (split : c.pool.Perm (t :: rest))
      (ran : M.act c.shared t l = some (c'.shared, ts, os)) (left : c'.pool = ts ++ rest) :
      Moved M c c' os (.act i l)
  | spawn {e : ε} (ts : List τ) (ran : M.spawn c.shared e = some (c'.shared, ts))
      (quiet : os = []) (left : c'.pool = ts ++ c.pool) : Moved M c c' os (.spawn e)

theorem Machine.moved {M : Machine σ τ ℓ ε ω} {c c' : Cfg σ τ} {m : Move ℓ ε} {os : List ω}
    (h : M.next c m = some (c', os)) : M.Moved c c' os m := by
  cases m with
  | act i l =>
      obtain ⟨t, taken, h⟩ := Option.bind_eq_some_iff.mp h
      obtain ⟨r, ran, same⟩ := Option.map_eq_some_iff.mp h
      cases same
      exact .act t _ r.2.1 taken (perm_cons_eraseIdx taken) ran rfl
  | spawn e =>
      obtain ⟨r, ran, same⟩ := Option.map_eq_some_iff.mp h
      cases same
      exact .spawn r.2 ran rfl rfl

theorem Machine.moved_of_system {M : Machine σ τ ℓ ε ω} {c c' : Cfg σ τ} {m : Move ℓ ε}
    (h : M.system.next c m = some c') : ∃ os, M.Moved c c' os m := by
  obtain ⟨⟨d, os⟩, ran, same⟩ := Option.map_eq_some_iff.mp h
  cases same
  exact ⟨os, M.moved ran⟩

/-- The induction on the length of a run of a machine. -/
theorem Machine.invariant {M : Machine σ τ ℓ ε ω} {ok : Cfg σ τ → Move ℓ ε → Prop} {s c : Cfg σ τ}
    {I : Cfg σ τ → Prop} (run : Transition.Reachable M.system ok s c) (base : I s)
    (keep : ∀ c m c' os, I c → ok c m → M.Moved c c' os m → I c') : I c := by
  apply run.invariant base
  intro c m c' _ holds allowed moved
  obtain ⟨os, moved⟩ := Machine.moved_of_system moved
  exact keep c m c' os holds allowed moved

/-- An activity stands still in a move or is the one that moves. -/
theorem Machine.Moved.kept {M : Machine σ τ ℓ ε ω} {c c' : Cfg σ τ} {m : Move ℓ ε} {os : List ω}
    (h : M.Moved c c' os m) {t : τ} (member : t ∈ c.pool) : t ∈ c'.pool ∨
      ∃ i l ts, m = .act i l ∧ c.pool[i]? = some t ∧ M.act c.shared t l = some (c'.shared, ts, os) ∧
        ∀ u ∈ ts, u ∈ c'.pool := by
  cases h with
  | @act i l t' rest ts taken split ran left =>
      rcases List.mem_cons.mp (split.mem_iff.mp member) with rfl | other
      · exact .inr ⟨i, l, ts, rfl, taken, ran, fun u new => left ▸ List.mem_append_left rest new⟩
      · exact .inl (left ▸ List.mem_append_right ts other)
  | spawn ts _ _ left => exact .inl (left ▸ List.mem_append_right ts member)

/-! Non-interference: an assertion on the shared state together with one on each
activity survives a move if the moving activity establishes both for what it
leaves behind and no move falsifies the assertion of an activity that stands still. -/

structure Holds (I : σ → Prop) (T : σ → τ → Prop) (c : Cfg σ τ) : Prop where
  shared : I c.shared
  task : ∀ t ∈ c.pool, T c.shared t

theorem Holds.move {M : Machine σ τ ℓ ε ω} {I : σ → Prop} {T : σ → τ → Prop}
    {c c' : Cfg σ τ} {m : Move ℓ ε} {os : List ω} (h : Holds I T c) (moved : M.Moved c c' os m)
    (act : ∀ i l t rest ts, m = .act i l → c.pool[i]? = some t → c.pool.Perm (t :: rest) →
      T c.shared t → M.act c.shared t l = some (c'.shared, ts, os) →
      I c'.shared ∧ (∀ u ∈ ts, T c'.shared u) ∧ ∀ u ∈ rest, T c.shared u → T c'.shared u)
    (spawn : ∀ e ts, m = .spawn e → M.spawn c.shared e = some (c'.shared, ts) →
      I c'.shared ∧ (∀ u ∈ ts, T c'.shared u) ∧ ∀ u ∈ c.pool, T c.shared u → T c'.shared u) :
    Holds I T c' := by
  cases moved with
  | @act i l t rest ts taken split ran left =>
      have member : t ∈ c.pool := split.mem_iff.mpr List.mem_cons_self
      obtain ⟨shared, fresh, stable⟩ := act i l t rest ts rfl taken split (h.task t member) ran
      refine ⟨shared, fun u hu => ?_⟩
      rw [left] at hu
      rcases List.mem_append.mp hu with new | old
      · exact fresh u new
      · exact stable u old (h.task u (split.mem_iff.mpr (List.mem_cons_of_mem t old)))
  | @spawn e ts ran _ left =>
      obtain ⟨shared, fresh, stable⟩ := spawn e ts rfl ran
      refine ⟨shared, fun u hu => ?_⟩
      rw [left] at hu
      rcases List.mem_append.mp hu with new | old
      · exact fresh u new
      · exact stable u old (h.task u old)

/-! Accounts: a weight on activities, summed over the pool. A move changes the
account by what its activity weighed and what its continuations weigh. -/

def weigh (w : τ → Nat) : List τ → Nat
  | [] => 0
  | t :: ts => w t + weigh w ts

@[simp] theorem weigh_nil (w : τ → Nat) : weigh w [] = 0 := rfl

@[simp] theorem weigh_cons (w : τ → Nat) (t : τ) (ts : List τ) :
    weigh w (t :: ts) = w t + weigh w ts := rfl

@[simp] theorem weigh_append (w : τ → Nat) (ts us : List τ) :
    weigh w (ts ++ us) = weigh w ts + weigh w us := by
  induction ts with
  | nil => exact (Nat.zero_add _).symm
  | cons t ts ih => rw [List.cons_append, weigh_cons, weigh_cons, ih, Nat.add_assoc]

theorem weigh_perm (w : τ → Nat) {ts us : List τ} (h : ts.Perm us) : weigh w ts = weigh w us := by
  induction h with
  | nil => rfl
  | cons t _ ih => rw [weigh_cons, weigh_cons, ih]
  | swap t u ts => exact Nat.add_left_comm _ _ _
  | trans _ _ first second => exact first.trans second

theorem weigh_pos {w : τ → Nat} {t : τ} {ts : List τ} (member : t ∈ ts) : w t ≤ weigh w ts := by
  induction member with
  | head => exact Nat.le_add_right _ _
  | tail u _ ih => exact Nat.le_trans ih (Nat.le_add_left _ _)

theorem weigh_eq_zero {w : τ → Nat} {ts : List τ} (h : ∀ t ∈ ts, w t = 0) : weigh w ts = 0 := by
  induction ts with
  | nil => rfl
  | cons t ts ih =>
      rw [weigh_cons, h t List.mem_cons_self, ih fun u later => h u (List.mem_cons_of_mem t later)]

/-- The account after a section, given how the pool was split. -/
theorem weigh_act (w : τ → Nat) {pool rest ts left : List τ} {t : τ}
    (split : pool.Perm (t :: rest)) (eq : left = ts ++ rest) :
    weigh w left + w t = weigh w pool + weigh w ts := by
  rw [eq, weigh_append, weigh_perm w split, weigh_cons]
  omega

/-! One activity by itself. -/

/-- Run an activity while the others stand still, with the choices that `pick` makes for
its environment, until it waits, forks or ends. -/
def Machine.alone (M : Machine σ τ ℓ ε ω) (pick : τ → Option ℓ) : Nat → σ → τ → σ × List τ
  | 0, s, t => (s, [t])
  | fuel + 1, s, t =>
      match (pick t).bind (M.act s t) with
      | none => (s, [t])
      | some (s', [u], _) => M.alone pick fuel s' u
      | some (s', ts, _) => (s', ts)

/-- It is a run of the machine. -/
theorem Machine.alone_reachable (M : Machine σ τ ℓ ε ω) (pick : τ → Option ℓ) (rest : List τ)
    (fuel : Nat) (s : σ) (t : τ) :
    Transition.Reachable M.system Transition.anyStep ⟨s, t :: rest⟩
      ⟨(M.alone pick fuel s t).1, (M.alone pick fuel s t).2 ++ rest⟩ := by
  induction fuel generalizing s t with
  | zero => exact .init
  | succ fuel ih =>
      have step : ∀ s' ts os, (pick t).bind (M.act s t) = some (s', ts, os) →
          ∃ l : ℓ, M.system.next ⟨s, t :: rest⟩ (.act 0 l) = some ⟨s', ts ++ rest⟩ := by
        intro s' ts os ran
        obtain ⟨l, _, acts⟩ := Option.bind_eq_some_iff.mp ran
        refine ⟨l, ?_⟩
        simp [Machine.system, Machine.next, acts]
      unfold Machine.alone
      split
      · exact .init
      · rename_i s' u os ran
        obtain ⟨l, moved⟩ := step _ _ _ ran
        exact .head trivial moved (ih s' u)
      · rename_i s' ts os _ ran
        obtain ⟨l, moved⟩ := step _ _ _ ran
        exact .head trivial moved .init

/-- An assertion that each section of the activity keeps, and a rank that each section
lowers, lead to where the activity waits or ends. -/
theorem Machine.alone_rule {M : Machine σ τ ℓ ε ω} {pick : τ → Option ℓ} {P : σ → τ → Prop}
    {Q : σ → List τ → Prop} (rank : τ → Nat)
    (waits : ∀ s t, P s t → pick t = none → Q s [t])
    (goes : ∀ s t l, P s t → pick t = some l → ∃ s' ts os, M.act s t l = some (s', ts, os) ∧
      ((∃ u, ts = [u] ∧ P s' u ∧ rank u < rank t) ∨ ((∀ u, ts ≠ [u]) ∧ Q s' ts)))
    {fuel : Nat} {s : σ} {t : τ} (enough : rank t < fuel) (start : P s t) :
    Q (M.alone pick fuel s t).1 (M.alone pick fuel s t).2 := by
  induction fuel generalizing s t with
  | zero => exact absurd enough (Nat.not_lt_zero _)
  | succ fuel ih =>
      cases picked : pick t with
      | none =>
          have done := waits s t start picked
          simpa [Machine.alone, picked] using done
      | some l =>
          obtain ⟨s', ts, os, ran, ⟨u, rfl, kept, lower⟩ | ⟨ends, done⟩⟩ := goes s t l start picked
          · have rest := ih (Nat.lt_of_lt_of_le lower (Nat.le_of_lt_succ enough)) kept
            simpa [Machine.alone, picked, ran] using rest
          · simpa only [Machine.alone, picked, Option.bind_some, ran] using done

end Interleaving
