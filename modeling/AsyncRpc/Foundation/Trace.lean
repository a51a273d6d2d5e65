import AsyncRpc.Foundation.Interleaving

/-! Observed runs: each step shows some events, and the log of a run is what its steps
showed. A protocol is an automaton on events; a system keeps to it when every step takes
the automaton along. -/
namespace Transition

variable {σ α β φ : Type*}

inductive Observed (S : System σ α) (ok : σ → α → Prop) (obs : σ → α → List β) (s : σ) :
    List β → σ → Prop
  | init : Observed S ok obs s [] s
  | step {t u : σ} {a : α} {log : List β} : Observed S ok obs s log t → ok t a →
      S.next t a = some u → Observed S ok obs s (log ++ obs t a) u

section Runs

variable {S : System σ α} {ok : σ → α → Prop} {obs : σ → α → List β} {s t u : σ} {log : List β}

theorem Observed.reachable (h : Observed S ok obs s log t) : Reachable S ok s t := by
  induction h with
  | init => exact .init
  | step _ allowed moved ih => exact .step ih allowed moved

/-- Every run has a log. -/
theorem Reachable.observed (obs : σ → α → List β) (h : Reachable S ok s t) :
    ∃ log, Observed S ok obs s log t := by
  induction h with
  | init => exact ⟨[], .init⟩
  | step _ allowed moved ih =>
      obtain ⟨log, run⟩ := ih
      exact ⟨_, .step run allowed moved⟩

/-- What holds of the start and the empty log, and is kept by every allowed step and what it
shows, holds of the run and its log. -/
theorem Observed.invariant {I : σ → List β → Prop} (h : Observed S ok obs s log t) (base : I s [])
    (keep : ∀ t a u log, Observed S ok obs s log t → I t log → ok t a → S.next t a = some u →
      I u (log ++ obs t a)) : I t log := by
  induction h with
  | init => exact base
  | step run allowed moved ih => exact keep _ _ _ _ run ih allowed moved

theorem Observed.head {a : α} (allowed : ok s a) (moved : S.next s a = some t)
    (h : Observed S ok obs t log u) : Observed S ok obs s (obs s a ++ log) u := by
  induction h with
  | init =>
      rw [List.append_nil]
      exact .step .init allowed moved
  | step _ allowed' moved' ih =>
      rw [← List.append_assoc]
      exact .step ih allowed' moved'

end Runs

/-- Run a list of actions and keep the log. -/
def System.execSeen (S : System σ α) (obs : σ → α → List β) : σ → List α → Option (List β × σ)
  | s, [] => some ([], s)
  | s, a :: rest =>
      (S.next s a).bind fun t => (S.execSeen obs t rest).map fun r => (obs s a ++ r.1, r.2)

theorem System.execSeen_observed {S : System σ α} {obs : σ → α → List β} {s t : σ} {log : List β}
    {acts : List α} (h : S.execSeen obs s acts = some (log, t)) :
    Observed S anyStep obs s log t := by
  induction acts generalizing s log with
  | nil => cases h; exact .init
  | cons a rest ih =>
      obtain ⟨u, moved, tail⟩ := Option.bind_eq_some_iff.mp h
      obtain ⟨⟨log', t'⟩, ran, same⟩ := Option.map_eq_some_iff.mp tail
      cases same
      exact .head trivial moved (ih ran)

/-- The automaton `N` reads a list of events. -/
inductive Follows (N : φ → β → φ → Prop) : φ → List β → φ → Prop
  | nil {p : φ} : Follows N p [] p
  | cons {p q r : φ} {e : β} {es : List β} : N p e q → Follows N q es r → Follows N p (e :: es) r

section Automata

variable {N : φ → β → φ → Prop} {p q r : φ} {e : β} {es fs : List β}

theorem Follows.single (h : N p e q) : Follows N p [e] q := .cons h .nil

theorem Follows.append (first : Follows N p es q) (second : Follows N q fs r) :
    Follows N p (es ++ fs) r := by
  induction first with
  | nil => exact second
  | cons step _ ih => exact .cons step (ih second)

theorem Follows.split (h : Follows N p (es ++ fs) r) :
    ∃ q, Follows N p es q ∧ Follows N q fs r := by
  induction es generalizing p with
  | nil => exact ⟨p, .nil, h⟩
  | cons e es ih =>
      cases h with
      | cons step rest =>
          obtain ⟨q, first, second⟩ := ih rest
          exact ⟨q, .cons step first, second⟩

/-- What an automaton keeps along each event it keeps along the log. -/
theorem Follows.keeps {I : φ → Prop} {J : β → Prop} (h : Follows N p es q) (start : I p)
    (events : ∀ e ∈ es, J e) (keep : ∀ p e q, I p → J e → N p e q → I q) : I q := by
  induction h with
  | nil => exact start
  | cons step _ ih =>
      apply ih
      · exact keep _ _ _ start (events _ List.mem_cons_self) step
      · intro e member
        exact events e (List.mem_cons_of_mem _ member)

end Automata

/-- The automaton follows the log of a run when it follows what each step shows. -/
theorem Observed.follows {S : System σ α} {ok : σ → α → Prop} {obs : σ → α → List β}
    {N : φ → β → φ → Prop} {R : σ → φ → Prop} {s t : σ} {log : List β} {p : φ}
    (h : Observed S ok obs s log t) (start : R s p)
    (sim : ∀ t a u p, Reachable S ok s t → R t p → ok t a → S.next t a = some u →
      ∃ q, Follows N p (obs t a) q ∧ R u q) : ∃ q, Follows N p log q ∧ R t q := by
  induction h with
  | init => exact ⟨p, .nil, start⟩
  | step run allowed moved ih =>
      obtain ⟨q, followed, related⟩ := ih
      obtain ⟨r, more, related'⟩ := sim _ _ _ _ run.reachable related allowed moved
      exact ⟨r, followed.append more, related'⟩

end Transition

namespace Interleaving

variable {σ τ ℓ ε ω β : Type*}

/-- What `see` shows of the section that a move runs. -/
def Machine.shown (M : Machine σ τ ℓ ε ω) (see : τ → ℓ → List τ → List β) (c : Cfg σ τ) :
    Move ℓ ε → List β
  | .act i l =>
      ((c.pool[i]?.bind fun t => (M.act c.shared t l).map fun r => see t l r.2.1).getD [])
  | .spawn _ => []

theorem Machine.shown_act {M : Machine σ τ ℓ ε ω} (see : τ → ℓ → List τ → List β) {c : Cfg σ τ}
    {i : Nat} {l : ℓ} {t : τ} {s : σ} {ts : List τ} {os : List ω} (taken : c.pool[i]? = some t)
    (ran : M.act c.shared t l = some (s, ts, os)) :
    M.shown see c (.act i l : Move ℓ ε) = see t l ts := by
  simp [Machine.shown, taken, ran]

end Interleaving
