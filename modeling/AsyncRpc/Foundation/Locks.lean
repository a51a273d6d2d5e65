import AsyncRpc.Foundation.Transition
import Mathlib.Data.List.Perm.Basic
import Mathlib.Logic.Relation

/-! Threads, mutexes and contexts whose handlers worker threads run. Code is reduced to what
it does with mutexes and contexts: the values that decide its branches are left open. A
discipline gives each mutex a rank and lets a thread take mutexes in ascending order only. -/
namespace Locks
open Transition Relation

/-- `locked` is a scope that holds a mutex and `await` one that is entered when a condition
holds. `fork` starts a thread. `post` leaves code to the context `c`, `serve` runs such code
until the context is stopped or has no work left, and `halt` stops it. -/
inductive Code (L P C : Type) where
  | skip
  | seq (a b : Code L P C)
  | any (f : Nat → Code L P C)
  | locked (m : L) (body : Code L P C)
  | await (m : L) (body : Code L P C)
  | invoke (p : P)
  | fork (body : Code L P C)
  | post (c : C) (body : Code L P C)
  | serve (c : C)
  | halt (c : C)

variable {L P C : Type}

def Code.either (a b : Code L P C) : Code L P C := .any fun n => if n = 0 then a else b

/-- What is left to do on a stack: code, the end of a scope, and the end of a handler. -/
inductive Item (L P C : Type) where
  | run (c : Code L P C)
  | release (m : L)
  | working (c : C)

structure Thread (L P C : Type) where
  stack : List (Item L P C)

structure State (L P C : Type) where
  threads : List (Thread L P C)
  posted : List (C × Code L P C) := []
  stopped : C → Bool := fun _ => false

/-- Thread `i` goes on, ends, or takes up posted code `j`. -/
inductive Action where
  | run (i n : Nat)
  | finish (i : Nat)
  | take (i j : Nat)

section Predicates
variable [DecidableEq L] [DecidableEq C]

def Item.holds (m : L) : Item L P C → Bool
  | .release m' => m = m'
  | .run _ | .working _ => false

def Item.works (c : C) : Item L P C → Bool
  | .working c' => c = c'
  | .run _ | .release _ => false

def Thread.holds (m : L) (t : Thread L P C) : Bool := t.stack.any (Item.holds m)

/-- Whether a thread runs a handler of a context. -/
def Thread.busy (c : C) (t : Thread L P C) : Bool := t.stack.any (Item.works c)

/-- The context whose next handler a thread waits for. -/
def Thread.idles (t : Thread L P C) : Option C :=
  match t.stack with
  | .run (.serve c) :: _ => some c
  | _ => none

/-- A worker of a context, between two handlers or in one. -/
def Thread.Serves (c : C) (t : Thread L P C) : Prop := t.idles = some c ∨ t.busy c = true

def State.held (m : L) (st : State L P C) : Bool := st.threads.any (Thread.holds m)

/-- Whether a context has no work beside that of thread `i`. -/
def State.lastOf (i : Nat) (st : State L P C) (c : C) : Bool :=
  st.posted.all (fun w => w.1 ≠ c) && (st.threads.eraseIdx i).all fun t => !t.busy c

end Predicates

/-- The mutex at whose scope a thread has arrived. -/
def Thread.wants (t : Thread L P C) : Option L :=
  match t.stack with
  | .run (.locked m _) :: _ | .run (.await m _) :: _ => some m
  | _ => none

/-- Whether a thread may be waiting for a condition or for work. -/
def Thread.rests (t : Thread L P C) : Bool :=
  match t.stack with
  | .run (.await _ _) :: _ | .run (.serve _) :: _ => true
  | _ => false

/-- The context that a thread is about to stop. -/
def Thread.stops (t : Thread L P C) : Option C :=
  match t.stack with
  | .run (.halt c) :: _ => some c
  | _ => none

/-- The function that a thread is about to call. -/
def Thread.invokes (t : Thread L P C) : Option P :=
  match t.stack with
  | .run (.invoke p) :: _ => some p
  | _ => none

/-- What a step of a thread leaves: its stack, the threads it starts, the code it posts and
the context it stops. -/
structure Outcome (L P C : Type) where
  stack : List (Item L P C)
  threads : List (Thread L P C) := []
  posted : List (C × Code L P C) := []
  halts : Option C := none

/-- `last c` says that no other work is left in `c`: a context without work stops. -/
def Thread.next (body : P → Code L P C) (held : L → Bool) (stopped last : C → Bool) (n : Nat)
    (t : Thread L P C) : Option (Outcome L P C) :=
  match t.stack with
  | [] => none
  | .release _ :: k | .run .skip :: k => some { stack := k }
  | .working c :: k =>
      some { stack := .run (.serve c) :: k, halts := if last c then some c else none }
  | .run (.seq a b) :: k => some { stack := .run a :: .run b :: k }
  | .run (.any f) :: k => some { stack := .run (f n) :: k }
  | .run (.locked m b) :: k | .run (.await m b) :: k =>
      if held m then none else some { stack := .run b :: .release m :: k }
  | .run (.invoke p) :: k => some { stack := .run (body p) :: k }
  | .run (.fork b) :: k => some { stack := k, threads := [⟨[.run b]⟩] }
  | .run (.post c b) :: k => some { stack := k, posted := [(c, b)] }
  | .run (.serve c) :: k =>
      if stopped c || last c then some { stack := k, halts := some c } else none
  | .run (.halt c) :: k => some { stack := k, halts := some c }

/-- A worker that takes up a handler of its context. -/
def Thread.take [DecidableEq C] (t : Thread L P C) (w : C × Code L P C) : Option (Thread L P C) :=
  match t.stack with
  | .run (.serve c) :: k => if c = w.1 then some ⟨.run w.2 :: .working c :: k⟩ else none
  | _ => none

def State.next [DecidableEq L] [DecidableEq C] (body : P → Code L P C) (st : State L P C) :
    Action → Option (State L P C)
  | .run i n =>
      st.threads[i]?.bind fun t =>
        (t.next body (fun m => st.held m) st.stopped (st.lastOf i) n).map fun o =>
          { threads := st.threads.set i ⟨o.stack⟩ ++ o.threads
            posted := st.posted ++ o.posted
            stopped := fun c => st.stopped c || o.halts = some c }
  | .finish i =>
      st.threads[i]?.bind fun t => if t.stack.isEmpty then
        some { st with threads := st.threads.eraseIdx i }
      else none
  | .take i j =>
      st.threads[i]?.bind fun t => st.posted[j]?.bind fun w => if st.stopped w.1 then none
        else (t.take w).map fun t' =>
          { st with threads := st.threads.set i t', posted := st.posted.eraseIdx j }

def program [DecidableEq L] [DecidableEq C] (body : P → Code L P C) : System (State L P C) Action where
  next := State.next body

/-- What a thread may be doing when it has arrived at code: `0` for a thread that may wait for
a condition or for work, `1` for a handler without a mutex, and above that the rank of the
last mutex. -/
def Ranked (rank : L → Nat) (need : P → Nat) : Nat → Code L P C → Prop
  | _, .skip => True
  | b, .seq c d => Ranked rank need b c ∧ Ranked rank need b d
  | b, .any f => ∀ n, Ranked rank need b (f n)
  | b, .locked m c => b < rank m ∧ Ranked rank need (rank m) c
  | b, .await m c => b = 0 ∧ b < rank m ∧ Ranked rank need (rank m) c
  | b, .invoke p => b ≤ need p
  | _, .fork c => Ranked rank need 0 c
  | _, .post _ c => Ranked rank need 1 c
  | b, .serve _ => b = 0
  | _, .halt _ => True

/-- Ranks under which each function takes its mutexes in ascending order, if called with
mutexes up to `need`. -/
structure Discipline (body : P → Code L P C) where
  rank : L → Nat
  need : P → Nat
  ranked : ∀ p, Ranked rank need (need p) (body p)

theorem Ranked.mono {rank : L → Nat} {need : P → Nat} {b b' : Nat} {c : Code L P C}
    (ranked : Ranked rank need b c) (less : b' ≤ b) : Ranked rank need b' c := by
  induction c generalizing b b' with
  | skip => trivial
  | seq c d first second => exact ⟨first ranked.1 less, second ranked.2 less⟩
  | any f each => exact fun n => each n (ranked n) less
  | locked m c _ => exact ⟨Nat.lt_of_le_of_lt less ranked.1, ranked.2⟩
  | await m c _ =>
      exact ⟨Nat.le_zero.mp (ranked.1 ▸ less), Nat.lt_of_le_of_lt less ranked.2.1, ranked.2.2⟩
  | invoke p => exact Nat.le_trans less ranked
  | fork c _ => exact ranked
  | post c d _ => exact ranked
  | serve c => exact Nat.le_zero.mp (ranked ▸ less)
  | halt c => trivial

variable {body : P → Code L P C}

/-- The rank up to which a stack holds mutexes. -/
def level (rank : L → Nat) : List (Item L P C) → Nat
  | [] => 0
  | .run _ :: k => level rank k
  | .release m :: _ => rank m
  | .working _ :: _ => 1

namespace Discipline
variable (D : Discipline body)

/-- The rest of a stack keeps to the discipline. -/
def Ordered : List (Item L P C) → Prop
  | [] => True
  | .run c :: k => Ranked D.rank D.need (level D.rank k) c ∧ Ordered k
  | .release m :: k => level D.rank k < D.rank m ∧ Ordered k
  | .working _ :: k => level D.rank k = 0 ∧ Ordered k

structure Kept (st : State L P C) : Prop where
  threads : ∀ t ∈ st.threads, D.Ordered t.stack
  posted : ∀ w ∈ st.posted, Ranked D.rank D.need 1 w.2

variable {D}

/-- A thread that has arrived at a mutex holds those of smaller ranks only. -/
theorem Ordered.wants_above {t : Thread L P C} (ordered : D.Ordered t.stack) {m : L}
    (wants : t.wants = some m) : level D.rank t.stack < D.rank m := by
  obtain ⟨stack⟩ := t
  cases stack with
  | nil => cases wants
  | cons item k =>
      cases item with
      | release m' | working c => cases wants
      | run c =>
          cases c with
          | locked m' c =>
              cases wants
              exact ordered.1.1
          | await m' c =>
              cases wants
              exact ordered.1.2.1
          | _ => cases wants

/-- A thread that waits for a condition or for work is in no handler and holds no mutex. -/
theorem Ordered.rests_free {t : Thread L P C} (ordered : D.Ordered t.stack)
    (rests : t.rests = true) : level D.rank t.stack = 0 := by
  obtain ⟨stack⟩ := t
  cases stack with
  | nil => cases rests
  | cons item k =>
      cases item with
      | release m' | working c => cases rests
      | run c =>
          cases c with
          | await m' c => exact ordered.1.1
          | serve c => exact ordered.1
          | _ => cases rests

theorem next_ordered {t : Thread L P C} {held : L → Bool} {stopped last : C → Bool} {n : Nat}
    {o : Outcome L P C} (ordered : D.Ordered t.stack)
    (ran : t.next body held stopped last n = some o) :
    D.Ordered o.stack ∧ (∀ t' ∈ o.threads, D.Ordered t'.stack) ∧
      ∀ w ∈ o.posted, Ranked D.rank D.need 1 w.2 := by
  have quiet : ∀ k h, D.Ordered k → o = { stack := k, halts := h } →
      D.Ordered o.stack ∧ (∀ t' ∈ o.threads, D.Ordered t'.stack) ∧
        ∀ w ∈ o.posted, Ranked D.rank D.need 1 w.2 := by
    rintro k h left rfl
    exact ⟨left, fun _ member => (nomatch member), fun _ member => (nomatch member)⟩
  obtain ⟨stack⟩ := t
  cases stack with
  | nil => cases ran
  | cons item k =>
      cases item with
      | release m =>
          cases ran
          exact quiet k none ordered.2 rfl
      | working c =>
          cases ran
          exact quiet (.run (.serve c) :: k) _ ordered rfl
      | run c =>
          obtain ⟨ranked, ordered⟩ := ordered
          cases c with
          | skip =>
              cases ran
              exact quiet k none ordered rfl
          | seq a b =>
              cases ran
              exact quiet (.run a :: .run b :: k) none ⟨ranked.1, ranked.2, ordered⟩ rfl
          | any f =>
              cases ran
              exact quiet (.run (f n) :: k) none ⟨ranked n, ordered⟩ rfl
          | locked m b =>
              simp only [Thread.next] at ran
              split_ifs at ran
              exact quiet (.run b :: .release m :: k) none ⟨ranked.2, ranked.1, ordered⟩
                (Option.some.inj ran).symm
          | await m b =>
              simp only [Thread.next] at ran
              split_ifs at ran
              exact quiet (.run b :: .release m :: k) none ⟨ranked.2.2, ranked.2.1, ordered⟩
                (Option.some.inj ran).symm
          | invoke p =>
              cases ran
              exact quiet (.run (body p) :: k) none ⟨(D.ranked p).mono ranked, ordered⟩ rfl
          | fork b =>
              cases ran
              refine ⟨ordered, ?_, fun _ member => (nomatch member)⟩
              intro t' member
              rw [List.mem_singleton.mp member]
              exact ⟨ranked, trivial⟩
          | post c b =>
              cases ran
              refine ⟨ordered, fun _ member => (nomatch member), ?_⟩
              intro w member
              rw [List.mem_singleton.mp member]
              exact ranked
          | serve c =>
              simp only [Thread.next] at ran
              split_ifs at ran
              exact quiet k (some c) ordered (Option.some.inj ran).symm
          | halt c =>
              cases ran
              exact quiet k (some c) ordered rfl

variable [DecidableEq L] [DecidableEq C]

omit [DecidableEq C] in
theorem Ordered.holds_le {k : List (Item L P C)} (ordered : D.Ordered k) {m : L}
    (holds : k.any (Item.holds m) = true) : 0 < D.rank m ∧ D.rank m ≤ level D.rank k := by
  induction k with
  | nil => cases holds
  | cons item k ih =>
      rw [List.any_cons, Bool.or_eq_true] at holds
      cases item with
      | run c => exact ih ordered.2 (holds.resolve_left (by simp [Item.holds]))
      | working c =>
          -- a handler starts without a mutex
          obtain ⟨least, most⟩ := ih ordered.2 (holds.resolve_left (by simp [Item.holds]))
          rw [ordered.1] at most
          exact absurd most (Nat.not_le_of_lt least)
      | release m' =>
          rcases holds with here | below
          · rw [of_decide_eq_true here]
            exact ⟨Nat.lt_of_le_of_lt (Nat.zero_le _) ordered.1, Nat.le_refl _⟩
          · obtain ⟨least, most⟩ := ih ordered.2 below
            exact ⟨least, Nat.le_of_lt (Nat.lt_of_le_of_lt most ordered.1)⟩

omit [DecidableEq L] in
theorem Ordered.busy_level {k : List (Item L P C)} (ordered : D.Ordered k) {c : C}
    (busy : k.any (Item.works c) = true) : 0 < level D.rank k := by
  induction k with
  | nil => cases busy
  | cons item k ih =>
      rw [List.any_cons, Bool.or_eq_true] at busy
      cases item with
      | run _ => exact ih ordered.2 (busy.resolve_left (by simp [Item.works]))
      | working _ => exact Nat.one_pos
      | release _ => exact Nat.lt_of_le_of_lt (Nat.zero_le _) ordered.1

omit [DecidableEq L] in
theorem take_ordered {t t' : Thread L P C} {w : C × Code L P C} (ordered : D.Ordered t.stack)
    (ranked : Ranked D.rank D.need 1 w.2) (taken : t.take w = some t') : D.Ordered t'.stack := by
  unfold Thread.take at taken
  split at taken
  · rename_i c k stack
    split_ifs at taken
    cases taken
    rw [stack] at ordered
    exact ⟨ranked, ordered⟩
  · cases taken

theorem Kept.next {st st' : State L P C} {a : Action} (kept : D.Kept st)
    (moved : st.next body a = some st') : D.Kept st' := by
  cases a with
  | run i n =>
      obtain ⟨t, at_i, moved⟩ := Option.bind_eq_some_iff.mp moved
      obtain ⟨o, ran, rfl⟩ := Option.map_eq_some_iff.mp moved
      obtain ⟨stack, threads, posted⟩ := next_ordered (kept.threads t (List.mem_of_getElem? at_i)) ran
      refine ⟨fun t' member => ?_, fun w member => ?_⟩
      · rcases List.mem_append.mp member with old | new
        · rcases List.mem_or_eq_of_mem_set old with old | rfl
          · exact kept.threads t' old
          · exact stack
        · exact threads t' new
      · exact (List.mem_append.mp member).elim (kept.posted w) (posted w)
  | finish i =>
      obtain ⟨t, at_i, moved⟩ := Option.bind_eq_some_iff.mp moved
      split_ifs at moved
      cases moved
      exact ⟨fun t' member => kept.threads t' (List.mem_of_mem_eraseIdx member), kept.posted⟩
  | take i j =>
      obtain ⟨t, at_i, moved⟩ := Option.bind_eq_some_iff.mp moved
      obtain ⟨w, at_j, moved⟩ := Option.bind_eq_some_iff.mp moved
      split_ifs at moved
      obtain ⟨u, taken, rfl⟩ := Option.map_eq_some_iff.mp moved
      refine ⟨fun t' member => ?_, fun w' member => kept.posted w' (List.mem_of_mem_eraseIdx member)⟩
      rcases List.mem_or_eq_of_mem_set member with old | rfl
      · exact kept.threads t' old
      · exact take_ordered (kept.threads t (List.mem_of_getElem? at_i))
          (kept.posted w (List.mem_of_getElem? at_j)) taken

theorem reachable_kept {st st' : State L P C} (kept : D.Kept st)
    (run : Reachable (program body) anyStep st st') : D.Kept st' :=
  run.invariant kept fun _ _ _ _ before _ moved => before.next moved

end Discipline

variable [DecidableEq L]

/-- Thread `i` stands at a mutex that thread `j` holds. -/
def WaitsFor (st : State L P C) (i j : Nat) : Prop :=
  ∃ t ∈ st.threads[i]?, ∃ m ∈ t.wants, ∃ t' ∈ st.threads[j]?, t'.holds m = true

variable [DecidableEq C]

/-- A step of thread `i` is enabled, whatever decides its branches, or it has ended. -/
def Enabled (body : P → Code L P C) (st : State L P C) (i : Nat) : Prop :=
  (∀ n, (st.next body (.run i n)).isSome = true) ∨ (st.next body (.finish i)).isSome = true

/-- No mutex is in the way for ever. -/
structure Live (body : P → Code L P C) (st : State L P C) : Prop where
  /-- Nobody waits for a condition or for work with a mutex in hand or within a handler. -/
  rests : ∀ t ∈ st.threads, t.rests = true → (∀ c, t.busy c = false) ∧ ∀ m, t.holds m = false
  acyclic : ∀ i, ¬ TransGen (WaitsFor st) i i
  /-- Whom a thread waits for waits in the end for one that no mutex stops. -/
  ends : ∀ i, ∀ t ∈ st.threads[i]?, t.idles = none →
    ∃ j, ReflTransGen (WaitsFor st) i j ∧ Enabled body st j

namespace Discipline
variable {D : Discipline body} {st : State L P C}

omit [DecidableEq C] in
theorem Kept.waits_level (kept : D.Kept st) {i j : Nat} (waits : WaitsFor st i j) :
    ∃ t ∈ st.threads[i]?, ∃ t' ∈ st.threads[j]?,
      level D.rank t.stack < level D.rank t'.stack := by
  obtain ⟨t, at_i, m, wants, t', at_j, holds⟩ := waits
  refine ⟨t, at_i, t', at_j, ?_⟩
  have above := (kept.threads t (List.mem_of_getElem? at_i)).wants_above wants
  have below := ((kept.threads t' (List.mem_of_getElem? at_j)).holds_le holds).2
  exact Nat.lt_of_lt_of_le above below

omit [DecidableEq C] in
/-- Along a chain of waits the levels rise. -/
theorem Kept.chain_level (kept : D.Kept st) {i j : Nat} (chain : TransGen (WaitsFor st) i j) :
    ∃ t ∈ st.threads[i]?, ∃ t' ∈ st.threads[j]?,
      level D.rank t.stack < level D.rank t'.stack := by
  induction chain with
  | single waits => exact kept.waits_level waits
  | tail _ waits ih =>
      obtain ⟨t, at_i, u, at_j, rises⟩ := ih
      obtain ⟨u', at_j', t', at_k, more⟩ := kept.waits_level waits
      cases Option.some.inj (at_j.symm.trans at_j')
      exact ⟨t, at_i, t', at_k, Nat.lt_trans rises more⟩

omit [DecidableEq L] [DecidableEq C] in
theorem next_isSome {t : Thread L P C} {held : L → Bool} {stopped last : C → Bool}
    (unfinished : t.stack ≠ []) (working : t.idles = none) (free : ∀ m ∈ t.wants, held m = false)
    (n : Nat) : (t.next body held stopped last n).isSome = true := by
  obtain ⟨stack⟩ := t
  cases stack with
  | nil => exact absurd rfl unfinished
  | cons item k =>
      cases item with
      | release m | working c => rfl
      | run c =>
          cases c with
          | locked m c | await m c => simp [Thread.next, free m rfl]
          | serve c => cases working
          | _ => rfl

omit [DecidableEq C] in
theorem held_by {m : L} (held : st.held m = true) :
    ∃ j : Nat, ∃ t ∈ st.threads[j]?, t.holds m = true := by
  obtain ⟨t, member, holds⟩ := List.any_eq_true.mp held
  obtain ⟨j, at_j⟩ := List.mem_iff_getElem?.mp member
  exact ⟨j, t, at_j, holds⟩

theorem enabled_or_waits (body : P → Code L P C) {i : Nat} {t : Thread L P C}
    (at_i : st.threads[i]? = some t) (working : t.idles = none) :
    Enabled body st i ∨ ∃ j, WaitsFor st i j := by
  by_cases ended : t.stack = []
  · exact .inl (.inr (by simp [State.next, at_i, ended]))
  by_cases blocked : ∃ m ∈ t.wants, st.held m = true
  · obtain ⟨m, wants, held⟩ := blocked
    obtain ⟨j, t', at_j, holds⟩ := held_by held
    exact .inr ⟨j, t, at_i, m, wants, t', at_j, holds⟩
  · refine .inl (.inl fun n => ?_)
    have free : ∀ m ∈ t.wants, st.held m = false := fun m wants =>
      Bool.eq_false_iff.mpr fun held => blocked ⟨m, wants, held⟩
    have goes : (t.next body (fun m => st.held m) st.stopped (st.lastOf i) n).isSome = true :=
      next_isSome ended working free n
    simp [State.next, at_i, goes]

omit [DecidableEq L] [DecidableEq C] in
/-- Whoever holds a mutex does not wait for work. -/
theorem Ordered.working {t : Thread L P C} (ordered : D.Ordered t.stack)
    (holding : 0 < level D.rank t.stack) : t.idles = none := by
  obtain ⟨stack⟩ := t
  cases stack with
  | nil => rfl
  | cons item k =>
      cases item with
      | release m | working c => rfl
      | run c =>
          cases c with
          | serve c => exact absurd ordered.1 (Nat.ne_of_gt holding)
          | _ => rfl

theorem Kept.chain_ends (kept : D.Kept st) {i : Nat} {t : Thread L P C}
    (at_i : st.threads[i]? = some t) (working : t.idles = none) :
    ∃ j, ReflTransGen (WaitsFor st) i j ∧ Enabled body st j := by
  obtain ⟨most, bound⟩ : ∃ most, ∀ t ∈ st.threads, level D.rank t.stack ≤ most :=
    ⟨_, fun t member => List.le_max?_getD_of_mem (k := 0)
      (List.mem_map_of_mem (f := fun t => level D.rank t.stack) member)⟩
  induction gap : most - level D.rank t.stack using Nat.strongRecOn generalizing i t with
  | _ gap ih =>
      rcases enabled_or_waits body at_i working with enabled | ⟨j, waits⟩
      · exact ⟨i, .refl, enabled⟩
      obtain ⟨t₀, at_i', t', at_j, rises⟩ := kept.waits_level waits
      cases Option.some.inj (at_i.symm.trans at_i')
      have fits := bound t' (List.mem_of_getElem? at_j)
      have working' := (kept.threads t' (List.mem_of_getElem? at_j)).working
        (Nat.lt_of_le_of_lt (Nat.zero_le _) rises)
      obtain ⟨k, chain, enabled⟩ := ih _ (by omega) at_j working' rfl
      exact ⟨k, .head waits chain, enabled⟩

omit [DecidableEq C] in
/-- Whoever calls a function holds no mutex above what the function allows. -/
theorem Kept.invokes_within (kept : D.Kept st) {t : Thread L P C} (member : t ∈ st.threads) {p : P}
    (invokes : t.invokes = some p) {m : L} (holds : t.holds m = true) : D.rank m ≤ D.need p := by
  have ordered := kept.threads t member
  have below := (ordered.holds_le holds).2
  obtain ⟨stack⟩ := t
  cases stack with
  | nil => cases invokes
  | cons item k =>
      cases item with
      | release m' | working c => cases invokes
      | run c =>
          cases c with
          | invoke q =>
              cases invokes
              exact Nat.le_trans below ordered.1
          | _ => cases invokes

theorem Kept.live (kept : D.Kept st) : Live body st where
  rests t member rests := by
    have ordered := kept.threads t member
    have zero := ordered.rests_free rests
    refine ⟨fun c => Bool.eq_false_iff.mpr fun busy => ?_, fun m => Bool.eq_false_iff.mpr fun holds => ?_⟩
    · exact absurd zero (Nat.ne_of_gt (ordered.busy_level busy))
    · obtain ⟨least, most⟩ := ordered.holds_le holds
      omega
  acyclic i chain := by
    obtain ⟨t, at_i, t', at_i', rises⟩ := kept.chain_level chain
    cases Option.some.inj (at_i.symm.trans at_i')
    exact Nat.lt_irrefl _ rises
  ends _ _ at_i working := kept.chain_ends at_i working

end Discipline

/-- A context is stopped, or it has a worker. -/
def State.Served (c : C) (st : State L P C) : Prop :=
  st.stopped c = true ∨ ∃ t ∈ st.threads, t.Serves c

omit [DecidableEq L] in
/-- A worker stays one until its context is stopped. -/
theorem next_serves {body : P → Code L P C} {t : Thread L P C} {held : L → Bool}
    {stopped last : C → Bool} {n : Nat} {o : Outcome L P C} {c : C}
    (ran : t.next body held stopped last n = some o) (serves : t.Serves c) :
    o.halts = some c ∨ Thread.Serves c ⟨o.stack⟩ := by
  obtain ⟨stack⟩ := t
  cases stack with
  | nil => cases ran
  | cons item k =>
      -- a handler below the first item stays where it is
      have below : ∀ k', (∀ item ∈ k, item ∈ k') → k.any (Item.works c) = true →
          Thread.Serves c ⟨k'⟩ := by
        intro k' more some
        obtain ⟨item, member, works⟩ := List.any_eq_true.mp some
        exact .inr (List.any_eq_true.mpr ⟨item, more item member, works⟩)
      cases item with
      | release m =>
          cases ran
          rcases serves with idle | busy
          · cases idle
          · exact .inr (below k (fun _ h => h) busy)
      | working c' =>
          cases ran
          rcases serves with idle | busy
          · cases idle
          rw [Thread.busy, List.any_cons, Bool.or_eq_true] at busy
          rcases busy with here | deeper
          · rw [of_decide_eq_true here]
            exact .inr (.inl rfl)
          · exact .inr (below _ (fun _ h => List.mem_cons_of_mem _ h) deeper)
      | run d =>
          cases d with
          | serve c' =>
              simp only [Thread.next] at ran
              split_ifs at ran
              cases ran
              rcases serves with idle | busy
              · exact .inl idle
              · exact .inr (below k (fun _ h => h) busy)
          | locked m b | await m b =>
              simp only [Thread.next] at ran
              split_ifs at ran
              cases ran
              rcases serves with idle | busy
              · cases idle
              · exact .inr (below _ (fun _ h => by simp [h]) busy)
          | _ =>
              cases ran
              rcases serves with idle | busy
              · cases idle
              · exact .inr (below _ (fun _ h => by simp [h]) busy)

omit [DecidableEq L] in
theorem take_serves {t t' : Thread L P C} {w : C × Code L P C} {c : C} (taken : t.take w = some t')
    (serves : t.Serves c) : t'.Serves c := by
  obtain ⟨stack⟩ := t
  unfold Thread.take at taken
  split at taken
  · rename_i c' k same
    cases same
    split_ifs at taken
    cases taken
    right
    rcases serves with idle | busy
    · cases idle
      simp [Thread.busy, Item.works]
    · have deeper : k.any (Item.works c) = true := busy
      simp [Thread.busy, Item.works, deeper]
  · cases taken

theorem exists_mem_set {α : Type} {p : α → Prop} {l : List α} {i : Nat} {a b : α}
    (at_i : l[i]? = some a) (keep : p a → p b) (found : ∃ x ∈ l, p x) : ∃ x ∈ l.set i b, p x := by
  obtain ⟨x, member, holds⟩ := found
  obtain ⟨j, at_j⟩ := List.mem_iff_getElem?.mp member
  by_cases same : j = i
  · subst same
    cases at_i.symm.trans at_j
    exact ⟨b, List.mem_set (List.getElem?_eq_some_iff.mp at_i).1 b, keep holds⟩
  · refine ⟨x, List.mem_of_getElem? (i := j) ?_, holds⟩
    rw [List.getElem?_set_ne (Ne.symm same)]
    exact at_j

theorem next_served {body : P → Code L P C} {st st' : State L P C} {a : Action} {c : C}
    (served : st.Served c) (moved : st.next body a = some st') : st'.Served c := by
  cases a with
  | run i n =>
      obtain ⟨t, at_i, moved⟩ := Option.bind_eq_some_iff.mp moved
      obtain ⟨o, ran, rfl⟩ := Option.map_eq_some_iff.mp moved
      rcases served with stopped | found
      · exact .inl (by simp [stopped])
      by_cases halted : o.halts = some c
      · exact .inl (by simp [halted])
      obtain ⟨t', member, serves⟩ := exists_mem_set (b := ⟨o.stack⟩) at_i
        (fun serves => (next_serves ran serves).resolve_left halted) found
      exact .inr ⟨t', List.mem_append_left _ member, serves⟩
  | finish i =>
      obtain ⟨t, at_i, moved⟩ := Option.bind_eq_some_iff.mp moved
      split_ifs at moved with ended
      cases moved
      rcases served with stopped | ⟨t', member, serves⟩
      · exact .inl stopped
      obtain ⟨inside, rfl⟩ := List.getElem?_eq_some_iff.mp at_i
      rcases List.mem_cons.mp ((List.getElem_cons_eraseIdx_perm inside).mem_iff.mpr member) with
        rfl | kept
      · rw [List.isEmpty_iff] at ended
        simp [Thread.Serves, Thread.idles, Thread.busy, ended] at serves
      · exact .inr ⟨t', kept, serves⟩
  | take i j =>
      obtain ⟨t, at_i, moved⟩ := Option.bind_eq_some_iff.mp moved
      obtain ⟨w, at_j, moved⟩ := Option.bind_eq_some_iff.mp moved
      split_ifs at moved
      obtain ⟨t', taken, rfl⟩ := Option.map_eq_some_iff.mp moved
      exact served.imp id (exists_mem_set at_i (take_serves taken))

theorem reachable_served {body : P → Code L P C} {st st' : State L P C} {c : C}
    (served : st.Served c) (run : Reachable (program body) anyStep st st') : st'.Served c :=
  run.invariant served fun _ _ _ _ before _ moved => next_served before moved

/-- Code posted to a context that has a worker and is not stopped: a worker can take it up, or
is in a handler. -/
theorem State.Served.taken_up (body : P → Code L P C) {st : State L P C} {j : Nat}
    {w : C × Code L P C} (served : st.Served w.1) (running : st.stopped w.1 = false)
    (posted : st.posted[j]? = some w) : (∃ i, (st.next body (.take i j)).isSome = true) ∨
      ∃ t ∈ st.threads, t.busy w.1 = true := by
  rcases served with stopped | ⟨t, member, idle | busy⟩
  · rw [running] at stopped
    cases stopped
  · obtain ⟨i, at_i⟩ := List.mem_iff_getElem?.mp member
    refine .inl ⟨i, ?_⟩
    have taken : (t.take w).isSome = true := by
      obtain ⟨stack⟩ := t
      unfold Thread.idles at idle
      split at idle
      · rename_i c k same
        cases same
        simp [Thread.take, Option.some.inj idle]
      · cases idle
    simp [State.next, at_i, posted, running, taken]
  · exact .inr ⟨t, member, busy⟩

omit [DecidableEq L] [DecidableEq C] in
/-- A step stops a context because it is told to, or because there is nothing left to do. -/
theorem next_halts {body : P → Code L P C} {t : Thread L P C} {held : L → Bool}
    {stopped last : C → Bool} {n : Nat} {o : Outcome L P C} {c : C}
    (ran : t.next body held stopped last n = some o) (halted : o.halts = some c) :
    t.stops = some c ∨ (stopped c || last c) = true := by
  obtain ⟨stack⟩ := t
  cases stack with
  | nil => cases ran
  | cons item k =>
      cases item with
      | release m =>
          cases ran
          cases halted
      | working c' =>
          cases ran
          dsimp only at halted
          split_ifs at halted with idle
          cases halted
          exact .inr (by rw [idle, Bool.or_true])
      | run d =>
          cases d with
          | halt c' =>
              cases ran
              exact .inl halted
          | serve c' =>
              simp only [Thread.next] at ran
              split_ifs at ran with out
              cases ran
              cases halted
              exact .inr out
          | locked m b | await m b =>
              simp only [Thread.next] at ran
              split_ifs at ran
              cases ran
              cases halted
          | _ =>
              cases ran
              cases halted

/-- A context that has code posted to it stops when it is told to. -/
theorem stops_asked {body : P → Code L P C} {st st' : State L P C} {a : Action} {w : C × Code L P C}
    (posted : w ∈ st.posted) (running : st.stopped w.1 = false) (moved : st.next body a = some st')
    (stopped : st'.stopped w.1 = true) : ∃ t ∈ st.threads, t.stops = some w.1 := by
  have outstanding : ∀ i, st.lastOf i w.1 = false := by
    intro i
    rw [State.lastOf, Bool.and_eq_false_iff, List.all_eq_false]
    exact .inl ⟨w, posted, by simp⟩
  cases a with
  | run i n =>
      obtain ⟨t, at_i, moved⟩ := Option.bind_eq_some_iff.mp moved
      obtain ⟨o, ran, rfl⟩ := Option.map_eq_some_iff.mp moved
      have halted : o.halts = some w.1 := by simpa [running] using stopped
      refine ⟨t, List.mem_of_getElem? at_i, (next_halts ran halted).resolve_right ?_⟩
      simp [running, outstanding i]
  | finish i =>
      obtain ⟨t, at_i, moved⟩ := Option.bind_eq_some_iff.mp moved
      split_ifs at moved
      cases moved
      rw [running] at stopped
      cases stopped
  | take i j =>
      obtain ⟨t, at_i, moved⟩ := Option.bind_eq_some_iff.mp moved
      obtain ⟨w', at_j, moved⟩ := Option.bind_eq_some_iff.mp moved
      split_ifs at moved
      obtain ⟨u, taken, rfl⟩ := Option.map_eq_some_iff.mp moved
      rw [running] at stopped
      cases stopped

end Locks
