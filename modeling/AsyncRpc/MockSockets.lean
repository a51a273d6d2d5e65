import AsyncRpc.Medium
import AsyncRpc.Restart

/-! The sockets of the tests: one buffer per socket, and acceptors that hand out the
last socket that connected to their address. -/
namespace AsyncRpc
open Interleaving Transition

/-- An instance has an address, and sockets are numbered as its acceptor makes them; the
last one is in `kSocks`. The sender of a request is kept beside it. -/
structure Mock (S : Services) (κ ι : Type) where
  sockets : ι → Nat := fun _ => 0
  accepting : ι → Bool := fun _ => false
  kConnections : ι → Option κ := fun _ => none
  target : κ → Option (ι × Nat) := fun _ => none
  targetOf : ι × Nat → Option κ := fun _ => none
  requests : List ((ι × Nat) × κ × S.Buf) := []
  replies : List (κ × S.Buf) := []

/-- `MockAcceptor::Accept` and `MockSocket::Connect`. A lossy `Send` that drops its packet
is one that completes and is not transmitted. -/
inductive MockChance (κ ι : Type) where
  | idle
  | accept (v : ι)
  | connect (k : κ) (v : ι)

namespace Mock

variable {S : Services} {κ ι : Type} [DecidableEq κ] [DecidableEq ι]

def connect (st : Mock S κ ι) (k : κ) (v : ι) : Option (Mock S κ ι) :=
  match st.sockets v with
  | 0 => none
  | n + 1 => some { st with
      target := Function.update st.target k (some (v, n))
      kConnections := Function.update st.kConnections v (some k) }

/-- The next socket of the acceptor, which takes the place of the last one. -/
def startAccept (st : Mock S κ ι) (v : ι) : Option (Mock S κ ι) :=
  if st.accepting v then none
  else some { st with
    sockets := Function.update st.sockets v (st.sockets v + 1)
    accepting := Function.update st.accepting v true }

def finishAccept (st : Mock S κ ι) (v : ι) (s : κ × Nat) : Option (Mock S κ ι) :=
  if st.accepting v ∧ st.sockets v = s.2 + 1 ∧ st.kConnections v = some s.1 then
    some { st with
      accepting := Function.update st.accepting v false
      kConnections := Function.update st.kConnections v none
      targetOf := Function.update st.targetOf (v, s.2) (some s.1) }
  else none

def medium (S : Services) : Medium S κ ι (Mock S κ ι) (MockChance κ ι) where
  sendRequest st k buf _ :=
    (st.target k).map fun a => { st with requests := st.requests ++ [(a, k, buf)] }
  sendReply st v s buf _ :=
    if st.targetOf (v, s.2) = some s.1 then
      some { st with replies := st.replies ++ [(s.1, buf)] }
    else none
  takeRequest st v s _ :=
    if st.targetOf (v, s.2) = some s.1 then
      (st.requests.find? fun e => e.1 = (v, s.2)).map fun e =>
        (e.2.2, { st with requests := st.requests.eraseP fun e => e.1 = (v, s.2) })
    else none
  takeReply st k _ :=
    (st.replies.find? fun e => e.1 = k).map fun e =>
      (e.2, { st with replies := st.replies.eraseP fun e => e.1 = k })
  accept := finishAccept
  turn st
    | .idle => none
    | .accept v => st.startAccept v
    | .connect k v => st.connect k v

/-- A client connects once, and while the acceptor waits for it. -/
def apart : Medium.Terms S κ ι (Mock S κ ι) (MockChance κ ι) where
  send _ _ := True
  takeRequest _ _ _ _ := True
  takeReply _ _ _ := True
  turn st
    | .connect k v => st.accepting v = true ∧ st.kConnections v = none ∧ st.target k = none
    | _ => True

/-- A client and the socket that it sends to. -/
structure Paired (st : Mock S κ ι) : Prop where
  waiting : ∀ v k, st.kConnections v = some k →
    ∃ n, st.accepting v = true ∧ st.sockets v = n + 1 ∧ st.target k = some (v, n)
  targetOf : ∀ v n k, st.targetOf (v, n) = some k → st.target k = some (v, n) ∧ n < st.sockets v
  fresh : ∀ v n, st.accepting v = true → st.sockets v = n + 1 → st.targetOf (v, n) = none
  target : ∀ k v n, st.target k = some (v, n) → st.targetOf (v, n) = some k ∨
    st.accepting v = true ∧ st.sockets v = n + 1 ∧ st.kConnections v = some k
  requests : ∀ e ∈ st.requests, st.target e.2.1 = some e.1

variable {st st' : Mock S κ ι}

omit [DecidableEq κ] [DecidableEq ι] in
theorem Paired.sender (paired : st.Paired) {v : ι} {n : Nat} {k k' : κ}
    (accepted : st.targetOf (v, n) = some k) (sends : st.target k' = some (v, n)) : k' = k := by
  rcases paired.target k' v n sends with back | ⟨accepting, last, -⟩
  · exact Option.some.inj (back.symm.trans accepted)
  · cases (paired.fresh v n accepting last).symm.trans accepted

omit [DecidableEq κ] in
theorem Paired.startAccept (paired : st.Paired) {v : ι} (started : st.startAccept v = some st') :
    st'.Paired := by
  rw [Mock.startAccept] at started
  split_ifs at started with idle
  cases started
  have nobody : st.kConnections v = none := by
    by_contra some
    obtain ⟨k, here⟩ := Option.ne_none_iff_exists'.mp some
    obtain ⟨n, accepting, -⟩ := paired.waiting v k here
    exact idle accepting
  constructor
  · intro v' k here
    obtain ⟨n, rest⟩ := paired.waiting v' k here
    have other : v' ≠ v := by
      rintro rfl
      cases nobody.symm.trans here
    exact ⟨n, by simpa [other] using rest⟩
  · intro v' n k here
    obtain ⟨target, low⟩ := paired.targetOf v' n k here
    refine ⟨target, ?_⟩
    by_cases same : v' = v
    · subst same
      simpa using Nat.lt_succ_of_lt low
    · simpa [same] using low
  · intro v' n accepting last
    by_cases same : v' = v
    · subst same
      by_contra some
      obtain ⟨k, here⟩ := Option.ne_none_iff_exists'.mp some
      have low := (paired.targetOf v' n k here).2
      simp at last
      omega
    · exact paired.fresh v' n (by simpa [same] using accepting) (by simpa [same] using last)
  · intro k v' n here
    rcases paired.target k v' n here with back | ⟨accepting, last, connected⟩
    · exact .inl back
    · have other : v' ≠ v := by
        rintro rfl
        cases nobody.symm.trans connected
      exact .inr (by simpa [other] using ⟨accepting, last, connected⟩)
  · exact paired.requests

theorem Paired.finishAccept (paired : st.Paired) {v : ι} {s : κ × Nat}
    (finished : st.finishAccept v s = some st') : st'.Paired := by
  rw [Mock.finishAccept] at finished
  split_ifs at finished with ready
  cases finished
  obtain ⟨accepting, last, connected⟩ := ready
  obtain ⟨n, -, last', target⟩ := paired.waiting v s.1 connected
  obtain rfl : n = s.2 := by omega
  constructor
  · intro v' k here
    have other : v' ≠ v := by
      rintro rfl
      simp at here
    simp only [Function.update_of_ne other] at here ⊢
    exact paired.waiting v' k here
  · intro v' n k here
    simp only [Function.update_apply] at here
    split_ifs at here with same
    · cases same
      cases here
      exact ⟨target, by simp only [last]; omega⟩
    · exact paired.targetOf v' n k here
  · intro v' n accepting' last'
    have other : v' ≠ v := by
      rintro rfl
      simp at accepting'
    have apart : (v', n) ≠ (v, s.2) := fun same => other (Prod.mk.inj same).1
    simp only [Function.update_of_ne other, Function.update_of_ne apart] at accepting' ⊢
    exact paired.fresh v' n accepting' last'
  · intro k v' n here
    by_cases same : (v', n) = (v, s.2)
    · cases same
      refine .inl ?_
      simp only [Function.update_self]
      rcases paired.target k v s.2 here with back | ⟨-, -, connected'⟩
      · cases (paired.fresh v s.2 accepting last).symm.trans back
      · exact connected.symm.trans connected'
    · simp only [Function.update_of_ne same]
      rcases paired.target k v' n here with back | ⟨accepting', last', connected'⟩
      · exact .inl back
      · have other : v' ≠ v := by
          rintro rfl
          exact same (congrArg (v', ·) (by omega))
        exact .inr (by simpa [other] using ⟨accepting', last', connected'⟩)
  · exact paired.requests

theorem Paired.connect (paired : st.Paired) {k : κ} {v : ι} (accepting : st.accepting v = true)
    (nobody : st.kConnections v = none) (new : st.target k = none) (connected : st.connect k v = some st') :
    st'.Paired := by
  have other : ∀ {k' : κ} {a : ι × Nat}, st.target k' = some a → k' ≠ k := by
    rintro k' a here rfl
    cases new.symm.trans here
  rw [Mock.connect] at connected
  cases last : st.sockets v with
  | zero => rw [last] at connected; cases connected
  | succ n =>
      rw [last] at connected
      cases connected
      constructor
      · intro v' k' here
        by_cases same : v' = v
        · subst same
          simp only [Function.update_self] at here
          cases here
          exact ⟨n, accepting, last, Function.update_self k _ st.target⟩
        · simp only [Function.update_of_ne same] at here
          obtain ⟨n', accepting', last', target⟩ := paired.waiting v' k' here
          exact ⟨n', accepting', last', by simp only [Function.update_of_ne (other target), target]⟩
      · intro v' n' k' here
        obtain ⟨target, low⟩ := paired.targetOf v' n' k' here
        exact ⟨by simp only [Function.update_of_ne (other target), target], low⟩
      · exact paired.fresh
      · intro k' v' n' here
        simp only [Function.update_apply] at here
        split_ifs at here with same
        · cases here
          exact .inr ⟨accepting, last, by rw [same]; exact Function.update_self v _ st.kConnections⟩
        · rcases paired.target k' v' n' here with back | ⟨accepting', last', connected'⟩
          · exact .inl back
          · have apart : v' ≠ v := by
              rintro rfl
              cases nobody.symm.trans connected'
            exact .inr ⟨accepting', last', by simp only [Function.update_of_ne apart, connected']⟩
      · intro e member
        have sender := paired.requests e member
        simp only [Function.update_of_ne (other sender), sender]

/-- The buffers with the clients that they come from or go to. -/
def carries (S : Services) : (medium (κ := κ) (ι := ι) S).Carries apart where
  requests st := st.requests.map Prod.snd
  replies st := st.replies
  Inv := Paired
  sendRequest := by
    intro st st' k buf c paired _ sent
    obtain ⟨a, target, rfl⟩ := Option.map_eq_some_iff.mp sent
    refine ⟨⟨paired.waiting, paired.targetOf, paired.fresh, paired.target, ?_⟩, ?_, .refl _⟩
    · intro e member
      rcases List.mem_append.mp member with old | new
      · exact paired.requests e old
      · rw [List.mem_singleton.mp new]
        exact target
    · rw [List.map_append, List.map_singleton]
      exact (List.perm_append_singleton _ _).subperm
  sendReply := by
    intro st st' v s buf c paired _ sent
    simp only [medium] at sent
    split_ifs at sent
    cases sent
    exact ⟨⟨paired.waiting, paired.targetOf, paired.fresh, paired.target, paired.requests⟩, .refl _,
      (List.perm_append_singleton _ _).subperm⟩
  takeRequest := by
    intro st st' v s buf c paired _ took
    simp only [medium] at took
    split_ifs at took with accepted
    obtain ⟨⟨a, k, b⟩, found, same⟩ := Option.map_eq_some_iff.mp took
    cases same
    obtain rfl : a = (v, s.2) := by simpa using List.find?_some found
    obtain rfl : k = s.1 := paired.sender accepted (paired.requests _ (List.mem_of_find?_eq_some found))
    refine ⟨⟨paired.waiting, paired.targetOf, paired.fresh, paired.target, ?_⟩, ?_, .refl _⟩
    · exact fun e member => paired.requests e (List.mem_of_mem_eraseP member)
    · exact ((Medium.found_perm found).map Prod.snd).symm.subperm
  takeReply := by
    intro st st' k buf c paired _ took
    obtain ⟨⟨k', b⟩, found, same⟩ := Option.map_eq_some_iff.mp took
    cases same
    obtain rfl : k' = k := by simpa using List.find?_some found
    exact ⟨⟨paired.waiting, paired.targetOf, paired.fresh, paired.target, paired.requests⟩, .refl _,
      (Medium.found_perm found).symm.subperm⟩
  accept := by
    intro st st' v s paired accepted
    refine ⟨paired.finishAccept accepted, ?_⟩
    simp only [medium, Mock.finishAccept] at accepted
    split_ifs at accepted
    cases accepted
    exact ⟨.refl _, .refl _⟩
  turn := by
    intro st st' c paired fair turned
    cases c with
    | idle => cases turned
    | accept v =>
        refine ⟨paired.startAccept turned, ?_⟩
        simp only [medium, Mock.startAccept] at turned
        split_ifs at turned
        cases turned
        exact ⟨.refl _, .refl _⟩
    | connect k v =>
        refine ⟨paired.connect fair.1 fair.2.1 fair.2.2 turned, ?_⟩
        simp only [medium, Mock.connect] at turned
        split at turned
        · cases turned
        · cases turned
          exact ⟨.refl _, .refl _⟩

/-- The acceptor waits, a client connects and binds, and gets its reply. -/
def bound : List (PartyAction .sample Unit Bool (MockChance Unit Bool)) :=
  [.turn (.accept false), .turn (.connect () false), .accept false 0 ((), 0),
    .client () (.act 0 (.connected .ok)) .idle, .client () (.spawn .bind) .idle,
    .client () (.act 0 .go) .idle, .client () (.act 0 .go) .idle, .client () (.act 0 .transmit) .idle,
    .request false 0 ((), 0) .idle, .server false (.act 0 .go) .idle, .server false (.act 0 .go) .idle,
    .server false (.act 0 .go) .idle, .server false (.act 0 .go) .idle, .server false (.act 0 .go) .idle,
    .server false (.act 0 .go) .idle, .server false (.act 0 .transmit) .idle]

def crossedNonce (k : Bool) : UInt32 := if k then 6 else 5

/-- Two clients connect before the acceptor takes the first: what the instance answers to
the first goes to the second. -/
example : ((medium (κ := Bool) (ι := Unit) .sample).system.exec (fun _ _ => true)
    ⟨fun k => RpcClient.start .sample (crossedNonce k), fun _ => RpcServer.start .sample _ 77, {}⟩
    [.turn (.accept ()), .turn (.connect false ()), .turn (.connect true ()), .accept () 0 (true, 0),
      .client false (.act 0 (.connected .ok)) .idle, .client false (.spawn .bind) .idle,
      .client false (.act 0 .go) .idle, .client false (.act 0 .go) .idle,
      .client false (.act 0 .transmit) .idle, .request () 0 (true, 0) .idle,
      .server () (.act 0 .go) .idle, .server () (.act 0 .go) .idle, .server () (.act 0 .go) .idle,
      .server () (.act 0 .go) .idle, .server () (.act 0 .go) .idle, .server () (.act 0 .go) .idle,
      .server () (.act 0 .transmit) .idle]).map (fun st => st.medium.replies.map Prod.fst) =
    some [true] := by
  decide +kernel

end Mock
end AsyncRpc
