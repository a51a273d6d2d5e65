import AsyncRpc.Medium
import AsyncRpc.Restart

/-! `AsyncSocket`s and their acceptors over TCP, for clients that connect and connect
again. A connection keeps the order of the bytes and nothing of the borders between
the `Send`s they came from. -/
namespace AsyncRpc
open Interleaving Transition

/-- The characters of a message that travels as a `std::string`. -/
structure Strings (S : Services) (β : Type) where
  chars : S.Buf → Option (List β)
  ofChars : List β → S.Buf
  ofChars_chars : ∀ buf t, chars buf = some t → ofChars t = buf

/-- Connections are named by the instance and the socket at the server. What is under way
is listed in the order of sending, with its connection; the borders within the list are
those of the `Send`s, which a receive does not see. -/
structure Tcp (κ ι β : Type) where
  connection : κ → Option (ι × Nat) := fun _ => none
  opened : κ → Nat := fun _ => 0
  pending : List (ι × κ × Nat) := []
  up : List ((ι × κ × Nat) × List β) := []
  down : List ((ι × κ × Nat) × List β) := []

/-- How much a `Send` or a `Receive` takes, and what becomes of connections. -/
inductive TcpChance (κ ι : Type) where
  | length (n : Nat)
  | connect (k : κ) (v : ι)
  | reset (a : ι × κ × Nat)

namespace Tcp

variable {S : Services} {κ ι β : Type} [DecidableEq κ] [DecidableEq ι]

/-- Read `n` characters of connection `a`: what was read, and what is left under way. -/
def read {α : Type} [DecidableEq α] (a : α) : Nat → List (α × List β) → List β × List (α × List β)
  | 0, l => ([], l)
  | _ + 1, [] => ([], [])
  | n + 1, (b, t) :: l =>
      if b = a then
        if t.length ≤ n + 1 then
          let r := read a (n + 1 - t.length) l
          (t ++ r.1, r.2)
        else (t.take (n + 1), (b, t.drop (n + 1)) :: l)
      else
        let r := read a (n + 1) l
        (r.1, (b, t) :: r.2)

/-- `async_send` takes some of the buffer, and the rest is not sent again. -/
def accepted (T : Strings S β) (buf : S.Buf) : TcpChance κ ι → Option (List β)
  | .length n => (T.chars buf).bind fun t => if 0 < n ∧ n ≤ t.length then some (t.take n) else none
  | _ => none

/-- `async_read_some` returns some of what has come, and `OnReceiveFinished` cuts the
string to it. -/
def returned (T : Strings S β) (a : ι × κ × Nat) (l : List ((ι × κ × Nat) × List β)) :
    TcpChance κ ι → Option (S.Buf × List ((ι × κ × Nat) × List β))
  | .length n =>
      let r := read a n l
      if 0 < n ∧ n ≤ DEFAULT_RPC_SZ ∧ r.1.length = n then some (T.ofChars r.1, r.2) else none
  | _ => none

def medium (T : Strings S β) : Medium S κ ι (Tcp κ ι β) (TcpChance κ ι) where
  sendRequest st k buf c :=
    (st.connection k).bind fun a => (accepted T buf c).map fun t =>
      { st with up := st.up ++ [((a.1, k, a.2), t)] }
  sendReply st v s buf c :=
    (accepted T buf c).map fun t => { st with down := st.down ++ [((v, s), t)] }
  takeRequest st v s c := (returned T (v, s) st.up c).map fun r => (r.1, { st with up := r.2 })
  takeReply st k c :=
    (st.connection k).bind fun a => (returned T (a.1, k, a.2) st.down c).map fun r =>
      (r.1, { st with down := r.2 })
  accept st v s :=
    if (v, s) ∈ st.pending then some { st with pending := st.pending.erase (v, s) } else none
  turn st
    | .length _ => none
    | .connect k v => some { st with
        connection := Function.update st.connection k (some (v, st.opened k))
        opened := Function.update st.opened k (st.opened k + 1)
        pending := (v, k, st.opened k) :: st.pending }
    | .reset a => some { st with
        up := st.up.filter fun e => e.1 ≠ a
        down := st.down.filter fun e => e.1 ≠ a }

/-- The border of the first message under way on a connection. -/
def firstLength (a : ι × κ × Nat) (l : List ((ι × κ × Nat) × List β)) : Option Nat :=
  (l.find? fun e => e.1 = a).map fun e => e.2.length

theorem read_nothing {α : Type} [DecidableEq α] (a : α) (l : List (α × List β)) :
    read a 0 l = ([], l) := by
  cases l <;> rfl

/-- A receive that ends at the first border returns the first message. -/
theorem read_first {α : Type} [DecidableEq α] {a b : α} {t : List β} {l : List (α × List β)}
    (first : l.find? (fun e => e.1 = a) = some (b, t)) (some : 0 < t.length) :
    read a t.length l = (t, l.eraseP fun e => e.1 = a) := by
  obtain ⟨n, length⟩ := Nat.exists_eq_add_of_lt some
  rw [Nat.zero_add] at length
  induction l with
  | nil => cases first
  | cons e l ih =>
      obtain ⟨b', t'⟩ := e
      rw [length, read]
      by_cases here : b' = a
      · rw [List.find?_cons_of_pos (by simp [here])] at first
        cases first
        rw [if_pos here, if_pos (Nat.le_of_eq length), length, Nat.sub_self, read_nothing,
          List.eraseP_cons_of_pos (by simp [here])]
        simp only [List.append_nil]
      · rw [List.find?_cons_of_neg (by simp [here])] at first
        rw [if_neg here, ← length, ih first, List.eraseP_cons_of_neg (by simp [here])]

variable {T : Strings S β}

/-- The packets of connections at one end, with their client. -/
def packets (T : Strings S β) (l : List ((ι × κ × Nat) × List β)) : List (κ × S.Buf) :=
  l.map fun e => (e.1.2.1, T.ofChars e.2)

omit [DecidableEq κ] [DecidableEq ι] in
theorem accepted_whole {buf : S.Buf} {t t' : List β} (chars : T.chars buf = some t)
    (sent : accepted T buf (.length t.length : TcpChance κ ι) = some t') : t' = t := by
  obtain ⟨t, same, sent⟩ := Option.bind_eq_some_iff.mp sent
  cases Option.some.inj (chars.symm.trans same)
  split_ifs at sent
  cases sent
  exact List.take_length

omit [DecidableEq κ] [DecidableEq ι] in
theorem packets_sent {buf : S.Buf} {t : List β} (chars : T.chars buf = some t) (a : ι × κ × Nat)
    (l : List ((ι × κ × Nat) × List β)) :
    (packets T (l ++ [(a, t)])).Subperm ((a.2.1, buf) :: packets T l) := by
  rw [packets, List.map_append, List.map_singleton, T.ofChars_chars buf t chars]
  exact (List.perm_append_singleton _ _).subperm

/-- What a receive up to the first border returns and leaves. -/
theorem returned_first {a : ι × κ × Nat} {l l' : List ((ι × κ × Nat) × List β)} {buf : S.Buf}
    {n : Nat} (border : firstLength a l = some n)
    (took : returned T a l (.length n) = some (buf, l')) :
    ∃ t, l.find? (fun e => e.1 = a) = some (a, t) ∧ buf = T.ofChars t ∧
      l' = l.eraseP fun e => e.1 = a := by
  obtain ⟨⟨b, t⟩, first, rfl⟩ := Option.map_eq_some_iff.mp border
  simp only [returned] at took
  split_ifs at took with fits
  obtain ⟨rfl, rfl⟩ := Prod.mk.inj (Option.some.inj took)
  obtain rfl : b = a := by simpa using List.find?_some first
  rw [read_first first fits.1]
  exact ⟨t, first, rfl, rfl⟩

theorem packets_taken {a : ι × κ × Nat} {l l' : List ((ι × κ × Nat) × List β)} {buf : S.Buf} {n : Nat}
    (border : firstLength a l = some n) (took : returned T a l (.length n) = some (buf, l')) :
    ((a.2.1, buf) :: packets T l').Subperm (packets T l) := by
  obtain ⟨t, first, rfl, rfl⟩ := returned_first border took
  exact ((Medium.found_perm first).map fun e => (e.1.2.1, T.ofChars e.2)).symm.subperm

end Tcp
end AsyncRpc
