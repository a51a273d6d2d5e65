import AsyncRpc.Readback

/-! `Reset` and `TakeBuf` give an object a new document and leave its position alone, so
that a writer or a reader that is used again starts where it was. -/
namespace AsyncRpc

/-- `operator<<` of a value is given the JSON of it, whether or not `dump` takes that. -/
inductive MarshallOp where
  | value (j : Json)
  | request (h : RequestHeader)
  | reply (h : ReplyHeader)
  | reset

namespace MarshallOp

def apply (m : Marshall) : MarshallOp → Marshall
  | .value j => m.put j
  | .request h => m.putRequest h
  | .reply h => m.putReply h
  | .reset => m.reset

def isValue : MarshallOp → Bool
  | .value _ => true
  | _ => false

end MarshallOp

/-- A `Marshall` after these operations. -/
def Marshall.used (history : List MarshallOp) : Marshall := history.foldl MarshallOp.apply {}

inductive UnmarshallOp (C : Codec) where
  | read (r : Read)
  | takeBuf (buf : C.Buf)

namespace Unmarshall

/-- When `parse` throws the object stays as it is. -/
def takeBuf (C : Codec) (buf : C.Buf) (u : Unmarshall) : Except Exn Unmarshall :=
  (C.parse buf).map fun j => { u with json := j }

end Unmarshall

namespace UnmarshallOp

variable {C : Codec}

def apply (u : Unmarshall) : UnmarshallOp C → Unmarshall
  | .read r => u.after r
  | .takeBuf buf => (u.takeBuf C buf).toOption.getD u

def isValue : UnmarshallOp C → Bool
  | .read r => r.isValue
  | .takeBuf _ => false

end UnmarshallOp

def Unmarshall.used {C : Codec} (history : List (UnmarshallOp C)) : Unmarshall :=
  history.foldl UnmarshallOp.apply { json := .null }

/-- Every `operator>>`, after any others, gives the same value on both or fails on both. -/
def SameResults (u v : Unmarshall) : Prop := ∀ rs : List Read,
  (∀ (α : Type) (fromJson : Json → Except Exn α),
    ((u.readAll rs).read fromJson).1.toOption = ((v.readAll rs).read fromJson).1.toOption) ∧
  (u.readAll rs).getRequest.toOption = (v.readAll rs).getRequest.toOption ∧
  (u.readAll rs).getReply.toOption = (v.readAll rs).getReply.toOption

/-! The writer. -/

theorem Json.IsDocument.clear {j : Json} (document : j.IsDocument) : j.clear.IsDocument := by
  cases document with
  | null => exact .null
  | object => exact .object

/-- `Reset` does not take the position back. -/
theorem apply_marshall (history : List MarshallOp) {m : Marshall} (document : m.json.IsDocument) :
    (history.foldl MarshallOp.apply m).json.IsDocument ∧
      (history.foldl MarshallOp.apply m).id = m.id + history.countP MarshallOp.isValue := by
  induction history generalizing m with
  | nil => exact ⟨document, rfl⟩
  | cons op history ih =>
      rw [List.foldl_cons, List.countP_cons]
      cases op with
      | value j =>
          obtain ⟨document', position⟩ := ih (m := m.put j) (document.set _ _)
          refine ⟨document', position.trans ?_⟩
          show m.id + 1 + _ = m.id + (_ + 1)
          omega
      | request h => exact ih (m := m.putRequest h) (document.set _ _)
      | reply h => exact ih (m := m.putReply h) (document.set _ _)
      | reset => exact ih (m := m.reset) document.clear

theorem used_marshall (history : List MarshallOp) : (Marshall.used history).json.IsDocument ∧
    (Marshall.used history).id = history.countP MarshallOp.isValue := by
  obtain ⟨document, position⟩ := apply_marshall history (m := {}) .null
  exact ⟨document, position.trans (Nat.zero_add _)⟩

theorem wrote_reset {m : Marshall} (document : m.json.IsDocument) : Wrote m.id m.reset [] := by
  obtain ⟨j, id⟩ := m
  cases document with
  | null => exact ⟨⟨.null, rfl, rfl, fun _ _ => rfl, fun _ => rfl⟩, rfl, rfl⟩
  | object => exact ⟨⟨.object, rfl, rfl, fun _ _ => rfl, fun _ => rfl⟩, rfl, rfl⟩

/-- Values are found by a fresh `Unmarshall` only where they start at position 0. -/
theorem Wrote.readsBack_iff {k : Nat} {m : Marshall} {ws : List Write} (h : Wrote k m ws)
    (C : Codec) : ReadsBack C m ws ↔ k = 0 ∨ Write.values ws = [] := by
  constructor
  · rintro ⟨buf, u, written, fresh, gives⟩
    cases (ofBuf_buf written).symm.trans fresh
    by_contra neither
    obtain ⟨later, some⟩ := not_or.mp neither
    obtain ⟨d, ds, values⟩ := List.exists_cons_of_ne_nil some
    have first := (gives []).value d (by rw [values]; rfl)
    have absent : m.json.normal.lookup (toKey 0) = none := by
      rw [Json.lookup_normal, h.earlier 0 (Nat.pos_of_ne_zero later)]
      rfl
    obtain ⟨e, failed⟩ := read_none (u := ⟨m.json.normal, 0⟩) d.fromJson absent
    cases first.symm.trans failed
  · rintro (rfl | none)
    · exact h.fromStart.readsBack h.plain C
    · refine (h.spells fun i => ?_).readsBack h.plain C
      rw [none]
      by_cases low : i < k
      · exact h.earlier i low
      · have value := h.value (i - k)
        rw [none, Nat.add_sub_cancel' (Nat.not_lt.mp low)] at value
        exact value

/-! The reader. -/

theorem apply_unmarshall {C : Codec} (history : List (UnmarshallOp C)) (u : Unmarshall) :
    (history.foldl UnmarshallOp.apply u).id = u.id + history.countP UnmarshallOp.isValue := by
  induction history generalizing u with
  | nil => rfl
  | cons op history ih =>
      rw [List.foldl_cons, ih, List.countP_cons]
      cases op with
      | read r =>
          cases r with
          | value =>
              show u.id + 1 + _ = u.id + (_ + 1)
              omega
          | request | reply => rfl
      | takeBuf buf =>
          show ((u.takeBuf C buf).toOption.getD u).id + _ = _
          rw [Unmarshall.takeBuf]
          cases C.parse buf <;> rfl

theorem used_unmarshall {C : Codec} (history : List (UnmarshallOp C)) :
    (Unmarshall.used history).id = history.countP UnmarshallOp.isValue :=
  (apply_unmarshall history _).trans (Nat.zero_add _)

/-- Reading the JSON itself. -/
theorem read_itself (j : Json) (n : Nat) :
    ((⟨j, n⟩ : Unmarshall).read .ok).1.toOption = j.lookup (toKey n) := by
  simp only [Unmarshall.read, Json.lookup]
  cases j.atKey (toKey n) <;> rfl

theorem find_bounded (members : List (String × Json)) :
    ∃ bound, ∀ i, Json.find (toKey i) members ≠ none → i < bound := by
  induction members with
  | nil => exact ⟨0, fun i found => absurd rfl found⟩
  | cons head rest ih =>
      obtain ⟨key, v⟩ := head
      obtain ⟨bound, below⟩ := ih
      by_cases position : ∃ i, toKey i = key
      · obtain ⟨p, rfl⟩ := position
        refine ⟨max bound (p + 1), fun i found => ?_⟩
        by_cases here : toKey i = toKey p
        · cases toKey_injective here
          omega
        · rw [Json.find, if_neg here] at found
          have := below i found
          omega
      · refine ⟨bound, fun i found => below i ?_⟩
        rwa [Json.find, if_neg fun here => position ⟨i, here⟩] at found

theorem positions_bounded (j : Json) : ∃ bound, ∀ i, j.lookup (toKey i) ≠ none → i < bound := by
  cases j with
  | object members =>
      simp only [Json.lookup_object]
      exact find_bounded members
  | _ => exact ⟨0, fun i found => absurd rfl found⟩

/-- A document has finitely many positions, so shifting them is seen unless there are
none. -/
theorem sameResults_iff (j : Json) (k : Nat) : SameResults ⟨j, k⟩ ⟨j, 0⟩ ↔
    k = 0 ∨ ∀ i, j.lookup (toKey i) = none := by
  constructor
  · intro same
    have shifted : ∀ i, j.lookup (toKey (k + i)) = j.lookup (toKey i) := by
      intro i
      have both := (same (List.replicate i (.value .ok))).1 Json .ok
      simpa [readAll_eq, read_itself, List.countP_replicate, Read.isValue] using both
    by_contra neither
    obtain ⟨later, some⟩ := not_or.mp neither
    obtain ⟨i, found⟩ := not_forall.mp some
    have further : ∀ n, j.lookup (toKey (i + n * k)) ≠ none := by
      intro n
      induction n with
      | zero => rwa [Nat.zero_mul, Nat.add_zero]
      | succ n ih =>
          rwa [show i + (n + 1) * k = k + (i + n * k) by ring, shifted]
    obtain ⟨bound, below⟩ := positions_bounded j
    have past := below _ (further bound)
    have grows : bound ≤ bound * k := Nat.le_mul_of_pos_right bound (Nat.pos_of_ne_zero later)
    omega
  · rintro (rfl | none) rs
    · exact ⟨fun _ _ => rfl, rfl, rfl⟩
    · rw [readAll_eq, readAll_eq]
      refine ⟨fun α fromJson => ?_, rfl, rfl⟩
      obtain ⟨e, failed⟩ := read_none (u := ⟨j, k + rs.countP Read.isValue⟩) fromJson (none _)
      obtain ⟨e', failed'⟩ := read_none (u := ⟨j, 0 + rs.countP Read.isValue⟩) fromJson (none _)
      rw [failed, failed']
      rfl

/-- After a `Reset` a fresh reader finds what was written since if and only if no value was
written before it or none after it; after a `TakeBuf` a reader gives what a fresh one
does if and only if no value was asked of it before or the document holds none. -/
theorem reuse_is_fresh_iff (C : Codec) :
    (∀ (history : List MarshallOp) (ws : List Write),
      ReadsBack C ((Marshall.used history).reset.writeAll ws) ws ↔
        history.countP MarshallOp.isValue = 0 ∨ Write.values ws = []) ∧
    ∀ (history : List (UnmarshallOp C)) (buf : C.Buf) (u v : Unmarshall),
      (Unmarshall.used history).takeBuf C buf = .ok u →
      Unmarshall.ofBuf C buf = .ok v →
      (SameResults u v ↔
        history.countP UnmarshallOp.isValue = 0 ∨ ∀ i, v.json.lookup (toKey i) = none) := by
  constructor
  · intro history ws
    obtain ⟨document, position⟩ := used_marshall history
    have wrote := (wrote_reset document).writeAll ws
    rw [← position]
    exact wrote.readsBack_iff C
  · intro history buf u v taken fresh
    rw [Unmarshall.ofBuf] at fresh
    rw [Unmarshall.takeBuf] at taken
    cases parsed : C.parse buf with
    | error e =>
        rw [parsed] at fresh
        cases fresh
    | ok j =>
        rw [parsed] at fresh taken
        cases fresh
        cases taken
        rw [← used_unmarshall history]
        exact sameResults_iff j _

def number (n : UInt32) : Write := .value (JsonSupport.uint32.datum (JsonSupport.uint32_travels n))

def numberDoc (n : UInt32) : Json := (({} : Marshall).write (number n)).json

def readNumber : Read := .value JsonSupport.uint32.fromJson

/-- A writer and a reader that were used for headers before serve for values. -/
theorem reuse_is_fresh_headers :
    ReadsBack Services.sample.toCodec ((Marshall.used [.request ⟨2, BIND, 5, 0, 0⟩]).reset.writeAll
        [number 4, .reply ⟨3, .ok⟩, number 6]) [number 4, .reply ⟨3, .ok⟩, number 6] ∧
      ∃ u v, (Unmarshall.used (C := Services.sample.toCodec) [.takeBuf (errorDoc ⟨2, .ok⟩).json,
          .read .reply]).takeBuf Services.sample.toCodec (numberDoc 4) = .ok u ∧
        Unmarshall.ofBuf Services.sample.toCodec (numberDoc 4) = .ok v ∧ SameResults u v ∧
        (v.read JsonSupport.uint32.fromJson).1.toOption = some 4 :=
  ⟨((reuse_is_fresh_iff Services.sample.toCodec).1 [.request ⟨2, BIND, 5, 0, 0⟩]
      [number 4, .reply ⟨3, .ok⟩, number 6]).mpr (.inl rfl), _, _, rfl, rfl,
    ((reuse_is_fresh_iff Services.sample.toCodec).2
      [.takeBuf (errorDoc ⟨2, .ok⟩).json, .read .reply] (numberDoc 4) _ _ rfl rfl).mpr (.inl rfl), rfl⟩

/-- A writer that has sent one value is reset and sends another; a reader that has read a
value takes a new buffer. -/
theorem reuse_keeps_position :
    (¬ ∀ (history : List MarshallOp) (ws : List Write), ReadsBack Services.sample.toCodec
        ((Marshall.used history).reset.writeAll ws) ws) ∧
      ¬ ∀ (history : List (UnmarshallOp Services.sample.toCodec)) (buf : Json) (u v : Unmarshall),
        (Unmarshall.used history).takeBuf Services.sample.toCodec buf = .ok u →
        Unmarshall.ofBuf Services.sample.toCodec buf = .ok v → SameResults u v := by
  constructor
  · intro always
    obtain ⟨buf, u, written, fresh, gives⟩ := always [.value (.numberUnsigned 2)] [number 4]
    cases (ofBuf_buf written).symm.trans fresh
    have first := (gives []).value (JsonSupport.uint32.datum (JsonSupport.uint32_travels 4)) rfl
    cases first
  · intro always
    have same := always [.takeBuf (numberDoc 2), .read readNumber] (numberDoc 4) _ _ rfl rfl []
    have first := same.1 UInt32 JsonSupport.uint32.fromJson
    cases first

end AsyncRpc
