import AsyncRpc.Marshall
import Mathlib.Data.List.Basic

/-! What `operator<<` wrote `operator>>` reads back. The values of a message are numbered
by decimal keys, which share one object with the two headers. -/
namespace AsyncRpc

/-- A value that can be written, and that its type reads back from the text. -/
structure Datum where
  Ty : Type
  toJson : Ty → Json
  fromJson : Json → Except Exn Ty
  value : Ty
  plain : (toJson value).utf8
  roundTrip : fromJson (toJson value).normal = .ok value

def Datum.json (d : Datum) : Json := d.toJson d.value

def JsonSupport.datum {α : Type} (T : JsonSupport α) {a : α} (travels : T.Travels a) : Datum :=
  ⟨α, T.toJson, T.fromJson, a, travels.1, travels.2⟩

/-- The right-hand side of an `operator<<`. -/
inductive Write where
  | value (d : Datum)
  | request (h : RequestHeader)
  | reply (h : ReplyHeader)

/-- The right-hand side of an `operator>>`; of a value, the `from_json` of its type. -/
inductive Read where
  | value {α : Type} (fromJson : Json → Except Exn α)
  | request
  | reply

namespace Marshall

def write (m : Marshall) : Write → Marshall
  | .value d => m.put d.json
  | .request h => m.putRequest h
  | .reply h => m.putReply h

def writeAll (m : Marshall) (ws : List Write) : Marshall := ws.foldl write m

end Marshall

namespace Unmarshall

/-- `operator>>` of a value, whatever its type makes of the JSON. The position is an
`int`, and 2 ^ 31 reads of one object are out of reach. -/
def read {α : Type} (fromJson : Json → Except Exn α) (u : Unmarshall) : Except Exn α × Unmarshall :=
  ((u.json.atKey (toKey u.id)).bind fromJson, { u with id := u.id + 1 })

def after (u : Unmarshall) : Read → Unmarshall
  | .value fromJson => (u.read fromJson).2
  | .request | .reply => u

def readAll (u : Unmarshall) (rs : List Read) : Unmarshall := rs.foldl after u

end Unmarshall

/-! What a list of writes amounts to. -/

def Write.values (ws : List Write) : List Datum := ws.filterMap fun
  | .value d => some d
  | _ => none

def Write.requests (ws : List Write) : List RequestHeader := ws.filterMap fun
  | .request h => some h
  | _ => none

def Write.replies (ws : List Write) : List ReplyHeader := ws.filterMap fun
  | .reply h => some h
  | _ => none

def Read.isValue : Read → Bool
  | .value _ => true
  | _ => false

/-- What the next `operator>>` gives when `n` values were read before. -/
structure Gives (u : Unmarshall) (n : Nat) (ws : List Write) : Prop where
  value : ∀ d, (Write.values ws)[n]? = some d → (u.read d.fromJson).1 = .ok d.value
  exhausted : (Write.values ws).length ≤ n → ∀ (α : Type) (fromJson : Json → Except Exn α),
    ∃ e, (u.read fromJson).1 = .error e
  request : ∀ h, (Write.requests ws).getLast? = some h → u.getRequest = .ok h
  noRequest : Write.requests ws = [] → ∃ e, u.getRequest = .error e
  reply : ∀ h, (Write.replies ws).getLast? = some h → u.getReply = .ok h
  noReply : Write.replies ws = [] → ∃ e, u.getReply = .error e

/-- `m` gives a buffer, of which a fresh `Unmarshall` gives the values in their order and
the last headers, whatever was read before. -/
def ReadsBack (C : Codec) (m : Marshall) (ws : List Write) : Prop :=
  ∃ buf u, m.buf C = .ok buf ∧ Unmarshall.ofBuf C buf = .ok u ∧
    ∀ rs : List Read, Gives (u.readAll rs) (rs.countP Read.isValue) ws

/-! The keys. -/

theorem toKey_toList (i : Nat) : (toKey i).toList = Nat.toDigits 10 i := Nat.toList_repr

theorem toKey_injective {i j : Nat} (same : toKey i = toKey j) : i = j := by
  have digits : Nat.toDigits 10 i = Nat.toDigits 10 j := by
    rw [← toKey_toList, ← toKey_toList, same]
  calc i = Nat.ofDigitChars 10 (Nat.toDigits 10 i) 0 := Nat.ofDigitChars_ten_toDigits.symm
    _ = Nat.ofDigitChars 10 (Nat.toDigits 10 j) 0 := by rw [digits]
    _ = j := Nat.ofDigitChars_ten_toDigits

/-- A key with a letter in it is not a position. -/
theorem toKey_ne {k : String} {c : Char} (member : c ∈ k.toList) (letter : c.isDigit = false)
    (i : Nat) : toKey i ≠ k := by
  rintro rfl
  rw [toKey_toList] at member
  have digit := Nat.isDigit_of_mem_toDigits (by decide) (by decide) member
  rw [letter] at digit
  cases digit

theorem toKey_ne_req (i : Nat) : toKey i ≠ "req" := toKey_ne (c := 'r') (by decide) rfl i

theorem toKey_ne_rep (i : Nat) : toKey i ≠ "rep" := toKey_ne (c := 'r') (by decide) rfl i

namespace Json

/-- What `at(key)` finds. -/
def lookup (j : Json) (k : String) : Option Json := (j.atKey k).toOption

/-- The value of a `Marshall`. -/
inductive IsDocument : Json → Prop
  | null : IsDocument .null
  | object {members} : IsDocument (.object members)

variable {j v : Json} {k : String}

theorem lookup_object (members : List (String × Json)) (k : String) :
    (object members).lookup k = find k members := by
  simp only [lookup, atKey]
  cases find k members <;> rfl

theorem atKey_some (found : j.lookup k = some v) : j.atKey k = .ok v := by
  unfold lookup at found
  cases at' : j.atKey k with
  | ok w =>
      rw [at'] at found
      cases found
      rfl
  | error e =>
      rw [at'] at found
      cases found

theorem atKey_none (absent : j.lookup k = none) : ∃ e, j.atKey k = .error e := by
  unfold lookup at absent
  cases at' : j.atKey k with
  | ok w =>
      rw [at'] at absent
      cases absent
  | error e => exact ⟨e, rfl⟩

theorem find_normal (k : String) (members : List (String × Json)) :
    find k (normalMembers members) = (find k members).map normal := by
  induction members with
  | nil => rfl
  | cons m members ih =>
      simp only [normalMembers, find]
      split_ifs
      · rfl
      · exact ih

theorem lookup_normal (j : Json) (k : String) : j.normal.lookup k = (j.lookup k).map normal := by
  cases j with
  | object members => rw [normal, lookup_object, find_normal, lookup_object]
  | numberInteger n =>
      rw [normal]
      split_ifs <;> rfl
  | _ => rfl

theorem IsDocument.set (document : IsDocument j) (k : String) (v : Json) : IsDocument (j.set k v) := by
  cases document <;> exact .object

theorem IsDocument.lookup_set (document : IsDocument j) (k q : String) (v : Json) :
    (j.set k v).lookup q = if q = k then some v else j.lookup q := by
  cases document with
  | null => exact lookup_object _ _
  | object =>
      rw [Json.set, lookup_object, find_insert, lookup_object]

end Json

/-- The values `ds` are in the document from position `k` on, and none is before. -/
structure Numbered (k : Nat) (m : Marshall) (ds : List Datum) : Prop where
  document : m.json.IsDocument
  plain : m.json.utf8
  position : m.id = k + ds.length
  earlier : ∀ i < k, m.json.lookup (toKey i) = none
  value : ∀ i, m.json.lookup (toKey (k + i)) = ds[i]?.map Datum.json

theorem Numbered.put {k : Nat} {m : Marshall} {ds : List Datum} (h : Numbered k m ds) (d : Datum) :
    Numbered k (m.put d.json) (ds ++ [d]) := by
  have other : ∀ i, i ≠ m.id → (m.put d.json).json.lookup (toKey i) = m.json.lookup (toKey i) := by
    intro i other
    rw [Marshall.put, h.document.lookup_set, if_neg fun same => other (toKey_injective same)]
  have position := h.position
  refine ⟨h.document.set _ _, Json.utf8_set _ h.plain d.plain, ?_, fun i low => ?_, fun i => ?_⟩
  · rw [List.length_append]
    exact congrArg (· + 1) position
  · rw [other i (by omega), h.earlier i low]
  · by_cases here : i = ds.length
    · rw [here, List.getElem?_concat_length, ← position, Marshall.put, h.document.lookup_set,
        if_pos rfl]
      rfl
    · rw [other (k + i) (by omega), h.value i]
      by_cases low : i < ds.length
      · rw [List.getElem?_append_left low]
      · rw [List.getElem?_eq_none (by omega), List.getElem?_eq_none (by simp; omega)]

/-- A header has a key of its own. -/
theorem Numbered.header {k : Nat} {m : Marshall} {ds : List Datum} (h : Numbered k m ds)
    {key : String} (apart : ∀ i, toKey i ≠ key) {j : Json} (plain : j.utf8) :
    Numbered k { m with json := m.json.set key j } ds := by
  refine ⟨h.document.set _ _, Json.utf8_set _ h.plain plain, h.position, fun i low => ?_, fun i => ?_⟩
  · rw [h.document.lookup_set, if_neg (apart i), h.earlier i low]
  · rw [h.document.lookup_set, if_neg (apart _), h.value i]

/-- What a `Marshall` has written since its position was `k`. -/
structure Wrote (k : Nat) (m : Marshall) (ws : List Write) : Prop
    extends Numbered k m (Write.values ws) where
  request : m.json.lookup "req" = (Write.requests ws).getLast?.map RequestHeader.toJson
  reply : m.json.lookup "rep" = (Write.replies ws).getLast?.map ReplyHeader.toJson

theorem Wrote.write {k : Nat} {m : Marshall} {ws : List Write} (h : Wrote k m ws) (w : Write) :
    Wrote k (m.write w) (ws ++ [w]) := by
  have document := h.document
  cases w with
  | value d =>
      have grown : Write.values (ws ++ [.value d]) = Write.values ws ++ [d] := by
        simp [Write.values]
      have requests' : Write.requests (ws ++ [.value d]) = Write.requests ws := by
        simp [Write.requests]
      have replies' : Write.replies (ws ++ [.value d]) = Write.replies ws := by simp [Write.replies]
      constructor
      · rw [grown]
        exact h.toNumbered.put d
      · rw [requests', ← h.request]
        exact (document.lookup_set _ _ _).trans (if_neg (toKey_ne_req _).symm)
      · rw [replies', ← h.reply]
        exact (document.lookup_set _ _ _).trans (if_neg (toKey_ne_rep _).symm)
  | request r =>
      have values' : Write.values (ws ++ [.request r]) = Write.values ws := by simp [Write.values]
      have grown : Write.requests (ws ++ [.request r]) = Write.requests ws ++ [r] := by
        simp [Write.requests]
      have replies' : Write.replies (ws ++ [.request r]) = Write.replies ws := by
        simp [Write.replies]
      constructor
      · rw [values']
        exact h.toNumbered.header toKey_ne_req r.toJson_utf8
      · rw [grown, List.getLast?_concat]
        exact (document.lookup_set _ _ _).trans (if_pos rfl)
      · rw [replies', ← h.reply]
        exact (document.lookup_set _ _ _).trans (if_neg (by decide))
  | reply r =>
      have values' : Write.values (ws ++ [.reply r]) = Write.values ws := by simp [Write.values]
      have requests' : Write.requests (ws ++ [.reply r]) = Write.requests ws := by
        simp [Write.requests]
      have grown : Write.replies (ws ++ [.reply r]) = Write.replies ws ++ [r] := by
        simp [Write.replies]
      constructor
      · rw [values']
        exact h.toNumbered.header toKey_ne_rep r.toJson_utf8
      · rw [requests', ← h.request]
        exact (document.lookup_set _ _ _).trans (if_neg (by decide))
      · rw [grown, List.getLast?_concat]
        exact (document.lookup_set _ _ _).trans (if_pos rfl)

theorem Wrote.writeAll {k : Nat} {m : Marshall} {ws : List Write} (h : Wrote k m ws)
    (more : List Write) : Wrote k (m.writeAll more) (ws ++ more) := by
  induction more generalizing m ws with
  | nil =>
      rw [List.append_nil]
      exact h
  | cons w more ih =>
      rw [List.append_cons]
      exact ih (h.write w)

theorem wrote_nothing : Wrote 0 {} [] where
  document := .null
  plain := rfl
  position := rfl
  earlier _ low := absurd low (Nat.not_lt_zero _)
  value _ := rfl
  request := rfl
  reply := rfl

/-! Reading. -/

/-- Only the reads of values move the position, also when they fail. -/
theorem readAll_eq (u : Unmarshall) (rs : List Read) :
    u.readAll rs = ⟨u.json, u.id + rs.countP Read.isValue⟩ := by
  induction rs generalizing u with
  | nil => rfl
  | cons r rs ih =>
      show (u.after r).readAll rs = _
      rw [ih, List.countP_cons]
      cases r with
      | value => simp [Unmarshall.after, Unmarshall.read, Read.isValue, Nat.add_assoc, Nat.add_comm 1]
      | request | reply => rfl

theorem read_some {α : Type} {u : Unmarshall} {v : Json} (fromJson : Json → Except Exn α)
    (found : u.json.lookup (toKey u.id) = some v) : (u.read fromJson).1 = fromJson v := by
  rw [Unmarshall.read, Json.atKey_some found]
  rfl

theorem read_none {α : Type} {u : Unmarshall} (fromJson : Json → Except Exn α)
    (absent : u.json.lookup (toKey u.id) = none) : ∃ e, (u.read fromJson).1 = .error e := by
  obtain ⟨e, failed⟩ := Json.atKey_none absent
  exact ⟨e, by rw [Unmarshall.read, failed]; rfl⟩

/-- A parsed document from which a fresh `Unmarshall` reads `ws`. -/
structure Spells (j : Json) (ws : List Write) : Prop where
  value : ∀ i, j.lookup (toKey i) = (Write.values ws)[i]?.map fun d => d.json.normal
  request : j.lookup "req" = (Write.requests ws).getLast?.map RequestHeader.toJson
  reply : j.lookup "rep" = (Write.replies ws).getLast?.map ReplyHeader.toJson

theorem Spells.gives {j : Json} {ws : List Write} (h : Spells j ws) (n : Nat) :
    Gives ⟨j, n⟩ n ws := by
  obtain ⟨value, request, reply⟩ := h
  have value := value n
  constructor
  · intro d here
    rw [here] at value
    rw [read_some d.fromJson value]
    exact d.roundTrip
  · intro past α fromJson
    rw [List.getElem?_eq_none past] at value
    exact read_none fromJson value
  · intro r last
    rw [last] at request
    rw [Unmarshall.getRequest, Json.atKey_some request]
    exact r.fromJson_toJson
  · intro none
    rw [none] at request
    obtain ⟨e, failed⟩ := Json.atKey_none request
    exact ⟨e, by rw [Unmarshall.getRequest, failed]; rfl⟩
  · intro r last
    rw [last] at reply
    rw [Unmarshall.getReply, Json.atKey_some reply]
    exact r.fromJson_toJson
  · intro none
    rw [none] at reply
    obtain ⟨e, failed⟩ := Json.atKey_none reply
    exact ⟨e, by rw [Unmarshall.getReply, failed]; rfl⟩

theorem Spells.readsBack {m : Marshall} {ws : List Write} (h : Spells m.json.normal ws)
    (plain : m.json.utf8) (C : Codec) : ReadsBack C m ws := by
  have written : m.buf C = .ok (C.text m.json) := buf_ok_iff.mpr ⟨plain, rfl⟩
  refine ⟨_, _, written, ofBuf_buf written, fun rs => ?_⟩
  rw [readAll_eq, Nat.zero_add]
  exact h.gives _

/-- The parser finds what was written since position `k` where it was put. -/
theorem Wrote.spells {k : Nat} {m : Marshall} {ws : List Write} (h : Wrote k m ws)
    (value : ∀ i, m.json.lookup (toKey i) = (Write.values ws)[i]?.map Datum.json) :
    Spells m.json.normal ws := by
  constructor
  · intro i
    rw [Json.lookup_normal, value, Option.map_map]
    rfl
  · rw [Json.lookup_normal, h.request, Option.map_map]
    exact congrArg (Option.map · _) (funext RequestHeader.normal_toJson)
  · rw [Json.lookup_normal, h.reply, Option.map_map]
    exact congrArg (Option.map · _) (funext ReplyHeader.normal_toJson)

theorem Wrote.fromStart {m : Marshall} {ws : List Write} (h : Wrote 0 m ws) :
    Spells m.json.normal ws := by
  apply h.spells
  intro i
  rw [← h.value i, Nat.zero_add]

/-- A fresh `Marshall` gives a buffer whatever was written, and a fresh `Unmarshall` of it
reads that back. -/
theorem written_readsBack (C : Codec) (ws : List Write) :
    ReadsBack C (({} : Marshall).writeAll ws) ws := by
  have wrote := wrote_nothing.writeAll ws
  exact wrote.fromStart.readsBack wrote.plain C

end AsyncRpc
