import AsyncRpc.Rpc
import AsyncRpc.Foundation.Reading

/-! The lexer of the JSON library, on the bytes of a buffer. `get()` takes the next byte,
and a byte that was put back with `unget()` was never taken here. Nothing is read after
`parse_error`, so a reader that ends there is `none`. -/
namespace AsyncRpc.Wire
open Reading

/-- A `std::string`. -/
abbrev Bytes := List UInt8

def byte (c : Char) : UInt8 := .ofNat c.toNat

/-- The bytes of a literal, all of them ASCII. -/
def text (s : String) : Bytes := s.toList.map byte

/-- The three kinds of number; the text of a float is converted by the parser here. -/
inductive Number where
  | unsigned (n : Nat)
  | integer (n : Int)
  | float (number : Bytes)
  deriving DecidableEq

/-- `token_type` with the value that the lexer keeps beside it. -/
inductive Token where
  | literalTrue | literalFalse | literalNull
  | valueString (s : Bytes)
  | valueNumber (n : Number)
  | beginArray | beginObject | endArray | endObject | nameSeparator | valueSeparator
  | parseError | endOfInput
  deriving DecidableEq

def isDigit (c : UInt8) : Bool := byte '0' ≤ c && c ≤ byte '9'

def isSpace (c : UInt8) : Bool := c == byte ' ' || c == 9 || c == 10 || c == 13

/-! Strings. -/

def hexDigit (c : UInt8) : Option Nat :=
  if byte '0' ≤ c ∧ c ≤ byte '9' then some (c.toNat - 0x30)
  else if byte 'A' ≤ c ∧ c ≤ byte 'F' then some (c.toNat - 0x37)
  else if byte 'a' ≤ c ∧ c ≤ byte 'f' then some (c.toNat - 0x57)
  else none

/-- `n` more hex digits behind those that make up `codepoint`. -/
def getHex : Nat → Nat → Reader UInt8 Nat
  | 0, codepoint => fun input => some (codepoint, input)
  | n + 1, codepoint => onHead fun c =>
      match hexDigit c with
      | some d => getHex n (codepoint + d <<< (4 * n))
      | none => fun _ => none

def getCodepoint : Reader UInt8 Nat := getHex 4 0

/-- The bytes of a code point. -/
def encode (codepoint : Nat) : Bytes :=
  if codepoint < 0x80 then [.ofNat codepoint]
  else if codepoint ≤ 0x7FF then
    [.ofNat (0xC0 ||| codepoint >>> 6), .ofNat (0x80 ||| codepoint &&& 0x3F)]
  else if codepoint ≤ 0xFFFF then
    [.ofNat (0xE0 ||| codepoint >>> 12), .ofNat (0x80 ||| codepoint >>> 6 &&& 0x3F),
      .ofNat (0x80 ||| codepoint &&& 0x3F)]
  else
    [.ofNat (0xF0 ||| codepoint >>> 18), .ofNat (0x80 ||| codepoint >>> 12 &&& 0x3F),
      .ofNat (0x80 ||| codepoint >>> 6 &&& 0x3F), .ofNat (0x80 ||| codepoint &&& 0x3F)]

/-- After the first `\uxxxx` of a pair, which is a high surrogate. -/
def scanLowSurrogate (codepoint₁ : Nat) : Reader UInt8 Bytes :=
  onHead fun c => onHead fun c' =>
    if c = byte '\\' ∧ c' = byte 'u' then
      andThen getCodepoint fun codepoint₂ input =>
        if 0xDC00 ≤ codepoint₂ ∧ codepoint₂ ≤ 0xDFFF then
          some (encode (codepoint₁ <<< 10 + codepoint₂ - 0x35FDC00), input)
        else none
    else fun _ => none

/-- After `\u`. -/
def scanCodepoint : Reader UInt8 Bytes :=
  andThen getCodepoint fun codepoint₁ =>
    if 0xD800 ≤ codepoint₁ ∧ codepoint₁ ≤ 0xDBFF then scanLowSurrogate codepoint₁
    else if 0xDC00 ≤ codepoint₁ ∧ codepoint₁ ≤ 0xDFFF then fun _ => none
    else fun input => some (encode codepoint₁, input)

/-- What the other characters mean after a backslash. -/
def unescape (c : UInt8) : Option UInt8 :=
  if c = byte '"' ∨ c = byte '\\' ∨ c = byte '/' then some c
  else if c = byte 'b' then some 8
  else if c = byte 'f' then some 12
  else if c = byte 'n' then some 10
  else if c = byte 'r' then some 13
  else if c = byte 't' then some 9
  else none

/-- After a backslash: the bytes it stands for. -/
def scanEscape : Reader UInt8 Bytes :=
  onHead fun c =>
    if c = byte 'u' then scanCodepoint
    else match unescape c with
      | some b => fun input => some ([b], input)
      | none => fun _ => none

/-- The bytes that have to follow, each in its range, behind those in `added`. -/
def nextByteInRange (added : Bytes) : List (UInt8 × UInt8) → Reader UInt8 Bytes
  | [] => fun input => some (added, input)
  | (low, high) :: ranges => onHead fun c =>
      if low ≤ c ∧ c ≤ high then nextByteInRange (added ++ [c]) ranges else fun _ => none

/-- The ranges after the first byte of a character; `none` for a byte that starts none. -/
def ranges (c : UInt8) : Option (List (UInt8 × UInt8)) :=
  if c < 0x20 then none
  else if c < 0x80 then some []
  else if c < 0xC2 then none
  else if c < 0xE0 then some [(0x80, 0xBF)]
  else if c = 0xE0 then some [(0xA0, 0xBF), (0x80, 0xBF)]
  else if c = 0xED then some [(0x80, 0x9F), (0x80, 0xBF)]
  else if c < 0xF0 then some [(0x80, 0xBF), (0x80, 0xBF)]
  else if c = 0xF0 then some [(0x90, 0xBF), (0x80, 0xBF), (0x80, 0xBF)]
  else if c < 0xF4 then some [(0x80, 0xBF), (0x80, 0xBF), (0x80, 0xBF)]
  else if c = 0xF4 then some [(0x80, 0x8F), (0x80, 0xBF), (0x80, 0xBF)]
  else none

/-- One round of `scan_string` at the byte `c`: the bytes it adds, or `none` at the closing
quote. -/
def scanPiece (c : UInt8) : Reader UInt8 (Option Bytes) :=
  if c = byte '"' then fun input => some (none, input)
  else if c = byte '\\' then andThen scanEscape fun bytes input => some (some bytes, input)
  else match ranges c with
    | some ranges => andThen (nextByteInRange [c] ranges) fun bytes input => some (some bytes, input)
    | none => fun _ => none

theorem getHex_local (n codepoint : Nat) : Local (getHex n codepoint) := by
  induction n generalizing codepoint with
  | zero => exact local_pure codepoint
  | succ n ih =>
      apply Local.onHead
      intro c
      split
      · exact ih _
      · exact local_none

theorem scanCodepoint_local : Local scanCodepoint := by
  refine (getHex_local 4 0).andThen fun codepoint₁ => ?_
  split_ifs
  · refine .onHead fun c => .onHead fun c' => ?_
    split_ifs
    · refine (getHex_local 4 0).andThen fun codepoint₂ => ?_
      split_ifs
      · exact local_pure _
      · exact local_none
    · exact local_none
  · exact local_none
  · exact local_pure _

theorem scanEscape_local : Local scanEscape := by
  refine .onHead fun c => ?_
  split_ifs
  · exact scanCodepoint_local
  · split
    · exact local_pure _
    · exact local_none

theorem nextByteInRange_local (added : Bytes) (ranges : List (UInt8 × UInt8)) :
    Local (nextByteInRange added ranges) := by
  induction ranges generalizing added with
  | nil => exact local_pure added
  | cons range ranges ih =>
      refine .onHead fun c => ?_
      split_ifs
      · exact ih _
      · exact local_none

theorem scanPiece_local (c : UInt8) : Local (scanPiece c) := by
  unfold scanPiece
  split_ifs
  · exact local_pure none
  · exact scanEscape_local.andThen fun _ => local_pure _
  · split
    · exact (nextByteInRange_local _ _).andThen fun _ => local_pure _
    · exact local_none

theorem onHead_scanPiece_consuming : Consuming (onHead scanPiece) :=
  .onHead fun c => (scanPiece_local c).peeking

/-- `scan_string` behind the opening quote, with what `token_buffer` holds. -/
def scanString (added : Bytes) (input : Bytes) : Option (Bytes × Bytes) :=
  match _piece : onHead scanPiece input with
  | none => none
  | some (none, rest) => some (added, rest)
  | some (some bytes, rest) => scanString (added ++ bytes) rest
termination_by input.length
decreasing_by exact onHead_scanPiece_consuming _piece

theorem scanString_local (added : Bytes) : Local (scanString added) := by
  intro input s rest read
  fun_induction scanString added input with
  | case1 => cases read
  | case2 added input rest' piece =>
      cases read
      obtain ⟨taken, split, again⟩ := Local.onHead scanPiece_local piece
      refine ⟨taken, split, fun more => ?_⟩
      rw [scanString, again]
  | case3 added input bytes rest' piece ih =>
      obtain ⟨taken, split, again⟩ := Local.onHead scanPiece_local piece
      obtain ⟨taken', split', again'⟩ := ih read
      refine ⟨taken ++ taken', by rw [split, split', List.append_assoc], fun more => ?_⟩
      rw [scanString, List.append_assoc, again]
      exact again' more

/-! Numbers, state by state; `number` is what `token_buffer` holds. -/

/-- The decimal value of a run of digits. -/
def decimal (digits : Bytes) : Nat := digits.foldl (fun n c => n * 10 + (c.toNat - 0x30)) 0

/-- `strtoull` and `strtoll`; what does not fit into 64 bits is read as a float. -/
def convert (number : Bytes) : Number :=
  if number.head? = some (byte '-') then
    if decimal number.tail ≤ 2 ^ 63 then .integer (-decimal number.tail) else .float number
  else if decimal number < 2 ^ 64 then .unsigned (decimal number)
  else .float number

def scanAny2 (number : Bytes) : Reader UInt8 Number :=
  onSpan isDigit fun digits input => some (.float (number ++ digits), input)

def scanSign (number : Bytes) : Reader UInt8 Number :=
  onHead fun c => if isDigit c then scanAny2 (number ++ [c]) else fun _ => none

def scanExponent (number : Bytes) : Reader UInt8 Number :=
  onHead fun c =>
    if c = byte '+' ∨ c = byte '-' then scanSign (number ++ [c])
    else if isDigit c then scanAny2 (number ++ [c])
    else fun _ => none

/-- After the digits behind the decimal point. -/
def scanFraction (number : Bytes) : Reader UInt8 Number
  | [] => some (.float number, [])
  | c :: input =>
      if c = byte 'e' ∨ c = byte 'E' then scanExponent (number ++ [c]) input
      else some (.float number, c :: input)

def scanDecimal2 (number : Bytes) : Reader UInt8 Number :=
  onSpan isDigit fun digits => scanFraction (number ++ digits)

def scanDecimal1 (number : Bytes) : Reader UInt8 Number :=
  onHead fun c => if isDigit c then scanDecimal2 (number ++ [c]) else fun _ => none

/-- After the digits before a decimal point. -/
def scanZero (number : Bytes) : Reader UInt8 Number
  | [] => some (convert number, [])
  | c :: input =>
      if c = byte '.' then scanDecimal1 (number ++ [c]) input
      else if c = byte 'e' ∨ c = byte 'E' then scanExponent (number ++ [c]) input
      else some (convert number, c :: input)

def scanAny1 (number : Bytes) : Reader UInt8 Number :=
  onSpan isDigit fun digits => scanZero (number ++ digits)

/-- The first digit `c`, behind `-` or nothing. -/
def scanFirst (number : Bytes) (c : UInt8) : Reader UInt8 Number :=
  if c = byte '0' then scanZero (number ++ [c])
  else if isDigit c then scanAny1 (number ++ [c])
  else fun _ => none

def scanMinus (number : Bytes) : Reader UInt8 Number := onHead (scanFirst number)

/-- `scan_number` at its first byte. -/
def scanNumber (c : UInt8) : Reader UInt8 Number :=
  if c = byte '-' then scanMinus [c] else scanFirst [] c

theorem scanAny2_peeking (number : Bytes) : Peeking (scanAny2 number) :=
  .onSpan fun _ => (local_pure _).peeking

theorem scanExponent_peeking (number : Bytes) : Peeking (scanExponent number) := by
  refine .onHead fun c => ?_
  split_ifs
  · refine .onHead fun c => ?_
    split_ifs
    · exact scanAny2_peeking _
    · exact local_none.peeking
  · exact scanAny2_peeking _
  · exact local_none.peeking

/-- A reader that may put the first byte back. -/
theorem peeking_orElse {n : Number} {p : UInt8 → Prop} [DecidablePred p]
    {f : UInt8 → Reader UInt8 Number} {g : Reader UInt8 Number} (nil : g [] = some (n, []))
    (cons : ∀ c input, g (c :: input) = if p c then f c input else some (n, c :: input))
    (h : ∀ c, Peeking (f c)) : Peeking g := by
  intro input n' rest read
  cases input with
  | nil =>
      cases nil.symm.trans read
      refine ⟨[], rfl, fun more same => ?_⟩
      rw [List.head?_eq_none_iff.mp same]
      exact nil
  | cons c input =>
      rw [cons] at read
      split_ifs at read with goes
      · obtain ⟨taken, split, again⟩ := h c read
        refine ⟨c :: taken, congrArg (c :: ·) split, fun more same => ?_⟩
        rw [List.cons_append, cons, if_pos goes]
        exact again more same
      · cases read
        refine ⟨[], rfl, fun more same => ?_⟩
        cases more with
        | nil => cases same
        | cons c' more =>
            cases same
            rw [List.nil_append, cons, if_neg goes]

theorem scanDecimal1_peeking (number : Bytes) : Peeking (scanDecimal1 number) := by
  refine .onHead fun c => ?_
  split_ifs
  · exact .onSpan fun _ => peeking_orElse rfl (fun _ _ => rfl) fun _ => scanExponent_peeking _
  · exact local_none.peeking

theorem scanZero_peeking (number : Bytes) : Peeking (scanZero number) := by
  apply peeking_orElse (p := fun c => c = byte '.' ∨ c = byte 'e' ∨ c = byte 'E')
    (f := fun c => if c = byte '.' then scanDecimal1 (number ++ [c]) else scanExponent (number ++ [c]))
    rfl
  · intro c input
    by_cases point : c = byte '.' <;> simp [scanZero, point]
  · intro c
    split_ifs
    · exact scanDecimal1_peeking _
    · exact scanExponent_peeking _

theorem scanFirst_peeking (number : Bytes) (c : UInt8) : Peeking (scanFirst number c) := by
  unfold scanFirst
  split_ifs
  · exact scanZero_peeking _
  · exact .onSpan fun _ => scanZero_peeking _
  · exact local_none.peeking

theorem scanNumber_peeking (c : UInt8) : Peeking (scanNumber c) := by
  unfold scanNumber
  split_ifs
  · exact .onHead fun c => scanFirst_peeking _ c
  · exact scanFirst_peeking [] c

/-! Tokens. -/

/-- `scan_literal` behind the first byte of the literal. -/
def scanLiteral (literal : Bytes) (t : Token) : Reader UInt8 Token :=
  fun input => if literal <+: input then some (t, input.drop literal.length) else none

def isNumberStart (c : UInt8) : Bool := c == byte '-' || isDigit c

/-- Tokens of one byte. -/
def structural (c : UInt8) : Option Token :=
  if c = byte '[' then some .beginArray
  else if c = byte ']' then some .endArray
  else if c = byte '{' then some .beginObject
  else if c = byte '}' then some .endObject
  else if c = byte ':' then some .nameSeparator
  else if c = byte ',' then some .valueSeparator
  else none

/-- The literal that starts with a byte: the bytes behind it and the token. -/
def literal (c : UInt8) : Option (Bytes × Token) :=
  if c = byte 't' then some (text "rue", .literalTrue)
  else if c = byte 'f' then some (text "alse", .literalFalse)
  else if c = byte 'n' then some (text "ull", .literalNull)
  else none

/-- The token that starts with the byte `c`. -/
def scanAt (c : UInt8) : Reader UInt8 Token :=
  match structural c, literal c with
  | some t, _ => fun input => some (t, input)
  | none, some (behind, t) => scanLiteral behind t
  | none, none =>
      if c = byte '"' then andThen (scanString []) fun s input => some (.valueString s, input)
      else if isNumberStart c then
        andThen (scanNumber c) fun n input => some (.valueNumber n, input)
      -- a null byte is the end of the input as well
      else if c = 0 then fun input => some (.endOfInput, input)
      else fun _ => none

def scan (input : Bytes) : Token × Bytes :=
  match input.dropWhile isSpace with
  | [] => (.endOfInput, [])
  | c :: input => (scanAt c input).getD (.parseError, [])

/-- `skip_bom`; `none` when a byte order mark is cut off. -/
def skipBom : Bytes → Option Bytes
  | 0xEF :: 0xBB :: 0xBF :: input => some input
  | 0xEF :: _ => none
  | input => some input

/-- Tokens after which the input goes on. -/
def Token.proper : Token → Bool
  | .parseError | .endOfInput => false
  | _ => true

/-- Tokens that end at a byte which is put back. -/
def Token.number : Token → Bool
  | .valueNumber _ => true
  | _ => false

theorem scanLiteral_local (literal : Bytes) (t : Token) : Local (scanLiteral literal t) := by
  intro input t' rest read
  simp only [scanLiteral] at read
  split_ifs at read with found
  obtain ⟨later, rfl⟩ := found
  cases read
  refine ⟨literal, by simp, fun more => ?_⟩
  simp [scanLiteral]

theorem scanAt_local {c : UInt8} (other : isNumberStart c = false) : Local (scanAt c) := by
  unfold scanAt
  split
  · exact local_pure _
  · exact scanLiteral_local _ _
  · rw [other]
    split_ifs with quote number
    · exact (scanString_local []).andThen fun _ => local_pure _
    · cases number
    · exact local_pure _
    · exact local_none

theorem scanAt_number {c : UInt8} (start : isNumberStart c = true) :
    scanAt c = andThen (scanNumber c) fun n input => some (.valueNumber n, input) := by
  have ne : ∀ c', isNumberStart c' = false → c ≠ c' := by
    rintro c' other rfl
    rw [start] at other
    cases other
  have first : structural c = none := by
    simp only [structural, if_neg (ne (byte '[') rfl), if_neg (ne (byte ']') rfl),
      if_neg (ne (byte '{') rfl), if_neg (ne (byte '}') rfl), if_neg (ne (byte ':') rfl),
      if_neg (ne (byte ',') rfl)]
  have second : literal c = none := by
    simp only [literal, if_neg (ne (byte 't') rfl), if_neg (ne (byte 'f') rfl),
      if_neg (ne (byte 'n') rfl)]
  simp only [scanAt, first, second, if_neg (ne (byte '"') rfl), start, if_true]

theorem scanAt_peeking (c : UInt8) : Peeking (scanAt c) := by
  cases start : isNumberStart c with
  | false => exact (scanAt_local start).peeking
  | true =>
      rw [scanAt_number start]
      exact (scanNumber_peeking c).andThen fun n => (local_pure _).peeking

theorem scanAt_kind {c : UInt8} {input rest : Bytes} {t : Token} (start : isNumberStart c = true)
    (read : scanAt c input = some (t, rest)) : t.number = true := by
  rw [scanAt_number start] at read
  obtain ⟨⟨n, _⟩, _, same⟩ := Option.bind_eq_some_iff.mp read
  cases same
  rfl

theorem scan_spaces {spaces input : Bytes} {c : UInt8} (all : ∀ b ∈ spaces, isSpace b = true)
    (start : isSpace c = false) :
    scan (spaces ++ c :: input) = (scanAt c input).getD (.parseError, []) := by
  have skipped : (spaces ++ c :: input).dropWhile isSpace = c :: input :=
    (span_append all fun b head => by
      cases head
      exact start).2
  simp only [scan, skipped]

theorem scan_start {c : UInt8} (plain : isSpace c = false) (input : Bytes) :
    scan (c :: input) = (scanAt c input).getD (.parseError, []) :=
  scan_spaces (List.forall_mem_nil _) plain

/-- Where the token starts that `scan` found. -/
theorem scan_found {input rest : Bytes} {t : Token} (read : scan input = (t, rest))
    (proper : t.proper = true) : ∃ spaces c input', input = spaces ++ c :: input' ∧
      (∀ b ∈ spaces, isSpace b = true) ∧ isSpace c = false ∧ scanAt c input' = some (t, rest) := by
  unfold scan at read
  split at read
  · cases read
    cases proper
  · rename_i c input' found
    refine ⟨input.takeWhile isSpace, c, input', ?_, fun b => List.mem_takeWhile_imp, ?_, ?_⟩
    · rw [← found, List.takeWhile_append_dropWhile]
    · have head := List.head?_dropWhile_not isSpace input
      rw [found] at head
      simpa using head
    · cases scanned : scanAt c input' with
      | none =>
          rw [scanned] at read
          cases read
          cases proper
      | some r =>
          rw [scanned] at read
          exact congrArg some read

/-- A token is read again from the bytes it was read from, whatever follows; behind a number
the next byte has to be the same. -/
theorem scan_again {input rest : Bytes} {t : Token} (read : scan input = (t, rest))
    (proper : t.proper = true) : ∃ taken, taken ≠ [] ∧ input = taken ++ rest ∧
      ∀ more, t.number = false ∨ more.head? = rest.head? → scan (taken ++ more) = (t, more) := by
  obtain ⟨spaces, c, input', rfl, all, start, here⟩ := scan_found read proper
  have again : ∀ taken more, scanAt c (taken ++ more) = some (t, more) →
      scan ((spaces ++ c :: taken) ++ more) = (t, more) := by
    intro taken more scanned
    rw [List.append_assoc, List.cons_append, scan_spaces all start, scanned, Option.getD_some]
  cases number : isNumberStart c with
  | false =>
      obtain ⟨taken, rfl, local'⟩ := scanAt_local number here
      exact ⟨spaces ++ c :: taken, by simp, by simp, fun more _ => again taken more (local' more)⟩
  | true =>
      obtain ⟨taken, rfl, peek⟩ := scanAt_peeking c here
      refine ⟨spaces ++ c :: taken, by simp, by simp, fun more next => again taken more ?_⟩
      rcases next with other | same
      · rw [scanAt_kind number here] at other
        cases other
      · exact peek more same

theorem scan_le (input : Bytes) : (scan input).2.length ≤ input.length := by
  have skipped : (input.dropWhile isSpace).length ≤ input.length := List.length_dropWhile_le _ _
  unfold scan
  split
  · exact Nat.zero_le _
  · rename_i c input' found
    rw [found] at skipped
    cases scanned : scanAt c input' with
    | none => exact Nat.zero_le _
    | some r => exact Nat.le_trans ((scanAt_peeking c).le scanned) (Nat.le_of_succ_le skipped)

end AsyncRpc.Wire
