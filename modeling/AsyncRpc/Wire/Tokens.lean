import AsyncRpc.Wire.Parser
import AsyncRpc.Wire.Serializer

/-! The scanner reads back the strings and numbers that the serializer wrote. -/
namespace AsyncRpc.Wire
open Reading Relation

/-! Strings. -/

def utf8 (s : String) : Bytes := s.toList.flatMap String.utf8EncodeChar

theorem ofUtf8_utf8 (s : String) : ofUtf8 (utf8 s) = some s := by
  have bytes : (utf8 s).toByteArray = s.toByteArray := String.utf8Encode_toList
  rw [ofUtf8, bytes, String.fromUTF8?, dif_pos s.isValidUTF8]
  rfl

theorem hexDigit_hexByte {d : Nat} (small : d < 16) : hexDigit (hexByte d) = some d := by
  have all : ∀ d : Fin 16, hexDigit (hexByte d) = some d.val := by decide
  exact all ⟨d, small⟩

theorem getCodepoint_hex {n : Nat} (small : n < 0x10000) (input : Bytes) :
    getCodepoint (hexByte (n / 0x1000 % 16) :: hexByte (n / 0x100 % 16) ::
      hexByte (n / 0x10 % 16) :: hexByte (n % 16) :: input) = some (n, input) := by
  have digit : ∀ k, hexDigit (hexByte (k % 16)) = some (k % 16) := fun k =>
    hexDigit_hexByte (Nat.mod_lt k (by decide))
  simp only [getCodepoint, getHex, onHead, digit, Nat.shiftLeft_eq]
  congr 2
  omega

theorem nextByteInRange_cons {added input : Bytes} {low high c : UInt8}
    {ranges : List (UInt8 × UInt8)} (within : low ≤ c ∧ c ≤ high) :
    nextByteInRange added ((low, high) :: ranges) (c :: input) =
      nextByteInRange (added ++ [c]) ranges input := by
  simp only [nextByteInRange, onHead, if_pos within]

/-- `ranges` on the value of a byte. -/
theorem ranges_ofNat {k : Nat} (small : k < 256) : ranges (.ofNat k) =
    if k < 0x20 then none
    else if k < 0x80 then some []
    else if k < 0xC2 then none
    else if k < 0xE0 then some [(0x80, 0xBF)]
    else if k = 0xE0 then some [(0xA0, 0xBF), (0x80, 0xBF)]
    else if k = 0xED then some [(0x80, 0x9F), (0x80, 0xBF)]
    else if k < 0xF0 then some [(0x80, 0xBF), (0x80, 0xBF)]
    else if k = 0xF0 then some [(0x90, 0xBF), (0x80, 0xBF), (0x80, 0xBF)]
    else if k < 0xF4 then some [(0x80, 0xBF), (0x80, 0xBF), (0x80, 0xBF)]
    else if k = 0xF4 then some [(0x80, 0x8F), (0x80, 0xBF), (0x80, 0xBF)]
    else none := by
  have toNat : (UInt8.ofNat k).toNat = k := UInt8.toNat_ofNat_of_lt' small
  have eq : ∀ d : UInt8, UInt8.ofNat k = d ↔ k = d.toNat := by
    intro d
    rw [← UInt8.toNat_inj, toNat]
  simp only [ranges, UInt8.lt_iff_toNat_lt, eq, toNat, UInt8.reduceToNat]

theorem within_ofNat {k : Nat} {low high : UInt8} (above : low.toNat ≤ k) (below : k ≤ high.toNat)  :
    low ≤ UInt8.ofNat k ∧ UInt8.ofNat k ≤ high := by
  have toNat : (UInt8.ofNat k).toNat = k :=
    UInt8.toNat_ofNat_of_lt' (Nat.lt_of_le_of_lt below high.toNat_lt)
  simp only [UInt8.le_iff_toNat_le, toNat]
  exact ⟨above, below⟩

/-- The first byte `k` of a character and those in its ranges. -/
theorem scanPiece_bytes {k : Nat} {rs : List (UInt8 × UInt8)} {bytes input : Bytes}
    (small : k < 256) (quote : k ≠ 0x22) (solidus : k ≠ 0x5C) (found : ranges (.ofNat k) = some rs)
    (behind : nextByteInRange [.ofNat k] rs (bytes ++ input) = some (.ofNat k :: bytes, input)) :
    onHead scanPiece (.ofNat k :: bytes ++ input) = some (some (.ofNat k :: bytes), input) := by
  have ne : ∀ d : UInt8, k ≠ d.toNat → UInt8.ofNat k ≠ d := by
    rintro _ other rfl
    exact other (UInt8.toNat_ofNat_of_lt' small).symm
  simp only [List.cons_append, onHead, scanPiece, if_neg (ne (byte '"') quote),
    if_neg (ne (byte '\\') solidus), found, andThen, behind, Option.bind_some]

/-- The bytes of a character that is neither escaped nor a control character. -/
theorem scanPiece_utf8 {c : Char} (plain : 0x1F < c.toNat) (quote : c.toNat ≠ 0x22)
    (solidus : c.toNat ≠ 0x5C) (input : Bytes) :
    onHead scanPiece (String.utf8EncodeChar c ++ input) =
      some (some (String.utf8EncodeChar c), input) := by
  have valid : c.toNat < 0xD800 ∨ 0xDFFF < c.toNat ∧ c.toNat < 0x110000 := c.valid
  have value : c.val.toNat = c.toNat := rfl
  unfold String.utf8EncodeChar
  simp only [value]
  split_ifs with one two three
  · apply scanPiece_bytes (by omega) quote solidus
    · rw [ranges_ofNat (by omega), if_neg (by omega), if_pos (by omega)]
    · rfl
  · apply scanPiece_bytes (by omega) (by omega) (by omega)
    · rw [ranges_ofNat (by omega), if_neg (by omega), if_neg (by omega), if_neg (by omega),
        if_pos (by omega)]
    · exact nextByteInRange_cons (within_ofNat (by simp) (by simp; omega))
  · have continues : ∀ low high : UInt8, low.toNat ≤ c.toNat / 64 % 64 + 0x80 →
        c.toNat / 64 % 64 + 0x80 ≤ high.toNat → ∀ first, nextByteInRange [first]
          [(low, high), (0x80, 0xBF)] (.ofNat (c.toNat / 64 % 64 + 0x80) ::
            .ofNat (c.toNat % 64 + 0x80) :: input) = some ([first,
              .ofNat (c.toNat / 64 % 64 + 0x80), .ofNat (c.toNat % 64 + 0x80)], input) := by
      intro low high above below first
      rw [nextByteInRange_cons (within_ofNat above below),
        nextByteInRange_cons (within_ofNat (by simp) (by simp; omega))]
      rfl
    by_cases lowest : c.toNat < 0x1000
    · apply scanPiece_bytes (by omega) (by omega) (by omega)
      · rw [ranges_ofNat (by omega), if_neg (by omega), if_neg (by omega), if_neg (by omega),
          if_neg (by omega), if_pos (by omega)]
      · exact continues 0xA0 0xBF (by simp; omega) (by simp; omega) _
    · by_cases surrogates : 0xD000 ≤ c.toNat ∧ c.toNat < 0xE000
      · apply scanPiece_bytes (by omega) (by omega) (by omega)
        · rw [ranges_ofNat (by omega), if_neg (by omega), if_neg (by omega), if_neg (by omega),
            if_neg (by omega), if_neg (by omega), if_pos (by omega)]
        · exact continues 0x80 0x9F (by simp) (by simp; omega) _
      · apply scanPiece_bytes (by omega) (by omega) (by omega)
        · rw [ranges_ofNat (by omega), if_neg (by omega), if_neg (by omega), if_neg (by omega),
            if_neg (by omega), if_neg (by omega), if_neg (by omega), if_pos (by omega)]
        · exact continues 0x80 0xBF (by simp) (by simp; omega) _
  · have continues : ∀ low high : UInt8, low.toNat ≤ c.toNat / 4096 % 64 + 0x80 →
        c.toNat / 4096 % 64 + 0x80 ≤ high.toNat → ∀ first, nextByteInRange [first]
          [(low, high), (0x80, 0xBF), (0x80, 0xBF)] (.ofNat (c.toNat / 4096 % 64 + 0x80) ::
            .ofNat (c.toNat / 64 % 64 + 0x80) :: .ofNat (c.toNat % 64 + 0x80) :: input) =
          some ([first, .ofNat (c.toNat / 4096 % 64 + 0x80), .ofNat (c.toNat / 64 % 64 + 0x80),
            .ofNat (c.toNat % 64 + 0x80)], input) := by
      intro low high above below first
      rw [nextByteInRange_cons (within_ofNat above below),
        nextByteInRange_cons (within_ofNat (by simp) (by simp; omega)),
        nextByteInRange_cons (within_ofNat (by simp) (by simp; omega))]
      rfl
    by_cases lowest : c.toNat < 0x40000
    · apply scanPiece_bytes (by omega) (by omega) (by omega)
      · rw [ranges_ofNat (by omega), if_neg (by omega), if_neg (by omega), if_neg (by omega),
          if_neg (by omega), if_neg (by omega), if_neg (by omega), if_neg (by omega),
          if_pos (by omega)]
      · exact continues 0x90 0xBF (by simp; omega) (by simp; omega) _
    · by_cases highest : c.toNat < 0x100000
      · apply scanPiece_bytes (by omega) (by omega) (by omega)
        · rw [ranges_ofNat (by omega), if_neg (by omega), if_neg (by omega), if_neg (by omega),
            if_neg (by omega), if_neg (by omega), if_neg (by omega), if_neg (by omega),
            if_neg (by omega), if_pos (by omega)]
        · exact continues 0x80 0xBF (by simp) (by simp; omega) _
      · apply scanPiece_bytes (by omega) (by omega) (by omega)
        · rw [ranges_ofNat (by omega), if_neg (by omega), if_neg (by omega), if_neg (by omega),
            if_neg (by omega), if_neg (by omega), if_neg (by omega), if_neg (by omega),
            if_neg (by omega), if_neg (by omega), if_pos (by omega)]
        · exact continues 0x80 0x8F (by simp) (by simp; omega) _

/-- What `dump_escaped` writes for a character `scan_string` reads as that character. -/
theorem scanPiece_escape (c : Char) (input : Bytes) :
    onHead scanPiece (escape c ++ input) = some (some (String.utf8EncodeChar c), input) := by
  have named : ∀ n, c.toNat = n → c = Char.ofNat n := by
    rintro n rfl
    exact (Char.ofNat_toNat c).symm
  unfold escape
  split_ifs with h₁ h₂ h₃ h₄ h₅ h₆ h₇ control
  · rw [named _ h₁]; rfl
  · rw [named _ h₂]; rfl
  · rw [named _ h₃]; rfl
  · rw [named _ h₄]; rfl
  · rw [named _ h₅]; rfl
  · rw [named _ h₆]; rfl
  · rw [named _ h₇]; rfl
  · have code := getCodepoint_hex (n := c.toNat) (by omega) input
    have one : String.utf8EncodeChar c = [.ofNat c.toNat] := by
      rw [String.utf8EncodeChar]
      exact if_pos (Nat.le_trans control (by decide))
    have escaped : scanEscape (byte 'u' :: hexByte (c.toNat / 0x1000 % 16) ::
        hexByte (c.toNat / 0x100 % 16) :: hexByte (c.toNat / 0x10 % 16) ::
        hexByte (c.toNat % 16) :: input) = some ([.ofNat c.toNat], input) := by
      simp only [scanEscape, onHead, if_true, scanCodepoint, andThen, code, Option.bind_some]
      rw [if_neg (by omega), if_neg (by omega), encode, if_pos (by omega)]
    have quote : byte '\\' ≠ byte '"' := by decide
    have start : text "\\u" = [byte '\\', byte 'u'] := rfl
    simp only [start, List.cons_append, List.nil_append, onHead, scanPiece, if_neg quote, if_true,
      andThen, escaped, Option.bind_some, one]
  · exact scanPiece_utf8 (by omega) h₆ h₇ input

theorem scanString_escaped (cs : List Char) (added input : Bytes) :
    scanString added (cs.flatMap escape ++ byte '"' :: input) =
      some (added ++ cs.flatMap String.utf8EncodeChar, input) := by
  induction cs generalizing added with
  | nil =>
      have closed : onHead scanPiece (byte '"' :: input) = some (none, input) := rfl
      rw [scanString, List.flatMap_nil, List.nil_append, closed, List.flatMap_nil, List.append_nil]
  | cons c cs ih =>
      rw [scanString, List.flatMap_cons, List.append_assoc, scanPiece_escape]
      simp only [ih, List.flatMap_cons, List.append_assoc]

theorem scan_string (s : String) (input : Bytes) :
    scan (byte '"' :: (dumpEscaped s ++ byte '"' :: input)) = (.valueString (utf8 s), input) := by
  have whole := scanString_escaped s.toList [] input
  rw [List.nil_append] at whole
  have first : structural (byte '"') = none ∧ literal (byte '"') = none := ⟨rfl, rfl⟩
  rw [scan_start rfl]
  simp only [scanAt, first, if_true, andThen, dumpEscaped, whole, Option.bind_some, Option.getD_some,
    utf8]

/-! Numbers. -/

theorem isDigit_hexByte {d : Nat} (small : d < 10) : isDigit (hexByte d) = true := by
  have all : ∀ d : Fin 10, isDigit (hexByte d) = true := by decide
  exact all ⟨d, small⟩

theorem toNat_hexByte {d : Nat} (small : d < 10) : (hexByte d).toNat - 0x30 = d := by
  have all : ∀ d : Fin 10, (hexByte d).toNat - 0x30 = d.val := by decide
  exact all ⟨d, small⟩

theorem hexByte_zero {d : Nat} (small : d < 10) (zero : hexByte d = byte '0') : d = 0 := by
  have all : ∀ d : Fin 10, hexByte d = byte '0' → d.val = 0 := by decide
  exact all ⟨d, small⟩ zero

theorem decimal_append (digits : Bytes) (c : UInt8) :
    decimal (digits ++ [c]) = decimal digits * 10 + (c.toNat - 0x30) := by
  simp [decimal]

theorem dumpDigits_digits (n : Nat) : ∀ c ∈ dumpDigits n, isDigit c = true := by
  fun_induction dumpDigits n with
  | case1 n large ih =>
      intro c member
      simp only [List.mem_append, List.mem_cons, List.not_mem_nil, or_false] at member
      rcases member with member | rfl | rfl
      · exact ih c member
      · exact isDigit_hexByte (by omega)
      · exact isDigit_hexByte (by omega)
  | case2 n _ two =>
      intro c member
      simp only [List.mem_cons, List.not_mem_nil, or_false] at member
      rcases member with rfl | rfl
      · exact isDigit_hexByte (by omega)
      · exact isDigit_hexByte (by omega)
  | case3 n _ one =>
      intro c member
      rw [List.mem_singleton.mp member]
      exact isDigit_hexByte (by omega)

theorem decimal_dumpDigits (n : Nat) : decimal (dumpDigits n) = n := by
  fun_induction dumpDigits n with
  | case1 n large ih =>
      rw [List.append_cons, decimal_append, decimal_append, ih, toNat_hexByte (by omega),
        toNat_hexByte (by omega)]
      omega
  | case2 n _ two =>
      have tens := decimal_append [hexByte (n / 10)] (hexByte (n % 10))
      rw [toNat_hexByte (by omega)] at tens
      refine tens.trans ?_
      have ten := decimal_append [] (hexByte (n / 10))
      rw [toNat_hexByte (by omega)] at ten
      rw [List.nil_append] at ten
      rw [ten]
      simp only [decimal, List.foldl_nil]
      omega
  | case3 n _ one =>
      have digit := decimal_append [] (hexByte n)
      rw [toNat_hexByte (by omega)] at digit
      simpa [decimal] using digit

/-- A leading zero is the only digit. -/
theorem dumpDigits_head (n : Nat) : ∃ c digits, dumpDigits n = c :: digits ∧
    (c = byte '0' → n = 0 ∧ digits = []) := by
  fun_induction dumpDigits n with
  | case1 n large ih =>
      obtain ⟨c, digits, split, zero⟩ := ih
      refine ⟨c, digits ++ _, by rw [split, List.cons_append], fun same => ?_⟩
      have none := (zero same).1
      omega
  | case2 n _ two =>
      refine ⟨_, _, rfl, fun same => ?_⟩
      have none := hexByte_zero (by omega) same
      omega
  | case3 n _ one => exact ⟨_, _, rfl, fun same => ⟨hexByte_zero (by omega) same, rfl⟩⟩

/-- No number goes on at the start of this input. -/
def Ends (input : Bytes) : Prop :=
  ∀ c, input.head? = some c → isDigit c = false ∧ c ≠ byte '.' ∧ c ≠ byte 'e' ∧ c ≠ byte 'E'

theorem scanZero_ends {number input : Bytes} (ends : Ends input) :
    scanZero number input = some (convert number, input) := by
  cases input with
  | nil => rfl
  | cons c input =>
      obtain ⟨_, point, e, E⟩ := ends c rfl
      simp only [scanZero, if_neg point, e, E, or_self, if_false]

theorem scanFirst_digits {number digits rest : Bytes} {c : UInt8} (digit : isDigit c = true)
    (all : ∀ d ∈ digits, isDigit d = true) (zero : c = byte '0' → digits = [])
    (stops : ∀ d, rest.head? = some d → isDigit d = false) :
    scanFirst number c (digits ++ rest) = scanZero (number ++ c :: digits) rest := by
  unfold scanFirst
  split_ifs with first
  · rw [zero first, List.nil_append]
  · obtain ⟨taking, dropping⟩ := span_append all stops
    rw [scanAny1, onSpan, taking, dropping, List.append_assoc, List.singleton_append]

theorem scan_number {c : UInt8} {input rest : Bytes} {n : Number} (start : isNumberStart c = true)
    (read : scanNumber c input = some (n, rest)) :
    scan (c :: input) = (.valueNumber n, rest) := by
  have plain : isSpace c = false := by
    cases space : isSpace c with
    | false => rfl
    | true =>
        simp only [isSpace, Bool.or_eq_true, beq_iff_eq] at space
        rcases space with ((rfl | rfl) | rfl) | rfl <;> cases start
  simp only [scan_start plain, scanAt_number start, andThen, read, Option.bind_some, Option.getD_some]

theorem digit_ne_minus {c : UInt8} (digit : isDigit c = true) : c ≠ byte '-' := by
  rintro rfl
  cases digit

theorem scan_dumpDigits {n : Nat} (small : n < 2 ^ 64) {rest : Bytes} (ends : Ends rest) :
    scan (dumpDigits n ++ rest) = (.valueNumber (.unsigned n), rest) := by
  have all := dumpDigits_digits n
  have value := decimal_dumpDigits n
  obtain ⟨c, digits, split, zero⟩ := dumpDigits_head n
  rw [split] at all value ⊢
  have digit := all c List.mem_cons_self
  have converted : convert (c :: digits) = .unsigned n := by
    rw [convert, List.head?_cons, if_neg fun minus => digit_ne_minus digit (Option.some.inj minus),
      value, if_pos small]
  rw [List.cons_append]
  apply scan_number (by simp [isNumberStart, digit])
  rw [scanNumber, if_neg (digit_ne_minus digit), scanFirst_digits digit
    (fun d member => all d (List.mem_cons_of_mem c member)) (fun same => (zero same).2)
    fun d head => (ends d head).1]
  rw [List.nil_append, scanZero_ends ends, converted]

theorem scan_negative {n : Nat} (small : n ≤ 2 ^ 63) {rest : Bytes} (ends : Ends rest) :
    scan (byte '-' :: dumpDigits n ++ rest) = (.valueNumber (.integer (-n)), rest) := by
  have all := dumpDigits_digits n
  have value := decimal_dumpDigits n
  obtain ⟨c, digits, split, zero⟩ := dumpDigits_head n
  rw [split] at all value ⊢
  have digit := all c List.mem_cons_self
  have converted : convert (byte '-' :: c :: digits) = .integer (-n) := by
    rw [convert, List.head?_cons, if_pos rfl, List.tail_cons, value, if_pos small]
  rw [List.cons_append, List.cons_append]
  apply scan_number rfl
  rw [scanNumber, if_pos rfl, scanMinus, onHead, scanFirst_digits digit
    (fun d member => all d (List.mem_cons_of_mem c member)) (fun same => (zero same).2)
    fun d head => (ends d head).1]
  rw [List.singleton_append, scanZero_ends ends, converted]

/-- The form in which `to_chars` writes a double: digits with a fraction, an exponent or
both. -/
structure FloatText (number : Bytes) where
  minus : Bool
  first : UInt8
  digits : Bytes
  fraction : Bytes
  exponent : Option (UInt8 × Bytes)
  whole : number = (if minus then [byte '-'] else []) ++ first :: digits ++
    (if fraction = [] then [] else byte '.' :: fraction) ++
    (exponent.elim [] fun e => byte 'e' :: e.1 :: e.2)
  digits_digits : ∀ c ∈ first :: digits, isDigit c = true
  leading : first = byte '0' → digits = []
  fraction_digits : ∀ c ∈ fraction, isDigit c = true
  exponent_digits : ∀ e ∈ exponent, (e.1 = byte '+' ∨ e.1 = byte '-') ∧ e.2 ≠ [] ∧
    ∀ c ∈ e.2, isDigit c = true
  float : fraction ≠ [] ∨ exponent ≠ none

def FloatText.behind {number : Bytes} (form : FloatText number) : Bytes :=
  (if form.fraction = [] then [] else byte '.' :: form.fraction) ++
    (form.exponent.elim [] fun e => byte 'e' :: e.1 :: e.2)

theorem scanExponent_digits (number : Bytes) {digits rest : Bytes} {sign : UInt8}
    (signed : sign = byte '+' ∨ sign = byte '-') (nonempty : digits ≠ [])
    (all : ∀ c ∈ digits, isDigit c = true) (ends : Ends rest) :
    scanExponent number (sign :: digits ++ rest) = some (.float (number ++ sign :: digits), rest) := by
  cases digits with
  | nil => exact absurd rfl nonempty
  | cons c digits =>
      obtain ⟨taking, dropping⟩ := span_append (fun d member => all d (List.mem_cons_of_mem c member))
        fun d head => (ends d head).1
      simp only [List.cons_append, scanExponent, onHead, if_pos signed, scanSign,
        all c List.mem_cons_self, if_true, scanAny2, onSpan, taking, dropping, List.append_assoc,
        List.nil_append]

/-- What follows the digits of a double. -/
theorem scanFraction_exponent (number : Bytes) {rest : Bytes} {exponent : Option (UInt8 × Bytes)}
    (valid : ∀ e ∈ exponent, (e.1 = byte '+' ∨ e.1 = byte '-') ∧ e.2 ≠ [] ∧
      ∀ c ∈ e.2, isDigit c = true) (ends : Ends rest) :
    scanFraction number ((exponent.elim [] fun e => byte 'e' :: e.1 :: e.2) ++ rest) =
      some (.float (number ++ exponent.elim [] fun e => byte 'e' :: e.1 :: e.2), rest) := by
  cases exponent with
  | none =>
      cases rest with
      | nil => simp [scanFraction]
      | cons c rest =>
          obtain ⟨_, _, e, E⟩ := ends c rfl
          simp [scanFraction, e, E]
  | some e =>
      obtain ⟨signed, nonempty, all⟩ := valid e rfl
      have behind := scanExponent_digits (number ++ [byte 'e']) signed nonempty all ends
      simpa [scanFraction] using behind

/-- The digits before the point or the exponent, and what follows them. -/
theorem scanFirst_float {number rest : Bytes} (form : FloatText number) (before : Bytes)
    (ends : Ends rest) : scanFirst before form.first (form.digits ++ (form.behind ++ rest)) =
      some (.float (before ++ form.first :: form.digits ++ form.behind), rest) := by
  have exponentStops : ∀ c, ((form.exponent.elim [] fun e => byte 'e' :: e.1 :: e.2) ++ rest).head? =
      some c → isDigit c = false := by
    intro c head
    cases has : form.exponent with
    | none =>
        rw [has] at head
        exact (ends c head).1
    | some e =>
        rw [has] at head
        cases head
        rfl
  have digit := form.digits_digits form.first List.mem_cons_self
  have all : ∀ d ∈ form.digits, isDigit d = true := fun d member =>
    form.digits_digits d (List.mem_cons_of_mem _ member)
  cases fraction : form.fraction with
  | nil =>
      obtain ⟨e, has⟩ := Option.ne_none_iff_exists'.mp (form.float.resolve_left (absurd fraction))
      obtain ⟨signed, nonempty, exponent⟩ := form.exponent_digits e has
      have behind : form.behind = byte 'e' :: e.1 :: e.2 := by simp [FloatText.behind, fraction, has]
      rw [behind, scanFirst_digits digit all form.leading fun d head => by cases head; rfl]
      have read := scanExponent_digits (before ++ form.first :: form.digits ++ [byte 'e'])
        signed nonempty exponent ends
      have other : byte 'e' ≠ byte '.' := by decide
      simpa [scanZero, other] using read
  | cons f fs =>
      have behind : form.behind =
          byte '.' :: f :: fs ++ (form.exponent.elim [] fun e => byte 'e' :: e.1 :: e.2) := by
        simp [FloatText.behind, fraction]
      have decimals := form.fraction_digits
      rw [fraction] at decimals
      obtain ⟨taking, dropping⟩ := span_append
        (fun d member => decimals d (List.mem_cons_of_mem f member)) exponentStops
      rw [behind, scanFirst_digits digit all form.leading fun d head => by cases head; rfl]
      have read := scanFraction_exponent
        (before ++ form.first :: form.digits ++ [byte '.'] ++ [f] ++ fs)
        form.exponent_digits ends
      simp only [List.cons_append, List.append_assoc, scanZero, if_true, scanDecimal1, onHead,
        decimals f List.mem_cons_self, scanDecimal2, onSpan, taking, dropping]
      simpa using read

theorem scan_float {number rest : Bytes} (form : FloatText number) (ends : Ends rest) :
    scan (number ++ rest) = (.valueNumber (.float number), rest) := by
  have digit := form.digits_digits form.first List.mem_cons_self
  have split : number = (if form.minus then [byte '-'] else []) ++ form.first :: form.digits ++
      form.behind := by
    rw [FloatText.behind, ← List.append_assoc]
    exact form.whole
  cases sign : form.minus with
  | false =>
      rw [sign] at split
      have read := scanFirst_float form [] ends
      rw [List.nil_append] at read
      have whole : number = form.first :: (form.digits ++ form.behind) := by simpa using split
      have start : isNumberStart form.first = true := by simp [isNumberStart, digit]
      rw [whole, List.cons_append, List.append_assoc]
      apply scan_number start
      rw [scanNumber, if_neg (digit_ne_minus digit), read, List.cons_append]
  | true =>
      rw [sign] at split
      have read := scanFirst_float form [byte '-'] ends
      have whole : number = byte '-' :: form.first :: (form.digits ++ form.behind) := by
        simpa using split
      rw [whole, List.cons_append, List.cons_append, List.append_assoc]
      apply scan_number rfl
      rw [scanNumber, if_pos rfl, scanMinus, onHead, read, List.append_assoc, List.singleton_append,
        List.cons_append]

end AsyncRpc.Wire
