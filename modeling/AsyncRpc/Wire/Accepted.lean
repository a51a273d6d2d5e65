import AsyncRpc.Wire.RoundTrip

/-! What the parser lets through: well-formed text, numbers of 64 bits, and objects with
one member for a key. -/
namespace AsyncRpc.Wire
open Reading Relation
open Json (normal normalItems normalMembers)

/-! Strings. -/

/-- The bytes of a character. -/
def OneChar (bytes : Bytes) : Prop := ∃ c : Char, bytes = String.utf8EncodeChar c

/-- The encoding of a code point, as `String.utf8EncodeChar` computes it. -/
theorem oneChar_encoded {n : Nat} (valid : n.isValidChar) :
    OneChar (if n ≤ 0x7F then [.ofNat n]
      else if n ≤ 0x7FF then [.ofNat (n / 64 % 0x20 + 0xC0), .ofNat (n % 64 + 0x80)]
      else if n ≤ 0xFFFF then
        [.ofNat (n / 4096 % 0x10 + 0xE0), .ofNat (n / 64 % 64 + 0x80), .ofNat (n % 64 + 0x80)]
      else
        [.ofNat (n / 262144 % 8 + 0xF0), .ofNat (n / 4096 % 64 + 0x80),
          .ofNat (n / 64 % 64 + 0x80), .ofNat (n % 64 + 0x80)]) := by
  obtain ⟨c, value⟩ : ∃ c : Char, c.val.toNat = n := ⟨Char.ofNatAux n valid, rfl⟩
  refine ⟨c, ?_⟩
  simp only [String.utf8EncodeChar, value]

theorem ofNat_eq {k : Nat} {b : UInt8} (same : k = b.toNat) : UInt8.ofNat k = b := by
  rw [same, UInt8.ofNat_toNat]

theorem oneChar_one {a : UInt8} (low : a.toNat ≤ 0x7F) : OneChar [a] := by
  have encoded := oneChar_encoded (n := a.toNat) (.inl (by omega))
  rw [if_pos low, ofNat_eq rfl] at encoded
  exact encoded

theorem oneChar_two {a b : UInt8} (first : 0xC2 ≤ a.toNat ∧ a.toNat < 0xE0)
    (second : 0x80 ≤ b.toNat ∧ b.toNat ≤ 0xBF) : OneChar [a, b] := by
  have encoded := oneChar_encoded (n := (a.toNat - 0xC0) * 64 + (b.toNat - 0x80)) (.inl (by omega))
  rw [if_neg (by omega), if_pos (by omega), ofNat_eq (b := a) (by omega),
    ofNat_eq (b := b) (by omega)] at encoded
  exact encoded

theorem oneChar_three {a b c : UInt8} (first : 0xE0 ≤ a.toNat ∧ a.toNat < 0xF0)
    (second : 0x80 ≤ b.toNat ∧ b.toNat ≤ 0xBF) (third : 0x80 ≤ c.toNat ∧ c.toNat ≤ 0xBF)
    (long : a.toNat = 0xE0 → 0xA0 ≤ b.toNat) (surrogate : a.toNat = 0xED → b.toNat ≤ 0x9F) :
    OneChar [a, b, c] := by
  have encoded := oneChar_encoded
    (n := (a.toNat - 0xE0) * 4096 + (b.toNat - 0x80) * 64 + (c.toNat - 0x80)) (by
      unfold Nat.isValidChar
      omega)
  rw [if_neg (by omega), if_neg (by omega), if_pos (by omega), ofNat_eq (b := a) (by omega),
    ofNat_eq (b := b) (by omega), ofNat_eq (b := c) (by omega)] at encoded
  exact encoded

theorem oneChar_four {a b c d : UInt8} (first : 0xF0 ≤ a.toNat ∧ a.toNat ≤ 0xF4)
    (second : 0x80 ≤ b.toNat ∧ b.toNat ≤ 0xBF) (third : 0x80 ≤ c.toNat ∧ c.toNat ≤ 0xBF)
    (fourth : 0x80 ≤ d.toNat ∧ d.toNat ≤ 0xBF) (long : a.toNat = 0xF0 → 0x90 ≤ b.toNat)
    (last : a.toNat = 0xF4 → b.toNat ≤ 0x8F) : OneChar [a, b, c, d] := by
  have encoded := oneChar_encoded (n := (a.toNat - 0xF0) * 262144 + (b.toNat - 0x80) * 4096 +
    (c.toNat - 0x80) * 64 + (d.toNat - 0x80)) (by
      unfold Nat.isValidChar
      omega)
  rw [if_neg (by omega), if_neg (by omega), if_neg (by omega), ofNat_eq (b := a) (by omega),
    ofNat_eq (b := b) (by omega), ofNat_eq (b := c) (by omega), ofNat_eq (b := d) (by omega)] at encoded
  exact encoded

/-- `encode` computes with bits. -/
theorem encode_eq {n : Nat} (small : n < 0x110000) : encode n =
    if n ≤ 0x7F then [.ofNat n]
    else if n ≤ 0x7FF then [.ofNat (n / 64 % 0x20 + 0xC0), .ofNat (n % 64 + 0x80)]
    else if n ≤ 0xFFFF then
      [.ofNat (n / 4096 % 0x10 + 0xE0), .ofNat (n / 64 % 64 + 0x80), .ofNat (n % 64 + 0x80)]
    else
      [.ofNat (n / 262144 % 8 + 0xF0), .ofNat (n / 4096 % 64 + 0x80),
        .ofNat (n / 64 % 64 + 0x80), .ofNat (n % 64 + 0x80)] := by
  have mask : ∀ k, k &&& 0x3F = k % 64 := fun k => Nat.and_two_pow_sub_one_eq_mod k 6
  have continues : ∀ k, 0x80 ||| k % 64 = k % 64 + 0x80 := by
    have all : ∀ k : Fin 64, 0x80 ||| k.val = k.val + 0x80 := by decide
    exact fun k => all ⟨k % 64, Nat.mod_lt k (by decide)⟩
  have two : ∀ k, k < 0x20 → 0xC0 ||| k = k % 0x20 + 0xC0 := by
    have all : ∀ k : Fin 0x20, 0xC0 ||| k.val = k.val % 0x20 + 0xC0 := by decide
    exact fun k low => all ⟨k, low⟩
  have three : ∀ k, k < 0x10 → 0xE0 ||| k = k % 0x10 + 0xE0 := by
    have all : ∀ k : Fin 0x10, 0xE0 ||| k.val = k.val % 0x10 + 0xE0 := by decide
    exact fun k low => all ⟨k, low⟩
  have four : ∀ k, k < 8 → 0xF0 ||| k = k % 8 + 0xF0 := by
    have all : ∀ k : Fin 8, 0xF0 ||| k.val = k.val % 8 + 0xF0 := by decide
    exact fun k low => all ⟨k, low⟩
  simp only [encode, mask, continues, Nat.shiftRight_eq_div_pow]
  split_ifs with h₁ h₂ h₃ h₄ h₅ h₆ h₇ <;> try omega
  · rfl
  · rw [two _ (by omega)]
  · rw [three _ (by omega)]
  · rw [four _ (by omega)]

theorem encode_oneChar {n : Nat} (valid : n.isValidChar) : OneChar (encode n) := by
  rw [encode_eq (by unfold Nat.isValidChar at valid; omega)]
  exact oneChar_encoded valid

theorem hexDigit_small {c : UInt8} {d : Nat} (digit : hexDigit c = some d) : d < 16 := by
  unfold hexDigit at digit
  split_ifs at digit with decimal upper lower
  · have range : c.toNat ≤ 0x39 := decimal.2
    cases digit
    omega
  · have range : c.toNat ≤ 0x46 := upper.2
    cases digit
    omega
  · have range : c.toNat ≤ 0x66 := lower.2
    cases digit
    omega

theorem getHex_small (n codepoint : Nat) :
    Produces (getHex n codepoint) fun read => read < codepoint + 16 ^ n := by
  induction n generalizing codepoint with
  | zero => exact produces_pure (by omega)
  | succ n ih =>
      refine .onHead fun c => ?_
      split
      · rename_i d digit
        have small := hexDigit_small digit
        have power : d * 16 ^ n + 16 ^ n ≤ 16 ^ (n + 1) := by
          rw [Nat.pow_succ, Nat.mul_comm (16 ^ n), ← Nat.succ_mul]
          exact Nat.mul_le_mul_right _ small
        intro input read rest ok
        have below := ih _ ok
        rw [Nat.shiftLeft_eq, Nat.pow_mul, show 2 ^ 4 = 16 from rfl] at below
        exact Nat.lt_of_lt_of_le below (by omega)
      · exact produces_none

theorem scanCodepoint_oneChar : Produces scanCodepoint OneChar := by
  refine (getHex_small 4 0).andThen fun codepoint₁ small => ?_
  split_ifs with high low
  · refine .onHead fun c => .onHead fun c' => ?_
    split_ifs
    · refine (getHex_small 4 0).andThen fun codepoint₂ _ => ?_
      split_ifs with pair
      · refine produces_pure (encode_oneChar ?_)
        rw [Nat.shiftLeft_eq]
        unfold Nat.isValidChar
        omega
      · exact produces_none
    · exact produces_none
  · exact produces_none
  · refine produces_pure (encode_oneChar ?_)
    unfold Nat.isValidChar
    omega

theorem unescape_ascii {c b : UInt8} (escaped : unescape c = some b) : b.toNat ≤ 0x7F := by
  unfold unescape at escaped
  split_ifs at escaped with same <;> cases escaped
  · rcases same with rfl | rfl | rfl <;> decide
  all_goals decide

theorem scanEscape_oneChar : Produces scanEscape OneChar := by
  refine .onHead fun c => ?_
  split_ifs
  · exact scanCodepoint_oneChar
  · split
    · exact produces_pure (oneChar_one (unescape_ascii ‹_›))
    · exact produces_none

/-- What follows the bytes in `added` is in its ranges. -/
theorem nextByteInRange_within (added : Bytes) (ranges : List (UInt8 × UInt8)) :
    Produces (nextByteInRange added ranges) fun bytes => ∃ behind, bytes = added ++ behind ∧
      List.Forall₂ (fun b r => r.1.toNat ≤ b.toNat ∧ b.toNat ≤ r.2.toNat) behind ranges := by
  induction ranges generalizing added with
  | nil => exact produces_pure ⟨[], (List.append_nil added).symm, .nil⟩
  | cons range ranges ih =>
      refine .onHead fun c => ?_
      split_ifs with within
      · intro input bytes rest ok
        obtain ⟨behind, rfl, each⟩ := ih _ ok
        exact ⟨c :: behind, by rw [List.append_assoc, List.singleton_append], .cons within each⟩
      · exact produces_none

theorem ranges_oneChar {c : UInt8} {rs : List (UInt8 × UInt8)} (found : ranges c = some rs) :
    Produces (nextByteInRange [c] rs) OneChar := by
  intro input bytes rest ok
  obtain ⟨behind, rfl, within⟩ := nextByteInRange_within [c] rs ok
  have named : ∀ d : UInt8, c = d ↔ c.toNat = d.toNat := fun d => UInt8.toNat_inj.symm
  simp only [ranges, UInt8.lt_iff_toNat_lt, named, UInt8.reduceToNat] at found
  split_ifs at found with control one unused two long surrogate three long' four last <;> cases found
  · cases within
    exact oneChar_one (by omega)
  · rcases within with _ | ⟨b₁, _ | _⟩
    exact oneChar_two (by omega) b₁
  · rcases within with _ | ⟨b₁, _ | ⟨b₂, _ | _⟩⟩
    simp only [UInt8.reduceToNat] at b₁ b₂
    exact oneChar_three (by omega) (by omega) b₂ (by omega) (by omega)
  · rcases within with _ | ⟨b₁, _ | ⟨b₂, _ | _⟩⟩
    simp only [UInt8.reduceToNat] at b₁ b₂
    exact oneChar_three (by omega) (by omega) b₂ (by omega) (by omega)
  · rcases within with _ | ⟨b₁, _ | ⟨b₂, _ | _⟩⟩
    simp only [UInt8.reduceToNat] at b₁ b₂
    exact oneChar_three (by omega) (by omega) b₂ (by omega) (by omega)
  · rcases within with _ | ⟨b₁, _ | ⟨b₂, _ | ⟨b₃, _ | _⟩⟩⟩
    simp only [UInt8.reduceToNat] at b₁ b₂ b₃
    exact oneChar_four (by omega) (by omega) b₂ b₃ (by omega) (by omega)
  · rcases within with _ | ⟨b₁, _ | ⟨b₂, _ | ⟨b₃, _ | _⟩⟩⟩
    simp only [UInt8.reduceToNat] at b₁ b₂ b₃
    exact oneChar_four (by omega) (by omega) b₂ b₃ (by omega) (by omega)
  · rcases within with _ | ⟨b₁, _ | ⟨b₂, _ | ⟨b₃, _ | _⟩⟩⟩
    simp only [UInt8.reduceToNat] at b₁ b₂ b₃
    exact oneChar_four (by omega) (by omega) b₂ b₃ (by omega) (by omega)

theorem scanPiece_oneChar (c : UInt8) :
    Produces (scanPiece c) fun piece => ∀ bytes ∈ piece, OneChar bytes := by
  unfold scanPiece
  split_ifs
  · exact produces_pure nofun
  · exact scanEscape_oneChar.andThen fun bytes one => produces_pure (by rintro _ ⟨rfl⟩; exact one)
  · split
    · rename_i rs found
      exact (ranges_oneChar found).andThen fun bytes one =>
        produces_pure (by rintro _ ⟨rfl⟩; exact one)
    · exact produces_none

theorem scanString_utf8 (s : String) :
    Produces (scanString (utf8 s)) fun bytes => ∃ s', bytes = utf8 s' := by
  intro input bytes rest ok
  generalize begun : utf8 s = added at ok
  fun_induction scanString added input generalizing s with
  | case1 => cases ok
  | case2 added input rest piece =>
      cases ok
      exact ⟨s, begun.symm⟩
  | case3 added input more rest' piece ih =>
      obtain ⟨c, rfl⟩ := Produces.onHead scanPiece_oneChar piece more rfl
      refine ih (s.push c) ?_ ok
      rw [← begun]
      simp [utf8]

/-! Numbers. -/

/-- The numbers of 64 bits. -/
def Number.Fits : Number → Prop
  | .unsigned n => n < 2 ^ 64
  | .integer n => -2 ^ 63 ≤ n ∧ n < 2 ^ 63
  | .float _ => True

theorem convert_fits (number : Bytes) : (convert number).Fits := by
  unfold convert
  split_ifs with minus small small
  · simp only [Number.Fits]
    omega
  · trivial
  · exact small
  · trivial

theorem scanAny2_fits (number : Bytes) : Produces (scanAny2 number) Number.Fits :=
  .onSpan fun _ => produces_pure trivial

theorem scanExponent_fits (number : Bytes) : Produces (scanExponent number) Number.Fits := by
  refine .onHead fun c => ?_
  split_ifs
  · refine .onHead fun c => ?_
    split_ifs
    · exact scanAny2_fits _
    · exact produces_none
  · exact scanAny2_fits _
  · exact produces_none

theorem scanFraction_fits (number : Bytes) : Produces (scanFraction number) Number.Fits := by
  intro input n rest read
  cases input with
  | nil =>
      cases read
      trivial
  | cons c input =>
      rw [scanFraction] at read
      split_ifs at read
      · exact scanExponent_fits _ read
      · cases read
        trivial

theorem scanZero_fits (number : Bytes) : Produces (scanZero number) Number.Fits := by
  intro input n rest read
  cases input with
  | nil =>
      cases read
      exact convert_fits number
  | cons c input =>
      rw [scanZero] at read
      split_ifs at read
      · refine Produces.onHead (fun c => ?_) read
        split_ifs
        · exact .onSpan fun _ => scanFraction_fits _
        · exact produces_none
      · exact scanExponent_fits _ read
      · cases read
        exact convert_fits number

theorem scanFirst_fits (number : Bytes) (c : UInt8) : Produces (scanFirst number c) Number.Fits := by
  unfold scanFirst
  split_ifs
  · exact scanZero_fits _
  · exact .onSpan fun _ => scanZero_fits _
  · exact produces_none

theorem scanNumber_fits (c : UInt8) : Produces (scanNumber c) Number.Fits := by
  unfold scanNumber
  split_ifs
  · exact .onHead fun c => scanFirst_fits _ c
  · exact scanFirst_fits _ c

/-! Tokens. -/

def Token.Fits : Token → Prop
  | .valueNumber n => n.Fits
  | .valueString s => ∃ s', s = utf8 s'
  | _ => True

theorem scanAt_fits (c : UInt8) : Produces (scanAt c) Token.Fits := by
  unfold scanAt
  split
  · rename_i t _ is
    refine produces_pure ?_
    unfold structural at is
    split_ifs at is <;> cases is <;> trivial
  · rename_i behind t _ is
    intro input t' rest read
    unfold literal at is
    unfold scanLiteral at read
    split_ifs at is read <;> cases is <;> cases read <;> trivial
  · split_ifs
    · exact (scanString_utf8 "").andThen fun s text => produces_pure text
    · exact (scanNumber_fits c).andThen fun n fits => produces_pure fits
    · exact produces_pure trivial
    · exact produces_none

/-- The strings that the scanner finds are well-formed UTF-8, and the integers have 64 bits. -/
theorem scan_fits {input rest : Bytes} {t : Token} (read : scan input = (t, rest)) : t.Fits := by
  by_cases proper : t.proper = true
  · obtain ⟨_, c, input', _, _, _, here⟩ := scan_found read proper
    exact scanAt_fits c here
  · cases t <;> trivial

/-- Only a double out of range makes the parser refuse a token that the scanner accepted as a
value: its strings are never refused. -/
theorem scalar_refuses {input rest : Bytes} {t : Token} (read : scan input = (t, rest))
    (strtod : Bytes → Option ℚ) :
    (∀ s, t = .valueString s → ∃ u : String, s = utf8 u ∧ scalar strtod t = .ok (.string u)) ∧
    (∀ n, t = .valueNumber n → n.Fits ∧ ((∃ v, scalar strtod t = .ok v) ∨
      ∃ number, n = .float number ∧ strtod number = none)) := by
  have fits := scan_fits read
  constructor
  · rintro s rfl
    obtain ⟨u, rfl⟩ := fits
    exact ⟨u, rfl, by simp only [scalar, ofUtf8_utf8]⟩
  · rintro n rfl
    refine ⟨fits, ?_⟩
    cases n with
    | unsigned n => exact .inl ⟨_, rfl⟩
    | integer n => exact .inl ⟨_, rfl⟩
    | float number =>
        cases value : strtod number with
        | none => exact .inr ⟨number, rfl, value⟩
        | some q => exact .inl ⟨.numberFloat q, by simp only [scalar, value]⟩

theorem scalar_refuses_escaped :
    scan (text "\"\\u00e9\"") = (.valueString [0xC3, 0xA9], []) ∧
      ((∀ s, Token.valueString [0xC3, 0xA9] = .valueString s → ∃ u : String, s = utf8 u ∧
        scalar half.2 (.valueString [0xC3, 0xA9]) = .ok (.string u)) ∧
      (∀ n, Token.valueString [0xC3, 0xA9] = .valueNumber n → n.Fits ∧
        ((∃ v, scalar half.2 (.valueString [0xC3, 0xA9]) = .ok v) ∨
          ∃ number, n = .float number ∧ half.2 number = none))) := by
  have read : scan (text "\"\\u00e9\"") = (.valueString [0xC3, 0xA9], []) := by decide +kernel
  exact ⟨read, scalar_refuses read half.2⟩

/-! Values. -/

variable (dumpFloat : ℚ → Bytes) (strtod : Bytes → Option ℚ)

def Frame.Stored : Frame → Prop
  | .array items => ∀ v ∈ items, Storable dumpFloat strtod v
  | .object members _ => Sorted members ∧ ∀ m ∈ members, Storable dumpFloat strtod m.2

/-- What the parser holds on its way. -/
def Progress.Stored : Progress → Prop
  | .value t _ frames => t.Fits ∧ ∀ f ∈ frames, f.Stored dumpFloat strtod
  | .evaluate v _ frames => Storable dumpFloat strtod v ∧ ∀ f ∈ frames, f.Stored dumpFloat strtod

/-- `to_chars` writes what `strtod` reads back as the same double. -/
def FloatsReadBack : Prop :=
  ∀ number q, strtod number = some q →
    Nonempty (FloatText (dumpFloat q)) ∧ strtod (dumpFloat q) = some q

theorem scalar_storable (floats : FloatsReadBack dumpFloat strtod) {t : Token} {v : Json}
    (fits : t.Fits) (ok : scalar strtod t = .ok v) : Storable dumpFloat strtod v := by
  unfold scalar at ok
  split at ok
  · cases ok; exact .boolean true
  · cases ok; exact .boolean false
  · cases ok; exact .null
  · split at ok
    · cases ok; exact .string _
    · cases ok
  · cases ok; exact .numberUnsigned fits
  · cases ok; exact .numberInteger fits.1 fits.2
  · split at ok
    · rename_i q value
      cases ok
      obtain ⟨form, same⟩ := floats _ q value
      exact .numberFloat form same
    · cases ok
  · cases ok

theorem goes_stored (floats : FloatsReadBack dumpFloat strtod) {p p' : Progress}
    (goes : Goes strtod p p') (stored : p.Stored dumpFloat strtod) : p'.Stored dumpFloat strtod := by
  have item : ∀ {items : List Json} {v : Json}, (∀ w ∈ items, Storable dumpFloat strtod w) →
      Storable dumpFloat strtod v → ∀ w ∈ items ++ [v], Storable dumpFloat strtod w := by
    intro items v each here w member
    rcases List.mem_append.mp member with old | new
    · exact each w old
    · rw [List.mem_singleton.mp new]
      exact here
  have member : ∀ {members : List (String × Json)} {key : String} {v : Json},
      (Frame.object members key).Stored dumpFloat strtod → Storable dumpFloat strtod v →
      Sorted (Json.insert key v members) ∧
        ∀ m ∈ Json.insert key v members, Storable dumpFloat strtod m.2 := by
    rintro members key v ⟨sorted, each⟩ here
    refine ⟨sorted.insert key v, fun m member => ?_⟩
    rcases mem_insert member with rfl | old
    · exact here
    · exact each m old
  cases goes with
  | emptyObject read => exact ⟨.object .nil nofun, stored.2⟩
  | emptyArray read => exact ⟨.array nofun, stored.2⟩
  | firstKey read decoded separator first =>
      exact ⟨scan_fits first, List.forall_mem_cons.mpr ⟨⟨.nil, nofun⟩, stored.2⟩⟩
  | firstItem read _ => exact ⟨scan_fits read, List.forall_mem_cons.mpr ⟨nofun, stored.2⟩⟩
  | scalar ok => exact ⟨scalar_storable dumpFloat strtod floats stored.1 ok, stored.2⟩
  | nextItem _ first =>
      obtain ⟨here, frames⟩ := stored
      obtain ⟨top, below⟩ := List.forall_mem_cons.mp frames
      exact ⟨scan_fits first, List.forall_mem_cons.mpr ⟨item top here, below⟩⟩
  | endArray _ =>
      obtain ⟨here, frames⟩ := stored
      obtain ⟨top, below⟩ := List.forall_mem_cons.mp frames
      exact ⟨.array (item top here), below⟩
  | nextKey _ _ _ _ first =>
      obtain ⟨here, frames⟩ := stored
      obtain ⟨top, below⟩ := List.forall_mem_cons.mp frames
      exact ⟨scan_fits first, List.forall_mem_cons.mpr ⟨member top here, below⟩⟩
  | endObject _ =>
      obtain ⟨here, frames⟩ := stored
      obtain ⟨top, below⟩ := List.forall_mem_cons.mp frames
      obtain ⟨sorted, each⟩ := member top here
      exact ⟨.object sorted each, below⟩

theorem run_stored (floats : FloatsReadBack dumpFloat strtod) {p p' : Progress}
    (run : ReflTransGen (Goes strtod) p p') (stored : p.Stored dumpFloat strtod) :
    p'.Stored dumpFloat strtod := by
  induction run with
  | refl => exact stored
  | tail _ goes ih => exact goes_stored dumpFloat strtod floats goes ih

theorem parse_storable (floats : FloatsReadBack dumpFloat strtod) {buf : Bytes} {j : Json}
    (ok : parse strtod buf = .ok j) : Storable dumpFloat strtod j := by
  obtain ⟨input, t, r, rest, _, scanned, run, _⟩ := (parse_iff strtod).mp ok
  exact (run_stored dumpFloat strtod floats run ⟨scan_fits scanned, nofun⟩).1

/-! The text of a value does not show whether an integer was unsigned. -/

mutual

theorem dump_normal : ∀ j, dump dumpFloat (normal j) = dump dumpFloat j
  | .numberInteger n => by
      rw [normal]
      split_ifs with negative
      · rfl
      · simp only [dump, dumpInteger, if_neg negative]
  | .array items => by rw [normal, dump, dump, dumpItems_normal items]
  | .object members => by rw [normal, dump, dump, dumpMembers_normal members]
  | .null | .boolean _ | .numberUnsigned _ | .numberFloat _ | .notFinite | .string _
  | .malformed _ _ => by rfl

theorem dumpItems_normal : ∀ items, dumpItems dumpFloat (normalItems items) = dumpItems dumpFloat items
  | [] => rfl
  | [v] => dump_normal v
  | v :: w :: items => by
      have rest := dumpItems_normal (w :: items)
      rw [normalItems] at rest
      simp only [normalItems, dumpItems, dump_normal v, rest]

theorem dumpMembers_normal : ∀ members,
    dumpMembers dumpFloat (normalMembers members) = dumpMembers dumpFloat members
  | [] => rfl
  | [(k, v)] => by simp only [normalMembers, dumpMembers, dump_normal v]
  | (k, v) :: (k', v') :: members => by
      have rest := dumpMembers_normal ((k', v') :: members)
      rw [normalMembers] at rest
      simp only [normalMembers, dumpMembers, dump_normal v, rest]

end

/-- A value is read back from its text, and the texts of two values are the same only if the
parser makes one value of both. -/
theorem dump_roundTrip {j : Json} (storable : Storable dumpFloat strtod j) :
    parse strtod (dump dumpFloat j) = .ok (normal j) ∧
      ∀ j', Storable dumpFloat strtod j' → (dump dumpFloat j = dump dumpFloat j' ↔ normal j = normal j') := by
  have read := parse_dump dumpFloat strtod storable
  refine ⟨read, fun j' storable' => ⟨fun same => ?_, fun same => ?_⟩⟩
  · rw [same, parse_dump dumpFloat strtod storable'] at read
    exact (Except.ok.inj read).symm
  · rw [← dump_normal, same, dump_normal]

theorem dump_roundTrip_sample :
    parse half.2 (dump half.1 sample) = .ok (normal sample) ∧ ∀ j', Storable half.1 half.2 j' →
      (dump half.1 sample = dump half.1 j' ↔ normal sample = normal j') :=
  dump_roundTrip half.1 half.2 sample_storable

/-- Whatever buffer was accepted, its value has a text of its own, which is read as the
same value however often it is written and read. -/
theorem parse_stable (floats : FloatsReadBack dumpFloat strtod) {buf : Bytes} {j : Json}
    (ok : parse strtod buf = .ok j) : Storable dumpFloat strtod j ∧
      parse strtod (dump dumpFloat j) = .ok (normal j) ∧
      dump dumpFloat (normal j) = dump dumpFloat j := by
  have storable := parse_storable dumpFloat strtod floats ok
  exact ⟨storable, parse_dump dumpFloat strtod storable, dump_normal dumpFloat j⟩

theorem half_readsBack : FloatsReadBack half.1 half.2 := by
  rintro number q ⟨rfl⟩
  exact ⟨⟨half_text⟩, rfl⟩

theorem parse_stable_sample : Storable half.1 half.2 (normal sample) ∧
    parse half.2 (dump half.1 (normal sample)) = .ok (normal (normal sample)) ∧
    dump half.1 (normal (normal sample)) = dump half.1 (normal sample) :=
  parse_stable half.1 half.2 half_readsBack (parse_dump half.1 half.2 sample_storable)

end AsyncRpc.Wire
