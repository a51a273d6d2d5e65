import AsyncRpc.Wire.Tokens

/-! The parser reads back what the serializer wrote. -/
namespace AsyncRpc.Wire
open Reading Relation
open Json (normal normalItems normalMembers)

variable (dumpFloat : ℚ → Bytes) (strtod : Bytes → Option ℚ)

/-- The keys of a `std::map`. -/
def Sorted (members : List (String × Json)) : Prop :=
  members.Pairwise fun m m' => m.1 < m'.1

/-- The values a `nlohmann::json` holds; of its doubles those whose text is read back. -/
inductive Storable : Json → Prop
  | null : Storable .null
  | boolean (b : Bool) : Storable (.boolean b)
  | string (s : String) : Storable (.string s)
  | numberUnsigned {n : Nat} : n < 2 ^ 64 → Storable (.numberUnsigned n)
  | numberInteger {n : Int} : -2 ^ 63 ≤ n → n < 2 ^ 63 → Storable (.numberInteger n)
  | notFinite : Storable .notFinite
  | numberFloat {q : ℚ} : Nonempty (FloatText (dumpFloat q)) → strtod (dumpFloat q) = some q →
      Storable (.numberFloat q)
  | array {items : List Json} : (∀ v ∈ items, Storable v) → Storable (.array items)
  | object {members : List (String × Json)} : Sorted members → (∀ m ∈ members, Storable m.2) →
      Storable (.object members)

theorem insert_last {members : List (String × Json)} {k : String} (v : Json)
    (last : ∀ m ∈ members, m.1 < k) : Json.insert k v members = members ++ [(k, v)] := by
  induction members with
  | nil => rfl
  | cons head members ih =>
      obtain ⟨k', v'⟩ := head
      have before : k' < k := last (k', v') List.mem_cons_self
      have other : k ≠ k' := fun same => String.lt_irrefl k' (same ▸ before)
      rw [Json.insert, if_neg other, if_neg (String.lt_asymm before),
        ih fun m member => last m (List.mem_cons_of_mem _ member), List.cons_append]

theorem mem_insert {m : String × Json} {k : String} {v : Json} {members : List (String × Json)}
    (member : m ∈ Json.insert k v members) : m = (k, v) ∨ m ∈ members := by
  induction members with
  | nil => exact .inl (List.mem_singleton.mp member)
  | cons head members ih =>
      rw [Json.insert] at member
      split_ifs at member
      · exact (List.mem_cons.mp member).imp_right (List.mem_cons_of_mem _)
      · exact List.mem_cons.mp member
      · rcases List.mem_cons.mp member with rfl | later
        · exact .inr List.mem_cons_self
        · exact (ih later).imp_right (List.mem_cons_of_mem _)

theorem Sorted.insert {members : List (String × Json)} (sorted : Sorted members) (k : String)
    (v : Json) : Sorted (Json.insert k v members) := by
  induction members with
  | nil => exact List.pairwise_singleton _ _
  | cons head members ih =>
      obtain ⟨k', v'⟩ := head
      obtain ⟨above, rest⟩ := List.pairwise_cons.mp sorted
      rw [Json.insert]
      split_ifs with same before
      · subst same
        exact List.pairwise_cons.mpr ⟨above, rest⟩
      · refine List.pairwise_cons.mpr ⟨fun m member => ?_, sorted⟩
        rcases List.mem_cons.mp member with rfl | later
        · exact before
        · exact String.lt_trans before (above m later)
      · have after : k' < k := Decidable.byContradiction fun other =>
          same (String.le_antisymm (String.not_lt.mp other) (String.not_lt.mp before))
        refine List.pairwise_cons.mpr ⟨fun m member => ?_, ih rest⟩
        rcases mem_insert member with rfl | old
        · exact after
        · exact above m old

/-- Behind its text the value is evaluated, whatever is open around it. -/
def ReadsBack (v : Json) : Prop :=
  ∀ (frames : List Frame) (rest : Bytes), Ends rest → ∃ t r, scan (dump dumpFloat v ++ rest) = (t, r) ∧
    ReflTransGen (Goes strtod) (.value t r frames) (.evaluate (normal v) rest frames)

theorem ends_nil : Ends [] := nofun

theorem ends_byte {c : UInt8} (rest : Bytes) (other : isDigit c = false ∧ c ≠ byte '.' ∧
    c ≠ byte 'e' ∧ c ≠ byte 'E') : Ends (c :: rest) := by
  rintro _ ⟨rfl⟩
  exact other

theorem ends_separator (rest : Bytes) : Ends (byte ',' :: rest) := ends_byte rest (by decide)

theorem ends_endArray (rest : Bytes) : Ends (byte ']' :: rest) := ends_byte rest (by decide)

theorem ends_endObject (rest : Bytes) : Ends (byte '\x7d' :: rest) := ends_byte rest (by decide)

/-- A token of one byte. -/
theorem scan_structural {c : UInt8} {t : Token} (is : structural c = some t)
    (plain : isSpace c = false) (rest : Bytes) : scan (c :: rest) = (t, rest) := by
  simp only [scan_start plain, scanAt, is, Option.getD_some]

theorem scan_literal {c : UInt8} {behind : Bytes} {t : Token} (other : structural c = none)
    (is : literal c = some (behind, t)) (plain : isSpace c = false) (rest : Bytes) :
    scan (c :: (behind ++ rest)) = (t, rest) := by
  have found : behind <+: behind ++ rest := List.prefix_append behind rest
  simp only [scan_start plain, scanAt, other, is, scanLiteral, if_pos found, List.drop_left,
    Option.getD_some]

theorem readsBack_scalar {v : Json} {t : Token}
    (scanned : ∀ rest, Ends rest → scan (dump dumpFloat v ++ rest) = (t, rest))
    (ok : scalar strtod t = .ok (normal v)) : ReadsBack dumpFloat strtod v := by
  intro frames rest ends
  exact ⟨t, rest, scanned rest ends, .single (.scalar ok)⟩

theorem not_endArray {t : Token} {input rest : Bytes} {frames frames' : List Frame} {v : Json}
    (run : ReflTransGen (Goes strtod) (.value t input frames) (.evaluate v rest frames')) :
    t ≠ .endArray := by
  rintro rfl
  rcases run.cases_head with same | ⟨p, goes, _⟩
  · cases same
  · cases goes with
    | scalar ok => cases ok

theorem items_readBack {items : List Json} (nonempty : items ≠ [])
    (each : ∀ v ∈ items, ReadsBack dumpFloat strtod v) (done : List Json) (frames : List Frame)
    (rest : Bytes) : ∃ t r, scan (dumpItems dumpFloat items ++ byte ']' :: rest) = (t, r) ∧
      ReflTransGen (Goes strtod) (.value t r (.array done :: frames))
        (.evaluate (.array (done ++ normalItems items)) rest frames) := by
  induction items generalizing done with
  | nil => exact absurd rfl nonempty
  | cons v items ih =>
      have first := each v List.mem_cons_self
      cases items with
      | nil =>
          obtain ⟨t, r, scanned, run⟩ := first (.array done :: frames) _ (ends_endArray rest)
          exact ⟨t, r, scanned, run.tail (.endArray (scan_structural rfl rfl rest))⟩
      | cons w items =>
          obtain ⟨t', r', scanned', run'⟩ := ih (List.cons_ne_nil w items)
            (fun v member => each v (List.mem_cons_of_mem _ member)) (done ++ [normal v])
          obtain ⟨t, r, scanned, run⟩ := first (.array done :: frames) _ (ends_separator
            (dumpItems dumpFloat (w :: items) ++ byte ']' :: rest))
          refine ⟨t, r, by simpa [dumpItems] using scanned, ?_⟩
          have joined := run.trans (.head (.nextItem (scan_structural rfl rfl _) scanned') run')
          simpa [normalItems] using joined

theorem members_readBack {k : String} {v : Json} {members : List (String × Json)}
    (each : ∀ m ∈ (k, v) :: members, ReadsBack dumpFloat strtod m.2)
    (done : List (String × Json)) (sorted : Sorted ((k, v) :: members))
    (before : ∀ d ∈ done, ∀ m ∈ (k, v) :: members, d.1 < m.1) (frames : List Frame) (rest : Bytes) :
    ∃ r₁ r₂ t r, scan (dumpMembers dumpFloat ((k, v) :: members) ++ byte '\x7d' :: rest) =
        (.valueString (utf8 k), r₁) ∧ scan r₁ = (.nameSeparator, r₂) ∧ scan r₂ = (t, r) ∧
      ReflTransGen (Goes strtod) (.value t r (.object done k :: frames))
        (.evaluate (.object (done ++ normalMembers ((k, v) :: members))) rest frames) := by
  induction members generalizing k v done with
  | nil =>
      obtain ⟨t, r, scanned, run⟩ := each (k, v) List.mem_cons_self (.object done k :: frames) _
        (ends_endObject rest)
      refine ⟨_, _, t, r, by simpa [dumpMembers] using scan_string k _,
        scan_structural rfl rfl _, scanned, ?_⟩
      have closed := run.tail (.endObject (scan_structural rfl rfl rest))
      rw [insert_last (normal v) fun d member => before d member _ List.mem_cons_self] at closed
      exact closed
  | cons m members ih =>
      obtain ⟨k', v'⟩ := m
      have apart : ∀ d ∈ done ++ [(k, normal v)], ∀ m ∈ (k', v') :: members, d.1 < m.1 := by
        intro d member m later
        rcases List.mem_append.mp member with old | new
        · exact before d old m (List.mem_cons_of_mem _ later)
        · cases List.mem_singleton.mp new
          exact List.rel_of_pairwise_cons sorted later
      obtain ⟨r₁', r₂', t', r', key', separator', scanned', run'⟩ := ih
        (fun m member => each m (List.mem_cons_of_mem _ member)) (done ++ [(k, normal v)])
        (List.Pairwise.of_cons sorted) apart
      obtain ⟨t, r, scanned, run⟩ := each (k, v) List.mem_cons_self (.object done k :: frames) _
        (ends_separator (dumpMembers dumpFloat ((k', v') :: members) ++ byte '\x7d' :: rest))
      refine ⟨_, _, t, r, by simpa [dumpMembers] using scan_string k _,
        scan_structural rfl rfl _, scanned, ?_⟩
      have next : Goes strtod (.evaluate (normal v) (byte ',' :: _) (.object done k :: frames)) _ :=
        .nextKey (scan_structural rfl rfl _) key' (ofUtf8_utf8 k') separator' scanned'
      rw [insert_last (normal v) fun d member => before d member _ List.mem_cons_self] at next
      simpa [normalMembers] using run.trans (.head next run')

theorem storable_readsBack {j : Json} (storable : Storable dumpFloat strtod j) :
    ReadsBack dumpFloat strtod j := by
  induction storable with
  | null | notFinite =>
      exact readsBack_scalar dumpFloat strtod
        (fun rest _ => scan_literal (c := byte 'n') rfl rfl rfl rest) rfl
  | boolean b =>
      cases b with
      | false =>
          exact readsBack_scalar dumpFloat strtod
            (fun rest _ => scan_literal (c := byte 'f') rfl rfl rfl rest) rfl
      | true =>
          exact readsBack_scalar dumpFloat strtod
            (fun rest _ => scan_literal (c := byte 't') rfl rfl rfl rest) rfl
  | string s =>
      refine readsBack_scalar dumpFloat strtod (t := .valueString (utf8 s)) (fun rest _ => ?_) ?_
      · simpa [dump] using scan_string s rest
      · simp only [scalar, ofUtf8_utf8]
        rfl
  | numberUnsigned small =>
      exact readsBack_scalar dumpFloat strtod (fun rest ends => scan_dumpDigits small ends) rfl
  | @numberInteger n low high =>
      by_cases negative : n < 0
      · have value : -(n.natAbs : Int) = n := by omega
        refine readsBack_scalar dumpFloat strtod (t := .valueNumber (.integer n))
          (fun rest ends => ?_) (by simp [scalar, normal, negative])
        have scanned := scan_negative (n := n.natAbs) (by omega) ends
        rw [value] at scanned
        simpa [dump, dumpInteger, negative] using scanned
      · refine readsBack_scalar dumpFloat strtod (t := .valueNumber (.unsigned n.natAbs))
          (fun rest ends => ?_) (by simp [scalar, normal, negative])
        have scanned := scan_dumpDigits (n := n.natAbs) (by omega) ends
        simpa [dump, dumpInteger, negative] using scanned
  | numberFloat form value =>
      obtain ⟨form⟩ := form
      refine readsBack_scalar dumpFloat strtod (fun rest ends => scan_float form ends) ?_
      simp only [scalar, dump, value]
      rfl
  | @array items _ each =>
      intro frames rest _
      refine ⟨.beginArray, dumpItems dumpFloat items ++ byte ']' :: rest, ?_, ?_⟩
      · simpa [dump] using scan_structural (c := byte '[') rfl rfl _
      · cases items with
        | nil => exact .single (.emptyArray (scan_structural rfl rfl rest))
        | cons v items =>
            obtain ⟨t, r, scanned, run⟩ := items_readBack dumpFloat strtod (List.cons_ne_nil v items)
              each [] frames rest
            exact .head (.firstItem scanned (not_endArray strtod run)) run
  | @object members sorted _ each =>
      intro frames rest _
      refine ⟨.beginObject, dumpMembers dumpFloat members ++ byte '\x7d' :: rest, ?_, ?_⟩
      · simpa [dump] using scan_structural (c := byte '\x7b') rfl rfl _
      · cases members with
        | nil => exact .single (.emptyObject (scan_structural rfl rfl rest))
        | cons m members =>
            obtain ⟨r₁, r₂, t, r, key, separator, scanned, run⟩ := members_readBack dumpFloat strtod
              each [] sorted (fun _ none => absurd none List.not_mem_nil) frames rest
            exact .head (.firstKey key (ofUtf8_utf8 m.1) separator scanned) run

/-- A byte order mark starts no token. -/
theorem skipBom_of_scan {input rest : Bytes} {t : Token} (read : scan input = (t, rest))
    (proper : t.proper = true) : skipBom input = some input := by
  have mark : ∀ behind, (scan (0xEF :: behind)).1 = .parseError := by
    intro behind
    rw [scan_start (by decide)]
    rfl
  have other : ∀ behind, input ≠ 0xEF :: behind := by
    rintro behind rfl
    have error := mark behind
    rw [read] at error
    cases error
    cases proper
  unfold skipBom
  split
  · exact absurd rfl (other _)
  · exact absurd rfl (other _)
  · rfl

/-- `parse` of what `dump` wrote. -/
theorem parse_dump {j : Json} (storable : Storable dumpFloat strtod j) :
    parse strtod (dump dumpFloat j) = .ok (normal j) := by
  obtain ⟨t, r, scanned, run⟩ := storable_readsBack dumpFloat strtod storable [] [] ends_nil
  rw [List.append_nil] at scanned
  exact (parse_iff strtod).mpr ⟨_, t, r, [],
    skipBom_of_scan scanned (proper_of_run strtod run), scanned, run, rfl⟩

/-! Extended and cut texts of a container: it ends where its bracket closes. -/

inductive Container : Json → Prop
  | array (items : List Json) : Container (.array items)
  | object (members : List (String × Json)) : Container (.object members)

/-- The text of a container: its bracket, and what is read behind it up to the closing one. -/
theorem container_text {j : Json} (storable : Storable dumpFloat strtod j) (container : Container j) :
    ∃ (c : UInt8) (t : Token) (text : Bytes), dump dumpFloat j = c :: text ∧ t.proper = true ∧
      (∀ rest, scan (c :: rest) = (t, rest)) ∧
      ∀ rest, ReflTransGen (Goes strtod) (.value t (text ++ rest) []) (.evaluate (normal j) rest []) := by
  obtain ⟨c, t, text, is, plain, proper, written⟩ : ∃ (c : UInt8) (t : Token) (text : Bytes),
      structural c = some t ∧ isSpace c = false ∧ t.proper = true ∧ dump dumpFloat j = c :: text := by
    cases container with
    | array items => exact ⟨byte '[', .beginArray, _, rfl, rfl, rfl, by rw [dump]⟩
    | object members => exact ⟨byte '\x7b', .beginObject, _, rfl, rfl, rfl, by rw [dump]⟩
  have start := scan_structural is plain
  obtain ⟨t', r, scanned, run⟩ := storable_readsBack dumpFloat strtod storable [] [] ends_nil
  rw [List.append_nil, written, start] at scanned
  cases scanned
  obtain ⟨taken, split, _, again⟩ := run_again strtod run
  have all : text = taken := split.trans (List.append_nil taken)
  exact ⟨c, t, text, written, proper, start, fun rest => all ▸ again rest⟩

/-- Behind the text of a container only what the scanner takes for the end is accepted:
white space, and a NUL byte with anything behind it. -/
theorem parse_extended {j : Json} (storable : Storable dumpFloat strtod j)
    (container : Container j) (more : Bytes) (v : Json) :
    parse strtod (dump dumpFloat j ++ more) = .ok v ↔ v = normal j ∧ (scan more).1 = .endOfInput := by
  obtain ⟨c, t, text, written, proper, start, run⟩ :=
    container_text dumpFloat strtod storable container
  have scanned := start (text ++ more)
  rw [written, List.cons_append, parse_iff]
  constructor
  · rintro ⟨input, t', r, rest, skipped, scanned', run', ended⟩
    rw [skipBom_of_scan scanned proper] at skipped
    cases skipped
    cases scanned.symm.trans scanned'
    have one := (parseFrom_iff strtod).mpr (run more)
    rw [(parseFrom_iff strtod).mpr run'] at one
    cases one
    exact ⟨rfl, ended⟩
  · rintro ⟨rfl, ended⟩
    exact ⟨_, t, _, more, skipBom_of_scan scanned proper, scanned, run more, ended⟩

theorem parse_nil (v : Json) : parse strtod [] ≠ .ok v := by
  intro ok
  obtain ⟨input, t, r, rest, skipped, scanned, run, -⟩ := (parse_iff strtod).mp ok
  cases skipped
  cases scanned
  cases proper_of_run strtod run

/-- A cut text of a container is not accepted. -/
theorem parse_cut {j : Json} (storable : Storable dumpFloat strtod j)
    (container : Container j) {first more : Bytes} (whole : dump dumpFloat j = first ++ more)
    (cut : more ≠ []) (v : Json) :
    parse strtod first ≠ .ok v := by
  obtain ⟨c, t, text, written, proper, start, run⟩ :=
    container_text dumpFloat strtod storable container
  intro ok
  cases first with
  | nil => exact parse_nil strtod v ok
  | cons b first =>
      obtain ⟨input, t', r, rest, skipped, scanned, run', ended⟩ := (parse_iff strtod).mp ok
      rw [written, List.cons_append] at whole
      obtain ⟨rfl, rfl⟩ := List.cons.inj whole
      rw [skipBom_of_scan (start first) proper] at skipped
      cases skipped
      obtain ⟨rfl, behind⟩ := Prod.mk.inj ((start first).symm.trans scanned)
      -- the parser stops at the same place in the whole text, where it has to reach the end
      obtain ⟨taken, split, _, again⟩ := run_again strtod run'
      have here := (parseFrom_iff strtod).mpr (again (rest ++ more))
      have there := (parseFrom_iff strtod).mpr (run [])
      have same : taken ++ (rest ++ more) = first ++ more ++ [] := by
        rw [List.append_nil, ← List.append_assoc, behind]
        exact congrArg (· ++ more) split.symm
      simp only [Progress.on, same] at here
      obtain ⟨_, longer⟩ := Prod.mk.inj (Except.ok.inj (there.symm.trans here))
      exact cut (List.append_eq_nil_iff.mp longer.symm).2

/-- Of the texts that begin like a container's, and of those it begins, only its own is
accepted, with the end of the input behind it: white space, then nothing or a NUL byte. -/
theorem parse_only_whole {j : Json} (storable : Storable dumpFloat strtod j) (container : Container j)
    {buf : Bytes} (prefix' : buf <+: dump dumpFloat j ∨ dump dumpFloat j <+: buf) (v : Json) :
    parse strtod buf = .ok v ↔
      v = normal j ∧ ∃ more, buf = dump dumpFloat j ++ more ∧ (scan more).1 = .endOfInput := by
  have extended : ∀ more, buf = dump dumpFloat j ++ more → (parse strtod buf = .ok v ↔
      v = normal j ∧ ∃ more, buf = dump dumpFloat j ++ more ∧ (scan more).1 = .endOfInput) := by
    rintro more rfl
    rw [parse_extended dumpFloat strtod storable container]
    constructor
    · rintro ⟨same, ended⟩
      exact ⟨same, more, rfl, ended⟩
    · rintro ⟨same, more', whole, ended⟩
      rw [List.append_cancel_left whole]
      exact ⟨same, ended⟩
  rcases prefix' with ⟨more, whole⟩ | ⟨more, whole⟩
  · by_cases cut : more = []
    · subst cut
      exact extended [] (by rw [← whole, List.append_nil, List.append_nil])
    · constructor
      · intro ok
        exact absurd ok (parse_cut dumpFloat strtod storable container whole.symm cut v)
      · rintro ⟨_, more', rfl, _⟩
        have lengths := congrArg List.length whole
        simp only [List.length_append] at lengths
        exact absurd (List.length_eq_zero_iff.mp (by omega)) cut
  · exact extended more whole.symm

/-- `to_chars` and `strtod` on 0.5. -/
def half : (ℚ → Bytes) × (Bytes → Option ℚ) := (fun _ => text "0.5", fun _ => some (1 / 2))

def half_text : FloatText (text "0.5") where
  minus := false
  first := byte '0'
  digits := []
  fraction := [byte '5']
  exponent := none
  whole := rfl
  digits_digits := List.forall_mem_singleton.mpr rfl
  leading _ := rfl
  fraction_digits := List.forall_mem_singleton.mpr rfl
  exponent_digits := nofun
  float := .inl (List.cons_ne_nil _ _)

def sample : Json :=
  .object [("k", .array [.numberInteger (-1), .numberFloat (1 / 2)]), ("é", .string "\"")]

theorem sample_storable : Storable half.1 half.2 sample := by
  have sorted : ("k" : String) < "é" := by decide
  refine .object (List.pairwise_pair.mpr sorted) fun m member => ?_
  rcases List.mem_cons.mp member with rfl | later
  · refine .array fun v item => ?_
    rcases List.mem_cons.mp item with rfl | other
    · exact .numberInteger (by decide) (by decide)
    · cases List.mem_singleton.mp other
      exact .numberFloat ⟨half_text⟩ rfl
  · cases List.mem_singleton.mp later
    exact .string _

theorem parse_only_whole_sample :
    parse half.2 (dump half.1 sample ++ text "\n") = .ok (normal sample) ↔
      normal sample = normal sample ∧ ∃ more, dump half.1 sample ++ text "\n" =
        dump half.1 sample ++ more ∧ (scan more).1 = .endOfInput :=
  parse_only_whole half.1 half.2 sample_storable (.object _) (.inr (List.prefix_append _ _)) _

end AsyncRpc.Wire
