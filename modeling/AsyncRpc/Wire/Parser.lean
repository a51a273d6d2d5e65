import AsyncRpc.Wire.Lexer
import Mathlib.Logic.Relation

/-! `sax_parse_internal` with the handler that builds the value. The loop is a step
function on where it stands: at a token or behind a value. -/
namespace AsyncRpc.Wire
open Reading Relation

/-- `ref_stack` and `states`, the innermost container first. An object also has the key
that the next value goes to. -/
inductive Frame where
  | array (items : List Json)
  | object (members : List (String × Json)) (key : String)

/-- `value` is the top of the loop with `last_token`, `evaluate` the evaluation of `states`
behind a value. -/
inductive Progress where
  | value (last : Token) (input : Bytes) (frames : List Frame)
  | evaluate (v : Json) (input : Bytes) (frames : List Frame)

inductive Step where
  | goOn (p : Progress)
  | parsed (v : Json) (rest : Bytes)

/-- The scanner lets only well-formed UTF-8 into a string. -/
def ofUtf8 (s : Bytes) : Option String := String.fromUTF8? s.toByteArray

variable (strtod : Bytes → Option ℚ)

/-- A value of one token. `strtod` gives no number when the double is infinite. -/
def scalar : Token → Except Exn Json
  | .literalTrue => .ok (.boolean true)
  | .literalFalse => .ok (.boolean false)
  | .literalNull => .ok .null
  | .valueString s =>
      match ofUtf8 s with
      | some s => .ok (.string s)
      | none => .error .parseError
  | .valueNumber (.unsigned n) => .ok (.numberUnsigned n)
  | .valueNumber (.integer n) => .ok (.numberInteger n)
  | .valueNumber (.float number) =>
      match strtod number with
      | some q => .ok (.numberFloat q)
      | none => .error (.outOfRange (String.ofList (number.map fun c => Char.ofNat c.toNat)))
  | _ => .error .parseError

def getToken (input : Bytes) (frames : List Frame) : Progress :=
  .value (scan input).1 (scan input).2 frames

/-- A key, the separator behind it and the first token of its value. -/
def parseKey (members : List (String × Json)) (frames : List Frame) (read : Token × Bytes) :
    Except Exn Step :=
  match read with
  | (.valueString s, input) =>
      match ofUtf8 s, scan input with
      | some key, (.nameSeparator, rest) => .ok (.goOn (getToken rest (.object members key :: frames)))
      | _, _ => .error .parseError
  | _ => .error .parseError

def step : Progress → Except Exn Step
  | .value .beginObject input frames =>
      match scan input with
      | (.endObject, rest) => .ok (.goOn (.evaluate (.object []) rest frames))
      | read => parseKey [] frames read
  | .value .beginArray input frames =>
      match scan input with
      | (.endArray, rest) => .ok (.goOn (.evaluate (.array []) rest frames))
      | (t, rest) => .ok (.goOn (.value t rest (.array [] :: frames)))
  | .value t input frames => (scalar strtod t).map fun v => .goOn (.evaluate v input frames)
  | .evaluate v input [] => .ok (.parsed v input)
  | .evaluate v input (.array items :: frames) =>
      match scan input with
      | (.valueSeparator, rest) => .ok (.goOn (getToken rest (.array (items ++ [v]) :: frames)))
      | (.endArray, rest) => .ok (.goOn (.evaluate (.array (items ++ [v])) rest frames))
      | _ => .error .parseError
  | .evaluate v input (.object members key :: frames) =>
      match scan input with
      | (.valueSeparator, rest) => parseKey (Json.insert key v members) frames (scan rest)
      | (.endObject, rest) =>
          .ok (.goOn (.evaluate (.object (Json.insert key v members)) rest frames))
      | _ => .error .parseError

/-- How the loop goes round, with the tokens it read. -/
inductive Goes : Progress → Progress → Prop
  | emptyObject {input rest frames} : scan input = (.endObject, rest) →
      Goes (.value .beginObject input frames) (.evaluate (.object []) rest frames)
  | firstKey {input r₁ r₂ rest s key t frames} : scan input = (.valueString s, r₁) →
      ofUtf8 s = some key → scan r₁ = (.nameSeparator, r₂) → scan r₂ = (t, rest) →
      Goes (.value .beginObject input frames) (.value t rest (.object [] key :: frames))
  | emptyArray {input rest frames} : scan input = (.endArray, rest) →
      Goes (.value .beginArray input frames) (.evaluate (.array []) rest frames)
  | firstItem {input rest t frames} : scan input = (t, rest) → t ≠ .endArray →
      Goes (.value .beginArray input frames) (.value t rest (.array [] :: frames))
  | scalar {t v input frames} : scalar strtod t = .ok v →
      Goes (.value t input frames) (.evaluate v input frames)
  | nextItem {v input r₁ rest items t frames} : scan input = (.valueSeparator, r₁) →
      scan r₁ = (t, rest) → Goes (.evaluate v input (.array items :: frames))
        (.value t rest (.array (items ++ [v]) :: frames))
  | endArray {v input rest items frames} : scan input = (.endArray, rest) →
      Goes (.evaluate v input (.array items :: frames)) (.evaluate (.array (items ++ [v])) rest frames)
  | nextKey {v input r₁ r₂ r₃ rest members key s key' t frames} :
      scan input = (.valueSeparator, r₁) → scan r₁ = (.valueString s, r₂) → ofUtf8 s = some key' →
      scan r₂ = (.nameSeparator, r₃) → scan r₃ = (t, rest) →
      Goes (.evaluate v input (.object members key :: frames))
        (.value t rest (.object (Json.insert key v members) key' :: frames))
  | endObject {v input rest members key frames} : scan input = (.endObject, rest) →
      Goes (.evaluate v input (.object members key :: frames))
        (.evaluate (.object (Json.insert key v members)) rest frames)

theorem parseKey_goOn {members : List (String × Json)} {frames : List Frame} {read : Token × Bytes}
    {p : Progress} (ok : parseKey members frames read = .ok (.goOn p)) :
    ∃ s r₁ r₂ key, read = (.valueString s, r₁) ∧ ofUtf8 s = some key ∧
      scan r₁ = (.nameSeparator, r₂) ∧ p = getToken r₂ (.object members key :: frames) := by
  unfold parseKey at ok
  split at ok
  · split at ok
    · rename_i key rest decoded separator
      cases ok
      exact ⟨_, _, rest, key, rfl, decoded, separator, rfl⟩
    · cases ok
  · cases ok

theorem goes_of_step {p p' : Progress} (ok : step strtod p = .ok (.goOn p')) : Goes strtod p p' := by
  unfold step at ok
  split at ok
  · rename_i input frames
    split at ok
    · cases ok; exact .emptyObject ‹_›
    · obtain ⟨s, r₁, r₂, key, read, decoded, separator, rfl⟩ := parseKey_goOn ok
      exact .firstKey read decoded separator rfl
  · split at ok
    · cases ok; exact .emptyArray ‹_›
    · rename_i t rest other read
      cases ok
      exact .firstItem read other
  · cases read : scalar strtod _ with
    | error e => rw [read] at ok; cases ok
    | ok v =>
        rw [read] at ok
        cases ok
        exact .scalar read
  · cases ok
  · split at ok
    · cases ok; exact .nextItem ‹_› rfl
    · cases ok; exact .endArray ‹_›
    · cases ok
  · split at ok
    · obtain ⟨s, r₁, r₂, key, read, decoded, separator, rfl⟩ := parseKey_goOn ok
      exact .nextKey ‹_› read decoded separator rfl
    · cases ok; exact .endObject ‹_›
    · cases ok

/-- A value of one token is not one of the tokens that go another way. -/
theorem scalar_proper {t : Token} {v : Json} (ok : scalar strtod t = .ok v) :
    t.proper = true ∧ t ≠ .beginObject ∧ t ≠ .beginArray := by
  cases t <;> first | (cases ok; done) | exact ⟨rfl, nofun, nofun⟩

theorem step_scalar {t : Token} {v : Json} (ok : scalar strtod t = .ok v) (input : Bytes)
    (frames : List Frame) :
    step strtod (.value t input frames) = .ok (.goOn (.evaluate v input frames)) := by
  obtain ⟨_, object, array⟩ := scalar_proper strtod ok
  rw [step.eq_3 _ _ _ _ object array, ok]
  rfl

theorem step_of_goes {p p' : Progress} (goes : Goes strtod p p') : step strtod p = .ok (.goOn p') := by
  cases goes with
  | emptyObject read => simp [step, read]
  | firstKey read decoded separator first =>
      simp [step, read, parseKey, decoded, separator, getToken, first]
  | emptyArray read => simp [step, read]
  | firstItem read other =>
      simp only [step, read]
  | scalar ok => exact step_scalar strtod ok _ _
  | nextItem separator first => simp [step, separator, getToken, first]
  | endArray read => simp [step, read]
  | nextKey comma read decoded separator first =>
      simp [step, comma, read, parseKey, decoded, separator, getToken, first]
  | endObject read => simp [step, read]

theorem parseKey_ne_parsed {members : List (String × Json)} {frames : List Frame}
    {read : Token × Bytes} {v : Json} {rest : Bytes} :
    parseKey members frames read ≠ .ok (.parsed v rest) := by
  unfold parseKey
  split
  · split <;> nofun
  · nofun

theorem step_parsed {p : Progress} {v : Json} {rest : Bytes}
    (ok : step strtod p = .ok (.parsed v rest)) : p = .evaluate v rest [] := by
  unfold step at ok
  split at ok
  · split at ok
    · cases ok
    · exact absurd ok parseKey_ne_parsed
  · split at ok <;> cases ok
  · cases read : scalar strtod _ <;> rw [read] at ok <;> cases ok
  · cases ok
    rfl
  · split at ok <;> cases ok
  · split at ok
    · exact absurd ok parseKey_ne_parsed
    · cases ok
    · cases ok

/-! The loop ends: a token takes at least a byte, and a value is one token less to read. -/

def Token.weight (t : Token) : Nat := if t.proper then 1 else 0

def Progress.size : Progress → Nat
  | .value t input _ => 2 * input.length + t.weight
  | .evaluate _ input _ => 2 * input.length

theorem scan_weight {input rest : Bytes} {t : Token} (read : scan input = (t, rest)) :
    2 * rest.length + 2 * t.weight ≤ 2 * input.length := by
  unfold Token.weight
  split_ifs with proper
  · obtain ⟨taken, some, rfl, _⟩ := scan_again read proper
    have pos := List.length_pos_iff.mpr some
    simp only [List.length_append]
    omega
  · have le : rest.length ≤ input.length := by
      have scanned := scan_le input
      rw [read] at scanned
      exact scanned
    omega

theorem goes_smaller {p p' : Progress} (goes : Goes strtod p p') : p'.size < p.size := by
  have object : Token.beginObject.weight = 1 := rfl
  have array : Token.beginArray.weight = 1 := rfl
  have comma : Token.valueSeparator.weight = 1 := rfl
  have endObject : Token.endObject.weight = 1 := rfl
  have endArray : Token.endArray.weight = 1 := rfl
  cases goes with
  | emptyObject read | emptyArray read | firstItem read _ | endArray read | endObject read =>
      have less := scan_weight read
      simp only [Progress.size]
      omega
  | firstKey read _ separator first =>
      have key := scan_weight read
      have colon := scan_weight separator
      have less := scan_weight first
      simp only [Progress.size]
      omega
  | @scalar t v input frames ok =>
      have one : t.weight = 1 := if_pos (scalar_proper strtod ok).1
      simp only [Progress.size]
      omega
  | nextItem separator first =>
      have less := scan_weight separator
      have item := scan_weight first
      simp only [Progress.size]
      omega
  | nextKey separator read _ colon first =>
      have less := scan_weight separator
      have key := scan_weight read
      have behind := scan_weight colon
      have item := scan_weight first
      simp only [Progress.size]
      omega

def parseFrom (p : Progress) : Except Exn (Json × Bytes) :=
  match _next : step strtod p with
  | .error e => .error e
  | .ok (.parsed v rest) => .ok (v, rest)
  | .ok (.goOn p') => parseFrom p'
termination_by p.size
decreasing_by exact goes_smaller strtod (goes_of_step strtod _next)

/-- `json::parse`, which is strict: behind the value the input has to end. -/
def parse (buf : Bytes) : Except Exn Json :=
  match skipBom buf with
  | none => .error .parseError
  | some input =>
      match parseFrom strtod (getToken input []) with
      | .error e => .error e
      | .ok (v, rest) => if (scan rest).1 = .endOfInput then .ok v else .error .parseError

/-- The parser succeeds by going round to the end of a value with no container open. -/
theorem parseFrom_iff {p : Progress} {v : Json} {rest : Bytes} :
    parseFrom strtod p = .ok (v, rest) ↔ ReflTransGen (Goes strtod) p (.evaluate v rest []) := by
  constructor
  · intro ok
    fun_induction parseFrom strtod p with
    | case1 => cases ok
    | case2 p v' rest' next =>
        cases ok
        rw [step_parsed strtod next]
    | case3 p p' next ih => exact .head (goes_of_step strtod next) (ih ok)
  · intro run
    induction run using ReflTransGen.head_induction_on with
    | refl => rw [parseFrom]; rfl
    | head goes _ ih =>
        rw [parseFrom, step_of_goes strtod goes]
        exact ih

theorem parse_iff {buf : Bytes} {v : Json} : parse strtod buf = .ok v ↔
    ∃ input t r rest, skipBom buf = some input ∧ scan input = (t, r) ∧
      ReflTransGen (Goes strtod) (.value t r []) (.evaluate v rest []) ∧
      (scan rest).1 = .endOfInput := by
  unfold parse
  constructor
  · intro ok
    split at ok
    · cases ok
    · rename_i input skipped
      split at ok
      · cases ok
      · rename_i v' rest read
        split_ifs at ok with ended
        cases ok
        exact ⟨input, _, _, rest, skipped, rfl, (parseFrom_iff strtod).mp read, ended⟩
  · rintro ⟨input, t, r, rest, skipped, scanned, run, ended⟩
    have start : getToken input [] = .value t r [] := by simp only [getToken, scanned]
    simp only [skipped, start, (parseFrom_iff strtod).mpr run, if_pos ended]

/-! What the parser takes does not depend on what follows: only a number ends at a byte that
is not its own, and then a container is open and its closing bracket is still to come. -/

def Progress.input : Progress → Bytes
  | .value _ input _ => input
  | .evaluate _ input _ => input

def Progress.frames : Progress → List Frame
  | .value _ _ frames => frames
  | .evaluate _ _ frames => frames

def Progress.on : Progress → Bytes → Progress
  | .value t _ frames, input => .value t input frames
  | .evaluate v _ frames, input => .evaluate v input frames

theorem goes_again {p p' : Progress} (goes : Goes strtod p p')
    (proper : ∀ t input frames, p' = .value t input frames → t.proper = true) :
    ∃ taken, p.input = taken ++ p'.input ∧ (p.frames ≠ [] → p'.frames = [] → taken ≠ []) ∧
      ∀ more, (p'.frames ≠ [] → more.head? = p'.input.head?) →
        Goes strtod (p.on (taken ++ more)) (p'.on more) := by
  have closes : ∀ {input rest : Bytes} {t : Token}, scan input = (t, rest) → t.proper = true →
      t.number = false → ∃ taken, taken ≠ [] ∧ input = taken ++ rest ∧
        ∀ more, scan (taken ++ more) = (t, more) := by
    intro input rest t read proper other
    obtain ⟨taken, some, split, again⟩ := scan_again read proper
    exact ⟨taken, some, split, fun more => again more (.inl other)⟩
  cases goes with
  | emptyObject read =>
      obtain ⟨taken, some, split, again⟩ := closes read rfl rfl
      exact ⟨taken, split, fun _ _ => some, fun more _ => .emptyObject (again more)⟩
  | firstKey read decoded separator first =>
      obtain ⟨key, some, split, again⟩ := closes read rfl rfl
      obtain ⟨colon, _, split₁, again₁⟩ := closes separator rfl rfl
      obtain ⟨token, _, split₂, again₂⟩ := scan_again first (proper _ _ _ rfl)
      refine ⟨key ++ (colon ++ token), by simp [Progress.input, split, split₁, split₂], by simp [some],
        fun more next => ?_⟩
      rw [List.append_assoc, List.append_assoc]
      exact .firstKey (again _) decoded (again₁ _) (again₂ _ (.inr (next (List.cons_ne_nil _ _))))
  | emptyArray read =>
      obtain ⟨taken, some, split, again⟩ := closes read rfl rfl
      exact ⟨taken, split, fun _ _ => some, fun more _ => .emptyArray (again more)⟩
  | firstItem read other =>
      obtain ⟨token, some, split, again⟩ := scan_again read (proper _ _ _ rfl)
      exact ⟨token, split, fun _ _ => some,
        fun more next => .firstItem (again _ (.inr (next (List.cons_ne_nil _ _)))) other⟩
  | scalar ok => exact ⟨[], rfl, fun open' closed => absurd closed open', fun more _ => .scalar ok⟩
  | nextItem separator first =>
      obtain ⟨comma, some, split, again⟩ := closes separator rfl rfl
      obtain ⟨token, _, split₁, again₁⟩ := scan_again first (proper _ _ _ rfl)
      refine ⟨comma ++ token, by simp [Progress.input, split, split₁], by simp [some],
        fun more next => ?_⟩
      rw [List.append_assoc]
      exact .nextItem (again _) (again₁ _ (.inr (next (List.cons_ne_nil _ _))))
  | endArray read =>
      obtain ⟨taken, some, split, again⟩ := closes read rfl rfl
      exact ⟨taken, split, fun _ _ => some, fun more _ => .endArray (again more)⟩
  | nextKey separator read decoded colon first =>
      obtain ⟨comma, some, split, again⟩ := closes separator rfl rfl
      obtain ⟨key, _, split₁, again₁⟩ := closes read rfl rfl
      obtain ⟨behind, _, split₂, again₂⟩ := closes colon rfl rfl
      obtain ⟨token, _, split₃, again₃⟩ := scan_again first (proper _ _ _ rfl)
      refine ⟨comma ++ (key ++ (behind ++ token)), by
        simp [Progress.input, split, split₁, split₂, split₃], by simp [some], fun more next => ?_⟩
      simp only [List.append_assoc]
      exact .nextKey (again _) (again₁ _) decoded (again₂ _)
        (again₃ _ (.inr (next (List.cons_ne_nil _ _))))
  | endObject read =>
      obtain ⟨taken, some, split, again⟩ := closes read rfl rfl
      exact ⟨taken, split, fun _ _ => some, fun more _ => .endObject (again more)⟩

/-- A token that the parser went on from belongs to a value or opens one. -/
theorem proper_of_run {t : Token} {input rest : Bytes} {frames : List Frame} {v : Json}
    (run : ReflTransGen (Goes strtod) (.value t input frames) (.evaluate v rest [])) :
    t.proper = true := by
  rcases run.cases_head with same | ⟨p, goes, _⟩
  · cases same
  · cases goes with
    | scalar ok => exact (scalar_proper strtod ok).1
    | _ => rfl

theorem run_again {p : Progress} {v : Json} {rest : Bytes}
    (run : ReflTransGen (Goes strtod) p (.evaluate v rest [])) :
    ∃ taken, p.input = taken ++ rest ∧ (p.frames ≠ [] → taken ≠ []) ∧
      ∀ more, ReflTransGen (Goes strtod) (p.on (taken ++ more)) (.evaluate v more []) := by
  induction run using ReflTransGen.head_induction_on with
  | refl => exact ⟨[], rfl, fun some => absurd rfl some, fun more => .refl⟩
  | @head p p' goes run ih =>
      obtain ⟨behind, split, some, again⟩ := ih
      obtain ⟨taken, split', some', step⟩ := goes_again strtod goes fun t input frames value =>
        proper_of_run strtod (value ▸ run)
      refine ⟨taken ++ behind, by rw [split', split, List.append_assoc], fun open' => ?_, fun more => ?_⟩
      · by_cases closed : p'.frames = []
        · exact List.append_ne_nil_of_left_ne_nil (some' open' closed) behind
        · exact List.append_ne_nil_of_right_ne_nil taken (some closed)
      · rw [List.append_assoc]
        refine .head (step (behind ++ more) fun open' => ?_) (again more)
        rw [split]
        cases behind with
        | nil => exact absurd rfl (some open')
        | cons _ _ => rfl

end AsyncRpc.Wire
