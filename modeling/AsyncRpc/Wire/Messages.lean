import AsyncRpc.Wire.RoundTrip
import AsyncRpc.Readback
import AsyncRpc.Transport

/-! The messages of the library as text: each of them is read back, and a stream that
does not keep them apart is noticed at the first message it does not hand over whole. -/
namespace AsyncRpc.Wire
open Transition Transport
open Json (normal)

variable (dumpFloat : ℚ → Bytes) (strtod : Bytes → Option ℚ)

variable {dumpFloat strtod} in
theorem Storable.set {j v : Json} (storable : Storable dumpFloat strtod j)
    (value : Storable dumpFloat strtod v) (k : String) : Storable dumpFloat strtod (j.set k v) := by
  cases storable with
  | null =>
      refine .object (List.pairwise_singleton _ _) fun m member => ?_
      rw [List.mem_singleton.mp member]
      exact value
  | object sorted each =>
      refine .object (sorted.insert k v) fun m member => ?_
      rcases mem_insert member with rfl | old
      · exact value
      · exact each m old
  | boolean b => exact .boolean b
  | string s => exact .string s
  | numberUnsigned small => exact .numberUnsigned small
  | numberInteger low high => exact .numberInteger low high
  | notFinite => exact .notFinite
  | numberFloat form value => exact .numberFloat form value
  | array each => exact .array each

theorem ofPairs_storable {pairs : List (String × Json)}
    (each : ∀ p ∈ pairs, Storable dumpFloat strtod p.2) : Storable dumpFloat strtod (Json.ofPairs pairs) := by
  unfold Json.ofPairs
  have start : Storable dumpFloat strtod (.object []) := .object .nil nofun
  revert start
  generalize Json.object [] = j
  induction pairs generalizing j with
  | nil => exact id
  | cons p pairs ih =>
      intro start
      exact ih (fun q member => each q (List.mem_cons_of_mem _ member)) _
        (start.set (each p List.mem_cons_self) p.1)

/-- What can be written of what a program writes: headers of 64 bits, and values with a text. -/
def Travels : Write → Prop
  | .value d => Storable dumpFloat strtod d.json
  | .request h => h.xid < 2 ^ 64 ∧ h.proc < 2 ^ 64 ∧ h.xidRep < 2 ^ 64
  | .reply h => h.xid < 2 ^ 64

theorem requestHeader_storable {h : RequestHeader}
    (fits : h.xid < 2 ^ 64 ∧ h.proc < 2 ^ 64 ∧ h.xidRep < 2 ^ 64) :
    Storable dumpFloat strtod h.toJson := by
  obtain ⟨xid, proc, xidRep⟩ := fits
  have nonces : ∀ n : UInt32, n.toNat < 2 ^ 64 := fun n => Nat.lt_trans n.toNat_lt (by decide)
  apply ofPairs_storable
  simp only [List.forall_mem_cons]
  exact ⟨.numberUnsigned xid, .numberUnsigned proc, .numberUnsigned (nonces _),
    .numberUnsigned (nonces _), .numberUnsigned xidRep, nofun⟩

theorem replyHeader_storable {h : ReplyHeader} (fits : h.xid < 2 ^ 64) :
    Storable dumpFloat strtod h.toJson := by
  have code : h.err.code < 2 ^ 64 := Nat.lt_trans h.err.code_lt (by decide)
  apply ofPairs_storable
  simp only [List.forall_mem_cons]
  exact ⟨.numberUnsigned fits, .numberUnsigned code, nofun⟩

theorem write_storable {m : Marshall} {w : Write} (storable : Storable dumpFloat strtod m.json)
    (travels : Travels dumpFloat strtod w) : Storable dumpFloat strtod (m.write w).json := by
  cases w with
  | value d => exact storable.set travels _
  | request h => exact storable.set (requestHeader_storable dumpFloat strtod travels) _
  | reply h => exact storable.set (replyHeader_storable dumpFloat strtod travels) _

theorem writeAll_storable {m : Marshall} {ws : List Write} (storable : Storable dumpFloat strtod m.json)
    (travel : ∀ w ∈ ws, Travels dumpFloat strtod w) :
    Storable dumpFloat strtod (m.writeAll ws).json := by
  induction ws generalizing m with
  | nil => exact storable
  | cons w ws ih =>
      exact ih (write_storable dumpFloat strtod storable (travel w List.mem_cons_self))
        fun w' member => travel w' (List.mem_cons_of_mem w member)

/-- What was written into a `Marshall` is read back from the bytes of its buffer. -/
theorem message_readsBack {ws : List Write} (travel : ∀ w ∈ ws, Travels dumpFloat strtod w) :
    ∃ j, parse strtod (dump dumpFloat ((({} : Marshall).writeAll ws).json)) = .ok j ∧
      ∀ rs : List Read, Gives ((⟨j, 0⟩ : Unmarshall).readAll rs) (rs.countP Read.isValue) ws := by
  refine ⟨_, parse_dump dumpFloat strtod (writeAll_storable dumpFloat strtod .null travel),
    fun rs => ?_⟩
  rw [readAll_eq, Nat.zero_add]
  exact (wrote_nothing.writeAll ws).fromStart.gives _

/-- What a server marshals for a call. -/
def reply (xid : Nat) (result : UInt32) : List Write :=
  [.value (JsonSupport.uint32.datum (JsonSupport.uint32_travels result)), .reply { xid }]

theorem reply_travels {xid : Nat} (fits : xid < 2 ^ 64) (result : UInt32) :
    ∀ w ∈ reply xid result, Travels half.1 half.2 w := by
  simp only [reply, List.forall_mem_cons]
  exact ⟨.numberUnsigned (Nat.lt_trans result.toNat_lt (by decide)), fits, nofun⟩

theorem message_readsBack_reply :
    ∃ j, parse half.2 (dump half.1 ((({} : Marshall).writeAll (reply 3 1)).json)) = .ok j ∧
      ∀ rs : List Read,
        Gives ((⟨j, 0⟩ : Unmarshall).readAll rs) (rs.countP Read.isValue) (reply 3 1) :=
  message_readsBack half.1 half.2 (reply_travels (by decide) 1)

/-! Over a stream. -/

/-- `async_send` takes the whole message. -/
def TakesWhole (c : Connection) : StreamStep → Prop
  | .accepts n => ∀ m ∈ c.sending.head?, n = m.length
  | .returns _ => True

theorem whole_bytes {messages : List Bytes} {c : Connection}
    (run : Reachable stream TakesWhole { sending := messages } c) :
    ∃ sent, messages = sent ++ c.sending ∧ sent.flatten = c.handed.flatten ++ c.unread := by
  apply run.invariant
  · exact ⟨[], rfl, rfl⟩
  rintro t a u - ⟨sent, split, bytes⟩ whole moved
  cases a with
  | accepts n =>
      simp only [stream, next] at moved
      split at moved
      · cases moved
      · rename_i m rest queue
        split_ifs at moved with some
        cases moved
        have all : n = m.length := whole m (by rw [queue]; rfl)
        refine ⟨sent ++ [m], by rw [split, queue, List.append_assoc]; rfl, ?_⟩
        rw [List.flatten_append, bytes, all, List.take_length, List.append_assoc]
        simp
  | returns n =>
      simp only [stream, next] at moved
      split_ifs at moved with some
      cases moved
      refine ⟨sent, split, ?_⟩
      rw [bytes, List.flatten_append, onReceiveFinished_eq _ some.2.2, List.append_assoc]
      simp

/-- What the peer understands: a buffer that does not parse ends it with an exception. -/
def received : List Bytes → List Json
  | [] => []
  | buf :: rest =>
      match parse strtod buf with
      | .ok j => j :: received rest
      | .error _ => []

/-- The first text of a stream of containers, cut anywhere else than behind it. -/
theorem parse_first {j : Json} {docs : List Json}
    (storable : ∀ d ∈ j :: docs, Storable dumpFloat strtod d ∧ Container d) {buf rest : Bytes}
    (split : ((j :: docs).map (dump dumpFloat)).flatten = buf ++ rest) {v : Json}
    (ok : parse strtod buf = .ok v) : buf = dump dumpFloat j ∧ v = normal j := by
  obtain ⟨here, container⟩ := storable j List.mem_cons_self
  rw [List.map_cons, List.flatten_cons] at split
  rcases List.append_eq_append_iff.mp split with ⟨more, whole, behind⟩ | ⟨more, whole, -⟩
  · rw [whole, parse_extended dumpFloat strtod here container] at ok
    obtain ⟨rfl, ended⟩ := ok
    cases docs with
    | nil =>
        obtain ⟨rfl, -⟩ := List.append_eq_nil_iff.mp behind.symm
        exact ⟨by rw [whole, List.append_nil], rfl⟩
    | cons d docs =>
        obtain ⟨next, container'⟩ := storable d (List.mem_cons_of_mem j List.mem_cons_self)
        obtain ⟨c, t, text, written, proper, start, -⟩ :=
          container_text dumpFloat strtod next container'
        cases more with
        | nil => exact ⟨by rw [whole, List.append_nil], rfl⟩
        | cons b more =>
            -- what follows opens the next message
            rw [List.map_cons, List.flatten_cons, written] at behind
            obtain ⟨rfl, -⟩ := List.cons.inj behind
            rw [start] at ended
            cases ended
            cases proper
  · by_cases cut : more = []
    · rw [cut, List.append_nil] at whole
      subst whole
      rw [parse_dump dumpFloat strtod here] at ok
      cases ok
      exact ⟨rfl, rfl⟩
    · exact absurd ok (parse_cut dumpFloat strtod here container whole cut v)

/-- What the peer understands is what the receives hand over whole. -/
theorem received_whole {docs : List Json}
    (storable : ∀ d ∈ docs, Storable dumpFloat strtod d ∧ Container d) {pieces : List Bytes}
    {rest : Bytes} (split : (docs.map (dump dumpFloat)).flatten = pieces.flatten ++ rest) {k : Nat}
    {v : Json} (understood : (received strtod pieces)[k]? = some v) :
    ∃ d, docs[k]? = some d ∧ pieces[k]? = some (dump dumpFloat d) ∧ v = normal d := by
  induction pieces generalizing docs k with
  | nil => cases understood
  | cons buf pieces ih =>
      rw [received] at understood
      split at understood
      · rename_i u ok
        rw [List.flatten_cons, List.append_assoc] at split
        cases docs with
        | nil =>
            obtain ⟨rfl, -⟩ := List.append_eq_nil_iff.mp split.symm
            exact absurd ok (parse_nil strtod u)
        | cons j docs =>
            obtain ⟨rfl, rfl⟩ := parse_first dumpFloat strtod storable split ok
            rw [List.map_cons, List.flatten_cons] at split
            cases k with
            | zero =>
                cases understood
                exact ⟨j, rfl, rfl, rfl⟩
            | succ k =>
                exact ih (fun d member => storable d (List.mem_cons_of_mem j member))
                  (List.append_cancel_left split) understood
      · cases understood

theorem writeAll_container {ws : List Write} (some : ws ≠ []) :
    Container (({} : Marshall).writeAll ws).json := by
  have object : ∀ (w : Write) (m : Marshall), m.json.IsDocument → Container (m.write w).json := by
    rintro w ⟨j, id⟩ document
    cases document <;> cases w <;> exact .object _
  have written : ∀ (ws : List Write) (m : Marshall), Container m.json →
      Container (m.writeAll ws).json := by
    intro ws
    induction ws with
    | nil => exact fun m container => container
    | cons w ws ih =>
        rintro ⟨j, id⟩ container
        refine ih _ ?_
        cases container with
        | array items => cases w <;> exact .array items
        | object members => exact object w ⟨.object members, id⟩ .object
  cases ws with
  | nil => exact absurd rfl some
  | cons w ws => exact written ws _ (object w {} .null)

/-- However TCP cuts and joins the messages: what the peer understands of the `k`-th buffer
is what the `k`-th message was given, and that buffer is this message, whole and alone. -/
theorem stream_readsBack {messages : List (List Write)}
    (travel : ∀ ws ∈ messages, ws ≠ [] ∧ ∀ w ∈ ws, Travels dumpFloat strtod w) {c : Connection}
    (run : Reachable stream TakesWhole
      { sending := messages.map fun ws => dump dumpFloat (({} : Marshall).writeAll ws).json } c)
    {k : Nat} {j : Json} (understood : (received strtod c.handed)[k]? = some j) :
    ∃ ws, messages[k]? = some ws ∧
      c.handed[k]? = some (dump dumpFloat (({} : Marshall).writeAll ws).json) ∧
      ∀ rs : List Read, Gives ((⟨j, 0⟩ : Unmarshall).readAll rs) (rs.countP Read.isValue) ws := by
  obtain ⟨sent, split, bytes⟩ := whole_bytes run
  have joined : ((messages.map fun ws => (({} : Marshall).writeAll ws).json).map
      (dump dumpFloat)).flatten = c.handed.flatten ++ (c.unread ++ c.sending.flatten) := by
    rw [List.map_map, ← List.append_assoc, ← bytes, ← List.flatten_append, ← split]
    rfl
  have storable : ∀ d ∈ messages.map fun ws => (({} : Marshall).writeAll ws).json,
      Storable dumpFloat strtod d ∧ Container d := by
    intro d member
    obtain ⟨ws, sent, rfl⟩ := List.mem_map.mp member
    obtain ⟨some, travels⟩ := travel ws sent
    exact ⟨writeAll_storable dumpFloat strtod .null travels, writeAll_container some⟩
  obtain ⟨d, at_k, whole, rfl⟩ := received_whole dumpFloat strtod storable joined understood
  rw [List.getElem?_map] at at_k
  obtain ⟨ws, sent', rfl⟩ := Option.map_eq_some_iff.mp at_k
  refine ⟨ws, sent', whole, fun rs => ?_⟩
  rw [readAll_eq, Nat.zero_add]
  exact (wrote_nothing.writeAll ws).fromStart.gives _

theorem twoReplies_text : [reply 3 1, reply 4 2].map
    (fun ws => dump half.1 (({} : Marshall).writeAll ws).json) = twoReplies := by
  decide +kernel

theorem apart_whole : ∃ c, Reachable stream TakesWhole { sending := twoReplies } c ∧
    c.handed = twoReplies := by
  have first : Reachable stream TakesWhole { sending := twoReplies } _ :=
    .step .init (a := .accepts 31) (by rintro _ ⟨rfl⟩; rfl) rfl
  have second : Reachable stream TakesWhole { sending := twoReplies } _ :=
    .step (.step first (a := .returns 31) trivial rfl) (a := .accepts 31)
      (by rintro _ ⟨rfl⟩; rfl) rfl
  exact ⟨_, .step second (a := .returns 31) trivial rfl, rfl⟩

theorem stream_readsBack_apart : ∃ c : Connection, ∃ j ws,
    [reply 3 1, reply 4 2][1]? = some ws ∧
      c.handed[1]? = some (dump half.1 (({} : Marshall).writeAll ws).json) ∧
      ∀ rs : List Read, Gives ((⟨j, 0⟩ : Unmarshall).readAll rs) (rs.countP Read.isValue) ws := by
  obtain ⟨c, run, handed⟩ := apart_whole
  have travel : ∀ ws ∈ [reply 3 1, reply 4 2], ws ≠ [] ∧ ∀ w ∈ ws, Travels half.1 half.2 w := by
    simp only [List.forall_mem_cons]
    exact ⟨⟨nofun, reply_travels (by decide) 1⟩, ⟨nofun, reply_travels (by decide) 2⟩, nofun⟩
  have stored : ∀ ws ∈ [reply 3 1, reply 4 2], Storable half.1 half.2 (({} : Marshall).writeAll ws).json :=
    fun ws member => writeAll_storable half.1 half.2 .null (travel ws member).2
  have understood : ∃ j, (received half.2 c.handed)[1]? = some j := by
    rw [handed, ← twoReplies_text]
    simp only [List.map_cons, List.map_nil, received, parse_dump half.1 half.2 (stored _ List.mem_cons_self),
      parse_dump half.1 half.2 (stored _ (List.mem_cons_of_mem _ List.mem_cons_self))]
    exact ⟨_, rfl⟩
  obtain ⟨j, understood⟩ := understood
  rw [← twoReplies_text] at run
  exact ⟨c, j, stream_readsBack half.1 half.2 travel run understood⟩

end AsyncRpc.Wire
