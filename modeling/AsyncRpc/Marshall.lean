import AsyncRpc.Rpc
import Mathlib.Logic.Equiv.Defs

/-! `Marshall` and `Unmarshall`: values under decimal keys, headers under keys of
their own, in one JSON document. -/
namespace AsyncRpc

/-- `dump` and `parse` of nlohmann. `Buf` is the `std::string` a message travels as,
and `text` what `dump` writes where it does not throw. -/
structure Codec where
  Buf : Type
  empty : Buf
  text : Json → Buf
  parse : Buf → Except Exn Json
  parse_text : ∀ j, j.utf8 → parse (text j) = .ok j.normal

def Codec.dump (C : Codec) (j : Json) : Except Exn C.Buf :=
  if j.utf8 then .ok (C.text j) else .error .typeError

/-- What the program is linked with: the JSON library and, for each procedure, the
types of its arguments and of its reply. `Bind` takes an `int` and returns the
`uint32_t` nonce of the server, which JSON has no trouble with. -/
structure Services extends Codec where
  Args : Nat → Type
  Rep : Nat → Type
  args : ∀ p, JsonSupport (Args p)
  rep : ∀ p, JsonSupport (Rep p)
  bindArgs : Args BIND
  bindArgs_travels : (args BIND).Travels bindArgs
  nonce : Rep BIND ≃ UInt32
  nonce_travels : ∀ r, (rep BIND).Travels r

/-- Every type of the application reads what it wrote, or nothing. -/
def Services.Faithful (S : Services) : Prop := ∀ p, (S.args p).Faithful ∧ (S.rep p).Faithful

/-- `std::to_string(id_)`. -/
def toKey (id : Nat) : String := toString id

@[simp] theorem toKey_zero : toKey 0 = "0" := rfl

structure Marshall where
  json : Json := .null
  id : Nat := 0

namespace Marshall

def reset (m : Marshall) : Marshall := { m with json := m.json.clear }

def buf (C : Codec) (m : Marshall) : Except Exn C.Buf := C.dump m.json

/-- `operator<<` of a value, given as the JSON of its `to_json`. -/
def put (m : Marshall) (t : Json) : Marshall :=
  { json := m.json.set (toKey m.id) t, id := m.id + 1 }

def putRequest (m : Marshall) (r : RequestHeader) : Marshall :=
  { m with json := m.json.set "req" r.toJson }

def putReply (m : Marshall) (r : ReplyHeader) : Marshall :=
  { m with json := m.json.set "rep" r.toJson }

end Marshall

structure Unmarshall where
  json : Json
  id : Nat := 0

namespace Unmarshall

/-- The constructor from a buffer. -/
def ofBuf (C : Codec) (buf : C.Buf) : Except Exn Unmarshall :=
  (C.parse buf).map fun j => { json := j }

/-- `operator>>` of a value of type `T`: the position advances also when it throws. -/
def get {α : Type} (T : JsonSupport α) (u : Unmarshall) : Except Exn α × Unmarshall :=
  ((u.json.atKey (toKey u.id)).bind T.fromJson, { u with id := u.id + 1 })

def getRequest (u : Unmarshall) : Except Exn RequestHeader :=
  (u.json.atKey "req").bind RequestHeader.fromJson

def getReply (u : Unmarshall) : Except Exn ReplyHeader :=
  (u.json.atKey "rep").bind ReplyHeader.fromJson

end Unmarshall

/-- An instance: every argument and reply is a `uint32_t`, and a message is the
document that the parser makes of it. -/
def Services.sample : Services where
  Buf := Json
  empty := .string ""
  text := Json.normal
  parse := .ok
  parse_text _ _ := rfl
  Args _ := UInt32
  Rep _ := UInt32
  args _ := .uint32
  rep _ := .uint32
  bindArgs := (0 : UInt32)
  bindArgs_travels := JsonSupport.uint32_travels 0
  nonce := Equiv.refl _
  nonce_travels := JsonSupport.uint32_travels

theorem Services.bind_utf8 (S : Services) {p : Nat} (isBind : BIND = p) (r : S.Rep p) :
    ((S.rep p).toJson r).utf8 := by
  subst isBind
  exact (S.nonce_travels r).1

theorem Services.sample_faithful : Services.sample.Faithful := fun _ =>
  ⟨JsonSupport.uint32_faithful, JsonSupport.uint32_faithful⟩

/-! The four documents the library sends. A request is the arguments and then the
header; the reply of a handler is its result and then the header; the error
replies of the server are the header alone. -/

def requestDoc (S : Services) (h : RequestHeader) (args : S.Args h.proc) : Marshall :=
  (({} : Marshall).put ((S.args h.proc).toJson args)).putRequest h

def replyDoc (S : Services) (p : Nat) (h : ReplyHeader) (r : S.Rep p) : Marshall :=
  (({} : Marshall).put ((S.rep p).toJson r)).putReply h

def errorDoc (h : ReplyHeader) : Marshall := ({} : Marshall).putReply h

/-- `Buf` of an error reply. -/
def errorBuf (C : Codec) (h : ReplyHeader) : C.Buf := C.text (errorDoc h).json

section Readback

variable {S : Services}

theorem buf_ok_iff {C : Codec} {m : Marshall} {buf : C.Buf} :
    m.buf C = .ok buf ↔ m.json.utf8 ∧ C.text m.json = buf := by
  unfold Marshall.buf Codec.dump
  split_ifs with plain <;> simp [plain]

/-- `Buf` throws at nothing but a string that is not UTF-8. -/
theorem buf_error_iff {C : Codec} {m : Marshall} {e : Exn} :
    m.buf C = .error e ↔ m.json.utf8 = false ∧ e = .typeError := by
  unfold Marshall.buf Codec.dump
  split_ifs with plain <;> simp [plain, eq_comm]

theorem ofBuf_buf {C : Codec} {m : Marshall} {buf : C.Buf} (written : m.buf C = .ok buf) :
    Unmarshall.ofBuf C buf = .ok ⟨m.json.normal, 0⟩ := by
  obtain ⟨plain, rfl⟩ := buf_ok_iff.mp written
  simp [Unmarshall.ofBuf, C.parse_text _ plain, Except.map]

theorem errorDoc_buf (C : Codec) (h : ReplyHeader) : (errorDoc h).buf C = .ok (errorBuf C h) := by
  have plain : (errorDoc h).json.utf8 := Json.utf8_set (j := .null) "rep" rfl h.toJson_utf8
  exact buf_ok_iff.mpr ⟨plain, rfl⟩

theorem requestDoc_utf8 (h : RequestHeader) (args : S.Args h.proc) :
    (requestDoc S h args).json.utf8 = ((S.args h.proc).toJson args).utf8 := by
  have after : ¬ "req" < "0" := by decide
  simp [requestDoc, Marshall.put, Marshall.putRequest, Json.set, Json.insert, after, Json.utf8,
    Json.utf8Members, h.toJson_utf8]

theorem replyDoc_utf8 (p : Nat) (h : ReplyHeader) (r : S.Rep p) :
    (replyDoc S p h r).json.utf8 = ((S.rep p).toJson r).utf8 := by
  have after : ¬ "rep" < "0" := by decide
  simp [replyDoc, Marshall.put, Marshall.putReply, Json.set, Json.insert, after, Json.utf8,
    Json.utf8Members, h.toJson_utf8]

theorem requestDoc_getRequest (h : RequestHeader) (args : S.Args h.proc) :
    (⟨(requestDoc S h args).json.normal, 0⟩ : Unmarshall).getRequest = .ok h := by
  simp [requestDoc, Unmarshall.getRequest, Marshall.put, Marshall.putRequest, Json.set, Json.atKey,
    Json.normal, Json.normalMembers_insert, Json.find_insert, Except.bind,
    RequestHeader.normal_toJson, RequestHeader.fromJson_toJson]

/-- What is read as a `T` from the place of the arguments. -/
theorem requestDoc_get {α : Type} (T : JsonSupport α) (h : RequestHeader) (args : S.Args h.proc) :
    (Unmarshall.get T ⟨(requestDoc S h args).json.normal, 0⟩).1 =
      T.fromJson ((S.args h.proc).toJson args).normal := by
  simp [requestDoc, Unmarshall.get, Marshall.put, Marshall.putRequest, Json.set, Json.atKey,
    Json.normal, Json.normalMembers, Json.normalMembers_insert, Json.find_insert, Json.find,
    Except.bind]

theorem replyDoc_getReply (p : Nat) (h : ReplyHeader) (r : S.Rep p) :
    (⟨(replyDoc S p h r).json.normal, 0⟩ : Unmarshall).getReply = .ok h := by
  simp [replyDoc, Unmarshall.getReply, Marshall.put, Marshall.putReply, Json.set, Json.atKey,
    Json.normal, Json.normalMembers_insert, Json.find_insert, Except.bind,
    ReplyHeader.normal_toJson, ReplyHeader.fromJson_toJson]

/-- What is read as a `T` from the place of the result. -/
theorem replyDoc_get {α : Type} (T : JsonSupport α) (p : Nat) (h : ReplyHeader) (r : S.Rep p) :
    (Unmarshall.get T ⟨(replyDoc S p h r).json.normal, 0⟩).1 =
      T.fromJson ((S.rep p).toJson r).normal := by
  simp [replyDoc, Unmarshall.get, Marshall.put, Marshall.putReply, Json.set, Json.atKey,
    Json.normal, Json.normalMembers, Json.normalMembers_insert, Json.find_insert, Json.find,
    Except.bind]

theorem errorDoc_getReply (h : ReplyHeader) :
    (⟨(errorDoc h).json.normal, 0⟩ : Unmarshall).getReply = .ok h := by
  simp [errorDoc, Unmarshall.getReply, Marshall.putReply, Json.set, Json.atKey, Json.find,
    Json.normal, Json.normalMembers, Except.bind, ReplyHeader.normal_toJson,
    ReplyHeader.fromJson_toJson]

/-- An error reply holds no value for `operator>>` to read. -/
theorem errorDoc_get {α : Type} (T : JsonSupport α) (h : ReplyHeader) :
    (Unmarshall.get T ⟨(errorDoc h).json.normal, 0⟩).1 = .error (.outOfRange "0") := by
  simp [errorDoc, Unmarshall.get, Marshall.putReply, Json.set, Json.atKey, Json.find,
    Json.normal, Json.normalMembers, Except.bind]

end Readback

end AsyncRpc
