import Mathlib.Data.Rat.Floor

/-! The data of rpc.h: error codes, headers and the JSON they travel as. -/
namespace AsyncRpc

/-- `enum class Err : uint8_t`, in the order of the source. Each further value of the
`uint8_t` is one that has no name. -/
inductive Err where
  | reserved | ok | unmarshallReplyFailure | unmarshallArgsFailure | bindFailure
  | atmostOnceFailure | timeoutFailure | oldserverFailure | sendFailure | receiveFailure
  | connectionClosed | acceptFailure | connectFailure | cancel | timerFailure | brokenPipe
  | connectionReset | connectionAborted
  | unnamed (above : Fin 238)
  deriving DecidableEq, Repr

/-- The underlying value, which is what nlohmann writes for an enumeration. -/
def Err.code : Err → Nat
  | .reserved => 0 | .ok => 1 | .unmarshallReplyFailure => 2 | .unmarshallArgsFailure => 3
  | .bindFailure => 4 | .atmostOnceFailure => 5 | .timeoutFailure => 6 | .oldserverFailure => 7
  | .sendFailure => 8 | .receiveFailure => 9 | .connectionClosed => 10 | .acceptFailure => 11
  | .connectFailure => 12 | .cancel => 13 | .timerFailure => 14 | .brokenPipe => 15
  | .connectionReset => 16 | .connectionAborted => 17 | .unnamed above => 18 + above

theorem Err.code_lt (e : Err) : e.code < 256 := by
  cases e with
  | unnamed above => exact Nat.add_lt_add_left above.isLt 18
  | _ => decide

/-- `static_cast<Err>` of a number, which keeps its last eight bits. -/
def Err.ofCode (n : Nat) : Err :=
  if above : 18 ≤ n % 256 then .unnamed ⟨n % 256 - 18, by omega⟩
  else match n % 256 with
  | 1 => .ok | 2 => .unmarshallReplyFailure | 3 => .unmarshallArgsFailure | 4 => .bindFailure
  | 5 => .atmostOnceFailure | 6 => .timeoutFailure | 7 => .oldserverFailure | 8 => .sendFailure
  | 9 => .receiveFailure | 10 => .connectionClosed | 11 => .acceptFailure | 12 => .connectFailure
  | 13 => .cancel | 14 => .timerFailure | 15 => .brokenPipe | 16 => .connectionReset
  | 17 => .connectionAborted | _ => .reserved

@[simp] theorem Err.ofCode_code (e : Err) : Err.ofCode e.code = e := by
  cases e with
  | unnamed above =>
      have small : (18 + above.val) % 256 = 18 + above.val := Nat.mod_eq_of_lt (by omega)
      simp [ofCode, code, small]
  | _ => rfl

/-! `xid_t` and `proc_t` are `size_t`. Only `xid_++` and `front() + 1` compute with
them, and 2 ^ 64 calls of one client are out of reach, so both are kept in `Nat`. -/

def BIND : Nat := 1000

def DEFAULT_RPC_SZ : Nat := 1024

structure RequestHeader where
  xid : Nat := 0
  proc : Nat := 0
  cltNonce : UInt32 := 0
  srvNonce : UInt32 := 0
  xidRep : Nat := 0
  deriving DecidableEq, Repr

structure ReplyHeader where
  xid : Nat := 0
  err : Err := .ok
  deriving DecidableEq, Repr

/-- The exceptions that leave the modelled code: those of nlohmann, the
`runtime_error`s of the library with their texts, and one thrown by a handler. -/
inductive Exn where
  | parseError
  | typeError
  | outOfRange (key : String)
  | runtimeError (what : String)
  | handler
  deriving DecidableEq, Repr

/-- A `nlohmann::json` value. A double is a rational or, when it is infinite or NaN,
`notFinite`. A string that is not UTF-8 is `malformed`, and so is, by that key, an
object with a key that is not. Objects list their members by ascending key. -/
inductive Json where
  | null
  | boolean (b : Bool)
  | numberUnsigned (n : Nat)
  | numberInteger (n : Int)
  | numberFloat (q : ℚ)
  | notFinite
  | string (s : String)
  | malformed (bytes : ByteArray) (invalid : bytes.validateUTF8 = false)
  | array (xs : List Json)
  | object (members : List (String × Json))

namespace Json

def find (k : String) : List (String × Json) → Option Json
  | [] => none
  | (k', v) :: rest => if k = k' then some v else find k rest

/-- `at(key)` of a const object; the two ways it throws. -/
def atKey : Json → String → Except Exn Json
  | .object members, k =>
      match find k members with
      | some v => .ok v
      | none => .error (.outOfRange k)
  | _, _ => .error .typeError

/-- Where `std::map` puts a member. -/
def insert (k : String) (v : Json) : List (String × Json) → List (String × Json)
  | [] => [(k, v)]
  | (k', v') :: rest =>
      if k = k' then (k, v) :: rest
      else if k < k' then (k, v) :: (k', v') :: rest
      else (k', v') :: insert k v rest

/-- `json_[key] = v`: a null value becomes an object first. Any other value makes
`operator[]` throw, which a `Marshall` never meets: its value is null or an object. -/
def set : Json → String → Json → Json
  | .null, k, v => .object [(k, v)]
  | .object members, k, v => .object (insert k v members)
  | j, _, _ => j

/-- `clear()` empties an object and leaves null alone. -/
def clear : Json → Json
  | .object _ => .object []
  | .array _ => .array []
  | .string _ | .malformed _ _ => .string ""
  | .boolean _ => .boolean false
  | .numberUnsigned _ => .numberUnsigned 0
  | .numberInteger _ => .numberInteger 0
  | .numberFloat _ | .notFinite => .numberFloat 0
  | .null => .null

/-- The brace-enclosed list of pairs that builds an object. -/
def ofPairs (pairs : List (String × Json)) : Json :=
  pairs.foldl (fun j p => j.set p.1 p.2) (.object [])

theorem find_insert (k q : String) (v : Json) (members : List (String × Json)) :
    find q (insert k v members) = if q = k then some v else find q members := by
  induction members with
  | nil => rfl
  | cons head rest ih =>
      obtain ⟨k', v'⟩ := head
      by_cases same : k = k'
      · subst same
        simp only [insert, if_true, find]
        split_ifs <;> rfl
      · by_cases before : k < k'
        · simp only [insert, if_neg same, if_pos before, find]
        · simp only [insert, if_neg same, if_neg before, find, ih]
          by_cases here : q = k'
          · have other : q ≠ k := fun e => same (e.symm.trans here)
            simp only [if_pos here, if_neg other]
          · simp only [if_neg here]

/-! `dump` throws at a string that is not UTF-8, wherever it is in the value. -/

mutual

/-- `dump` does not throw. -/
def utf8 : Json → Bool
  | .malformed _ _ => false
  | .array items => utf8Items items
  | .object members => utf8Members members
  | _ => true

def utf8Items : List Json → Bool
  | [] => true
  | v :: rest => utf8 v && utf8Items rest

def utf8Members : List (String × Json) → Bool
  | [] => true
  | (_, v) :: rest => utf8 v && utf8Members rest

end

/-! What the parser makes of the text of a value: an integer without a sign is read as
unsigned, and `null` stands for a double that is not finite. -/

mutual

def normal : Json → Json
  | .numberInteger n => if n < 0 then .numberInteger n else .numberUnsigned n.natAbs
  | .notFinite => .null
  | .array items => .array (normalItems items)
  | .object members => .object (normalMembers members)
  | j => j

def normalItems : List Json → List Json
  | [] => []
  | v :: rest => normal v :: normalItems rest

def normalMembers : List (String × Json) → List (String × Json)
  | [] => []
  | (k, v) :: rest => (k, normal v) :: normalMembers rest

end

theorem utf8Members_insert (k : String) {v : Json} (value : v.utf8)
    {members : List (String × Json)} (rest : utf8Members members) :
    utf8Members (insert k v members) := by
  induction members with
  | nil => simp [insert, utf8Members, value]
  | cons m members ih =>
      simp only [utf8Members, Bool.and_eq_true] at rest
      simp only [insert]
      split_ifs <;> simp [utf8Members, value, rest.1, rest.2, ih rest.2]

theorem utf8_set {j v : Json} (k : String) (here : j.utf8) (value : v.utf8) :
    (j.set k v).utf8 := by
  cases j with
  | null => simp [set, utf8, utf8Members, value]
  | object members => exact utf8Members_insert k value here
  | _ => exact here

theorem utf8_ofPairs {pairs : List (String × Json)} (each : ∀ p ∈ pairs, p.2.utf8) :
    (ofPairs pairs).utf8 := by
  have kept : ∀ j : Json, j.utf8 → (pairs.foldl (fun j p => j.set p.1 p.2) j).utf8 := by
    induction pairs with
    | nil => exact fun _ here => here
    | cons p pairs ih =>
        intro j here
        exact ih (fun q member => each q (List.mem_cons_of_mem _ member)) _
          (utf8_set p.1 here (each p List.mem_cons_self))
  exact kept _ rfl

theorem normalMembers_insert (k : String) (v : Json) (members : List (String × Json)) :
    normalMembers (insert k v members) = insert k v.normal (normalMembers members) := by
  induction members with
  | nil => rfl
  | cons m members ih =>
      simp only [insert, normalMembers]
      split_ifs
      · rw [normalMembers]
      · rw [normalMembers, normalMembers]
      · rw [normalMembers, ih]

theorem normal_ofPairs {pairs : List (String × Json)} (plain : ∀ p ∈ pairs, p.2.normal = p.2) :
    (ofPairs pairs).normal = ofPairs pairs := by
  have kept : ∀ members, normalMembers members = members →
      (pairs.foldl (fun (j : Json) p => j.set p.1 p.2) (.object members)).normal =
        pairs.foldl (fun (j : Json) p => j.set p.1 p.2) (.object members) := by
    induction pairs with
    | nil => exact fun members same => by rw [List.foldl_nil, normal, same]
    | cons p pairs ih =>
        intro members same
        refine ih (fun q member => plain q (List.mem_cons_of_mem _ member)) _ ?_
        rw [normalMembers_insert, same, plain p List.mem_cons_self]
  exact kept [] rfl

/-- A negative or fractional number cast to an unsigned type of `w` bits. -/
def wrap (w : Nat) (n : Int) : Nat := (n % 2 ^ w).toNat

def trunc (q : ℚ) : Int := q.num.tdiv q.den

/-- `get_to` a `size_t`. -/
def asSize : Json → Except Exn Nat
  | .numberUnsigned n => .ok n
  | .numberInteger n => .ok (wrap 64 n)
  | .numberFloat q => .ok (wrap 64 (trunc q))
  | _ => .error .typeError

/-- `get_to` a `uint32_t`, for which nlohmann also converts booleans. -/
def asUint32 : Json → Except Exn UInt32
  | .numberUnsigned n => .ok (UInt32.ofNat n)
  | .numberInteger n => .ok (UInt32.ofNat (wrap 32 n))
  | .numberFloat q => .ok (UInt32.ofNat (wrap 32 (trunc q)))
  | .boolean b => .ok (if b then 1 else 0)
  | _ => .error .typeError

/-- `get_to` an `Err`, by way of its `uint8_t`. -/
def asErr : Json → Except Exn Err
  | .numberUnsigned n => .ok (Err.ofCode n)
  | .numberInteger n => .ok (Err.ofCode (wrap 8 n))
  | .numberFloat q => .ok (Err.ofCode (wrap 8 (trunc q)))
  | _ => .error .typeError

@[simp] theorem asErr_code (e : Err) : (numberUnsigned e.code).asErr = .ok e := by
  simp [asErr]

@[simp] theorem asUint32_toNat (n : UInt32) : (numberUnsigned n.toNat).asUint32 = .ok n := by
  simp [asUint32]

end Json

/-- A type with `to_json` and `from_json`. -/
structure JsonSupport (α : Type) where
  toJson : α → Json
  fromJson : Json → Except Exn α

namespace JsonSupport

variable {α : Type} (T : JsonSupport α)

/-- What `from_json` makes of the text of a value. -/
def readback (a : α) : Except Exn α := T.fromJson (T.toJson a).normal

/-- The value can be written and is read back. -/
def Travels (a : α) : Prop := (T.toJson a).utf8 ∧ T.readback a = .ok a

/-- What is read back, if anything, is what was written. -/
def Faithful : Prop := ∀ a b, T.readback a = .ok b → b = a

end JsonSupport

def JsonSupport.uint32 : JsonSupport UInt32 where
  toJson n := .numberUnsigned n.toNat
  fromJson := Json.asUint32

theorem JsonSupport.uint32_travels (n : UInt32) : uint32.Travels n :=
  ⟨rfl, Json.asUint32_toNat n⟩

theorem JsonSupport.uint32_faithful : uint32.Faithful := fun n _ read =>
  (Except.ok.inj ((uint32_travels n).2.symm.trans read)).symm

namespace RequestHeader

def toJson (req : RequestHeader) : Json :=
  Json.ofPairs [("xid", .numberUnsigned req.xid),
    ("proc", .numberUnsigned req.proc),
    ("clt_nonce", .numberUnsigned req.cltNonce.toNat),
    ("srv_nonce", .numberUnsigned req.srvNonce.toNat),
    ("xid_rep", .numberUnsigned req.xidRep)]

def fromJson (j : Json) : Except Exn RequestHeader := do
  let xid ← (← j.atKey "xid").asSize
  let proc ← (← j.atKey "proc").asSize
  let cltNonce ← (← j.atKey "clt_nonce").asUint32
  let srvNonce ← (← j.atKey "srv_nonce").asUint32
  let xidRep ← (← j.atKey "xid_rep").asSize
  return { xid, proc, cltNonce, srvNonce, xidRep }

theorem fromJson_toJson (req : RequestHeader) : fromJson req.toJson = .ok req := by
  simp [fromJson, toJson, Json.ofPairs, Json.set, Json.atKey, Json.find_insert, Json.asSize, bind,
    Except.bind, pure, Except.pure]

theorem toJson_utf8 (req : RequestHeader) : req.toJson.utf8 :=
  Json.utf8_ofPairs (by simp [Json.utf8])

theorem normal_toJson (req : RequestHeader) : req.toJson.normal = req.toJson :=
  Json.normal_ofPairs (by simp [Json.normal])

end RequestHeader

namespace ReplyHeader

def toJson (rep : ReplyHeader) : Json :=
  Json.ofPairs [("xid", .numberUnsigned rep.xid), ("err", .numberUnsigned rep.err.code)]

def fromJson (j : Json) : Except Exn ReplyHeader := do
  let xid ← (← j.atKey "xid").asSize
  let err ← (← j.atKey "err").asErr
  return { xid, err }

theorem fromJson_toJson (rep : ReplyHeader) : fromJson rep.toJson = .ok rep := by
  simp [fromJson, toJson, Json.ofPairs, Json.set, Json.atKey, Json.find_insert, Json.asSize, bind,
    Except.bind, pure, Except.pure]

theorem toJson_utf8 (rep : ReplyHeader) : rep.toJson.utf8 :=
  Json.utf8_ofPairs (by simp [Json.utf8])

theorem normal_toJson (rep : ReplyHeader) : rep.toJson.normal = rep.toJson :=
  Json.normal_ofPairs (by simp [Json.normal])

end ReplyHeader

end AsyncRpc
