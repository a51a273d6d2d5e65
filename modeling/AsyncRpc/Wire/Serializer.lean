import AsyncRpc.Wire.Lexer

/-! `serializer::dump` without indentation, where it does not throw. -/
namespace AsyncRpc.Wire

/-- A digit of a `%04x` or of a decimal number. -/
def hexByte (d : Nat) : UInt8 := if d < 10 then .ofNat (0x30 + d) else .ofNat (0x57 + d)

def escape (c : Char) : Bytes :=
  if c.toNat = 0x08 then text "\\b"
  else if c.toNat = 0x09 then text "\\t"
  else if c.toNat = 0x0A then text "\\n"
  else if c.toNat = 0x0C then text "\\f"
  else if c.toNat = 0x0D then text "\\r"
  else if c.toNat = 0x22 then text "\\\""
  else if c.toNat = 0x5C then text "\\\\"
  else if c.toNat ≤ 0x1F then
    text "\\u" ++ [hexByte (c.toNat / 0x1000 % 16), hexByte (c.toNat / 0x100 % 16),
      hexByte (c.toNat / 0x10 % 16), hexByte (c.toNat % 16)]
  else String.utf8EncodeChar c

/-- `dump_escaped`, which fills its buffer code point by code point. -/
def dumpEscaped (s : String) : Bytes := s.toList.flatMap escape

/-- The digits of `abs_value`, two at a time from the end. -/
def dumpDigits (n : Nat) : Bytes :=
  if 100 ≤ n then dumpDigits (n / 100) ++ [hexByte (n % 100 / 10), hexByte (n % 100 % 10)]
  else if 10 ≤ n then [hexByte (n / 10), hexByte (n % 10)]
  else [hexByte n]

def dumpInteger (n : Int) : Bytes :=
  if n < 0 then byte '-' :: dumpDigits n.natAbs else dumpDigits n.natAbs

variable (dumpFloat : ℚ → Bytes)

mutual

def dump : Json → Bytes
  | .object members => byte '\x7b' :: (dumpMembers members ++ [byte '\x7d'])
  | .array items => byte '[' :: (dumpItems items ++ [byte ']'])
  | .string s => byte '"' :: (dumpEscaped s ++ [byte '"'])
  -- `dump_escaped` throws
  | .malformed _ _ => []
  | .boolean true => text "true"
  | .boolean false => text "false"
  | .numberInteger n => dumpInteger n
  | .numberUnsigned n => dumpDigits n
  | .numberFloat q => dumpFloat q
  | .notFinite => text "null"
  | .null => text "null"

def dumpItems : List Json → Bytes
  | [] => []
  | [v] => dump v
  | v :: rest => dump v ++ byte ',' :: dumpItems rest

def dumpMembers : List (String × Json) → Bytes
  | [] => []
  | [(k, v)] => byte '"' :: (dumpEscaped k ++ byte '"' :: byte ':' :: dump v)
  | (k, v) :: rest =>
      byte '"' :: (dumpEscaped k ++ byte '"' :: byte ':' :: dump v) ++ byte ',' :: dumpMembers rest

end

end AsyncRpc.Wire
