import StageHost.Json.Basic
import StageHost.Text.Utf8
/-
  Writing JSON: compact, members in their given order.
  Inside quotes only the quote, the backslash and control bytes are escaped, so escaping works
  byte by byte on the UTF-8 form of a text.
-/
namespace StageHost.Json

/-- The bytes of an ASCII text. -/
def ascii (s : String) : List UInt8 := s.toList.map fun c => UInt8.ofNat c.toNat

/-- The lower-case hexadecimal digit of a number below sixteen. -/
def hexDigit (n : Nat) : UInt8 := if n < 10 then UInt8.ofNat (48 + n) else UInt8.ofNat (87 + n)

/-- One byte of a text inside quotes. -/
def escapeByte (b : UInt8) : List UInt8 :=
  if b = 34 then [92, 34]
  else if b = 92 then [92, 92]
  else if b = 8 then [92, 98]
  else if b = 9 then [92, 116]
  else if b = 10 then [92, 110]
  else if b = 12 then [92, 102]
  else if b = 13 then [92, 114]
  else if b < 32 then [92, 117, 48, 48, hexDigit (b.toNat / 16), hexDigit (b.toNat % 16)]
  else [b]

/-- The bytes of a text inside quotes. -/
def escape (bytes : List UInt8) : List UInt8 := bytes.flatMap escapeByte

/-- A text in quotes. -/
def writeString (s : String) : List UInt8 := 34 :: escape (Utf8.encode s) ++ [34]

/-- The decimal digits of a number. -/
def writeNat (n : Nat) : List UInt8 := (Nat.toDigits 10 n).map fun c => UInt8.ofNat c.toNat

/-- The digits of a whole number, after a minus sign if it is negative. -/
def writeInt (n : Int) : List UInt8 :=
  if n < 0 then 45 :: writeNat n.natAbs else writeNat n.natAbs

mutual
/-- The bytes of a value. -/
def write : Json → List UInt8
  | .null => ascii "null"
  | .bool true => ascii "true"
  | .bool false => ascii "false"
  | .integer n => writeInt n
  | .real x => ascii (x.text layout)
  | .string s => writeString s
  | .array [] => [91, 93]
  | .array (v :: rest) => 91 :: write v ++ writeItems rest
  | .object [] => [123, 125]
  | .object ((k, v) :: rest) => 123 :: writeString k ++ 58 :: write v ++ writeMembers rest
  | .unreadable => ascii "null"

/-- The items after the first one, and the closing bracket. -/
def writeItems : List Json → List UInt8
  | [] => [93]
  | v :: rest => 44 :: write v ++ writeItems rest

/-- The members after the first one, and the closing brace. -/
def writeMembers : List (String × Json) → List UInt8
  | [] => [125]
  | (k, v) :: rest => 44 :: writeString k ++ 58 :: write v ++ writeMembers rest
end

/-- The text of a value. -/
def text (v : Json) : String := Utf8.lossy (write v)

end StageHost.Json
