import StageHost.Json.Writer
/-
  Reading JSON strictly: no comments, trailing commas, leading zeros, raw control characters or
  text after the value.
  A string is read in three steps: up to its closing quote, into pieces, and from pieces to text.
  What is well formed but denotes nothing becomes `Json.unreadable`.
-/
namespace StageHost.Json

/-! ## Strings -/

/-- The bytes up to the closing quote, still escaped, and what follows the quote. -/
def rawString : List UInt8 → Option (List UInt8 × List UInt8)
  | [] => none
  | b :: rest =>
    if b = 34 then some ([], rest)
    else if b = 92 then
      match rest with
      | [] => none
      | c :: rest => (rawString rest).map fun p => (b :: c :: p.1, p.2)
    else if b < 32 then none
    else (rawString rest).map fun p => (b :: p.1, p.2)

/-- A byte of a string, or a code unit given by its number. -/
inductive Piece
  | byte (b : UInt8)
  | unit (u : Nat)
deriving DecidableEq, Repr

/-- The value of a hexadecimal digit of either case. -/
def hexValue? (b : UInt8) : Option Nat :=
  if 48 ≤ b ∧ b ≤ 57 then some (b.toNat - 48)
  else if 97 ≤ b ∧ b ≤ 102 then some (b.toNat - 87)
  else if 65 ≤ b ∧ b ≤ 70 then some (b.toNat - 55)
  else none

/-- The number of four hexadecimal digits. -/
def hexUnit? (a b c d : UInt8) : Option Nat := do
  return (((← hexValue? a) * 16 + (← hexValue? b)) * 16 + (← hexValue? c)) * 16 + (← hexValue? d)

/-- The byte that a backslash and a letter stand for. -/
def simpleEscape? (b : UInt8) : Option UInt8 :=
  if b = 34 ∨ b = 92 ∨ b = 47 then some b
  else if b = 98 then some 8
  else if b = 116 then some 9
  else if b = 110 then some 10
  else if b = 102 then some 12
  else if b = 114 then some 13
  else none

/-- The pieces of an escaped string. -/
def pieces? : List UInt8 → Option (List Piece)
  | [] => some []
  | 92 :: 117 :: a :: b :: c :: d :: rest => do
    return .unit (← hexUnit? a b c d) :: (← pieces? rest)
  | 92 :: c :: rest => do
    return .byte (← simpleEscape? c) :: (← pieces? rest)
  | [92] => none
  | b :: rest => do return .byte b :: (← pieces? rest)

/-- The first half of a surrogate pair. -/
def isHigh (u : Nat) : Bool := 0xD800 ≤ u && u < 0xDC00

/-- The second half of a surrogate pair. -/
def isLow (u : Nat) : Bool := 0xDC00 ≤ u && u < 0xE000

/-- The bytes of some pieces, pairs of surrogates joined; a half without its partner has none. -/
def assemble? : List Piece → Option (List UInt8)
  | [] => some []
  | .byte b :: rest => (assemble? rest).map (b :: ·)
  | .unit u :: .unit v :: rest =>
    if isHigh u && isLow v then
      (assemble? rest).map
        (String.utf8EncodeChar (Char.ofNat (0x10000 + (u - 0xD800) * 1024 + (v - 0xDC00))) ++ ·)
    else if isHigh u || isLow u then none
    else (assemble? (.unit v :: rest)).map (String.utf8EncodeChar (Char.ofNat u) ++ ·)
  | .unit u :: rest =>
    if isHigh u || isLow u then none
    else (assemble? rest).map (String.utf8EncodeChar (Char.ofNat u) ++ ·)

/-- A string after its opening quote: its text, if it denotes one, and the rest. -/
def readString (bytes : List UInt8) : Option (Option String × List UInt8) := do
  let (raw, rest) ← rawString bytes
  let pieces ← pieces? raw
  return ((assemble? pieces).bind Utf8.decode?, rest)

/-! ## Numbers -/

/-- A decimal digit. -/
def isDigit (b : UInt8) : Bool := 48 ≤ b && b ≤ 57

/-- The digits at the front, and the rest. -/
def spanDigits (bytes : List UInt8) : List UInt8 × List UInt8 :=
  (bytes.takeWhile isDigit, bytes.dropWhile isDigit)

/-- The number of some digits. -/
def ofDigits (digits : List UInt8) : Nat := digits.foldl (fun n b => n * 10 + (b.toNat - 48)) 0

/-- The parts of a number as it is written. -/
structure Literal where
  negative : Bool
  whole : List UInt8
  fraction : Option (List UInt8)
  exponent : Option Int
deriving Repr

/-- The fraction after a point: at least one digit. -/
def readFraction : List UInt8 → Option (Option (List UInt8) × List UInt8)
  | 46 :: rest =>
    match spanDigits rest with
    | ([], _) => none
    | (digits, rest) => some (some digits, rest)
  | rest => some (none, rest)

/-- The exponent: a sign or none, and at least one digit. -/
def readExponent : List UInt8 → Option (Option Int × List UInt8)
  | b :: rest =>
    if b = 101 ∨ b = 69 then
      let (negative, rest) : Bool × List UInt8 :=
        match rest with
        | 43 :: rest => (false, rest)
        | 45 :: rest => (true, rest)
        | rest => (false, rest)
      match spanDigits rest with
      | ([], _) => none
      | (digits, rest) =>
        let n : Int := ofDigits digits
        some (some (if negative then -n else n), rest)
    else some (none, b :: rest)
  | [] => some (none, [])

/-- A number: no leading zero, and a digit on either side of a point. -/
def readLiteral (bytes : List UInt8) : Option (Literal × List UInt8) := do
  let (negative, bytes) : Bool × List UInt8 :=
    match bytes with
    | 45 :: rest => (true, rest)
    | rest => (false, rest)
  let (whole, rest) := spanDigits bytes
  match whole with
  | [] => none
  | 48 :: _ :: _ => none
  | _ =>
    let (fraction, rest) ← readFraction rest
    let (exponent, rest) ← readExponent rest
    return (⟨negative, whole, fraction, exponent⟩, rest)

/-- The digits of a significand as far as they fit into 64 bits, and how many are left over. -/
def significand (n : Nat) : List UInt8 → Nat × Nat
  | [] => (n, 0)
  | d :: ds =>
    let n' := n * 10 + (d.toNat - 48)
    if n' < UInt64.size then significand n' ds else (n, ds.length + 1)

/-- The value of a written number. A whole number without point and exponent stays one if 64 bits
hold it and it is not minus zero. -/
def Literal.value (l : Literal) : Json :=
  let whole := ofDigits l.whole
  let n : Int := if l.negative then -whole else whole
  if l.fraction.isNone ∧ l.exponent.isNone ∧ fits n ∧ ¬ (l.negative ∧ whole = 0) then .integer n
  else
    let (m, dropped) := significand 0 l.whole
    let (m, places) := match l.fraction with
      | none => (m, 0)
      | some ds => let (m, left) := significand m ds; (m, ds.length - left)
    match Binary64.ofScientific l.negative m (dropped - places + l.exponent.getD 0) with
    | some x => .real x
    | none => .unreadable

/-! ## Values -/

/-- White space between tokens. -/
def isSpace (b : UInt8) : Bool := b == 32 || b == 9 || b == 10 || b == 13

/-- The bytes after white space. -/
def skipSpace (bytes : List UInt8) : List UInt8 := bytes.dropWhile isSpace

/-- The rest after an expected word. -/
def expect : List UInt8 → List UInt8 → Option (List UInt8)
  | [], bytes => some bytes
  | _ :: _, [] => none
  | w :: ws, b :: bytes => if w = b then expect ws bytes else none

/-- An object of members, unreadable if a key denotes no text. -/
def ofMembers (members : List (Option String × Json)) : Json :=
  match members.mapM fun m => m.1.map (·, m.2) with
  | some members => .object members
  | none => .unreadable

mutual
/-- A value and the rest; every call needs one unit of fuel, and every call reads a byte. -/
def readValue : Nat → List UInt8 → Option (Json × List UInt8)
  | 0, _ => none
  | fuel + 1, bytes =>
    match skipSpace bytes with
    | [] => none
    | b :: rest =>
      if b = 110 then do return (.null, ← expect (ascii "ull") rest)
      else if b = 116 then do return (.bool true, ← expect (ascii "rue") rest)
      else if b = 102 then do return (.bool false, ← expect (ascii "alse") rest)
      else if b = 34 then do
        let (s, rest) ← readString rest
        return (match s with
          | some s => .string s
          | none => .unreadable, rest)
      else if b = 91 then
        match skipSpace rest with
        | 93 :: rest => some (.array [], rest)
        | rest => do
          let (v, rest) ← readValue fuel rest
          let (items, rest) ← readItems fuel rest
          return (.array (v :: items), rest)
      else if b = 123 then
        match skipSpace rest with
        | 125 :: rest => some (.object [], rest)
        | rest => do
          let (m, rest) ← readMember fuel rest
          let (members, rest) ← readMembers fuel rest
          return (ofMembers (m :: members), rest)
      else do
        let (l, rest) ← readLiteral (b :: rest)
        return (l.value, rest)

/-- The items after the first one, up to the closing bracket. -/
def readItems : Nat → List UInt8 → Option (List Json × List UInt8)
  | 0, _ => none
  | fuel + 1, bytes =>
    match skipSpace bytes with
    | 93 :: rest => some ([], rest)
    | 44 :: rest => do
      let (v, rest) ← readValue fuel rest
      let (items, rest) ← readItems fuel rest
      return (v :: items, rest)
    | _ => none

/-- A key, a colon and a value. -/
def readMember : Nat → List UInt8 → Option ((Option String × Json) × List UInt8)
  | 0, _ => none
  | fuel + 1, bytes =>
    match skipSpace bytes with
    | 34 :: rest => do
      let (key, rest) ← readString rest
      match skipSpace rest with
      | 58 :: rest => do
        let (v, rest) ← readValue fuel rest
        return ((key, v), rest)
      | _ => none
    | _ => none

/-- The members after the first one, up to the closing brace. -/
def readMembers : Nat → List UInt8 → Option (List (Option String × Json) × List UInt8)
  | 0, _ => none
  | fuel + 1, bytes =>
    match skipSpace bytes with
    | 125 :: rest => some ([], rest)
    | 44 :: rest => do
      let (m, rest) ← readMember fuel rest
      let (members, rest) ← readMembers fuel rest
      return (m :: members, rest)
    | _ => none
end

/-- The value that some bytes hold, with nothing but white space around it. -/
def read? (bytes : List UInt8) : Option Json :=
  match readValue (bytes.length + 1) bytes with
  | some (v, rest) => if skipSpace rest = [] then some v else none
  | none => none

/-- The value that a text holds. -/
def parse? (s : String) : Option Json := read? (Utf8.encode s)

end StageHost.Json
