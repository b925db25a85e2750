/-
  UTF-8: how guest bytes are read as text.
  `scan` reads bytes into scalar values and marks each maximal ill-formed piece by `none`.
  `lossy` shows such a piece as U+FFFD, `decode?` refuses it, `encode` writes text back.
-/
namespace StageHost.Utf8

/-- What a begun sequence still expects: the range its next byte must lie in, how many bytes
follow that one, and the bits read so far. -/
structure Pending where
  low : UInt8
  high : UInt8
  more : Nat
  bits : Nat
deriving DecidableEq, Repr

/-- How a byte may begin a sequence. -/
inductive Lead
  /-- A byte that is a character of its own. -/
  | single (c : Char)
  /-- The first byte of a longer sequence. -/
  | opens (p : Pending)
  /-- A byte that begins nothing. -/
  | stray
deriving DecidableEq, Repr

/-- The first-byte table: it leaves no room for overlong forms, surrogates or values above
U+10FFFF. -/
def lead (b : UInt8) : Lead :=
  if b < 0x80 then .single (Char.ofNat b.toNat)
  else if b < 0xC2 then .stray
  else if b < 0xE0 then .opens ⟨0x80, 0xBF, 0, b.toNat - 0xC0⟩
  else if b = 0xE0 then .opens ⟨0xA0, 0xBF, 1, 0⟩
  else if b = 0xED then .opens ⟨0x80, 0x9F, 1, 0xD⟩
  else if b < 0xF0 then .opens ⟨0x80, 0xBF, 1, b.toNat - 0xE0⟩
  else if b = 0xF0 then .opens ⟨0x90, 0xBF, 2, 0⟩
  else if b < 0xF4 then .opens ⟨0x80, 0xBF, 2, b.toNat - 0xF0⟩
  else if b = 0xF4 then .opens ⟨0x80, 0x8F, 2, 4⟩
  else .stray

/-- Reads bytes, `none` standing for a maximal piece that is no character. A byte that cannot
continue a begun sequence ends it and is read anew. -/
def scan : Option Pending → List UInt8 → List (Option Char)
  | none, [] => []
  | some _, [] => [none]
  | none, b :: bs =>
    match lead b with
    | .single c => some c :: scan none bs
    | .opens p => scan (some p) bs
    | .stray => none :: scan none bs
  | some p, b :: bs =>
    if p.low ≤ b ∧ b ≤ p.high then
      let bits := p.bits * 64 + (b.toNat - 0x80)
      match p.more with
      | 0 => some (Char.ofNat bits) :: scan none bs
      | n + 1 => scan (some ⟨0x80, 0xBF, n, bits⟩) bs
    else
      match lead b with
      | .single c => none :: some c :: scan none bs
      | .opens p => none :: scan (some p) bs
      | .stray => none :: none :: scan none bs

/-- The text of some bytes, each ill-formed piece shown as U+FFFD. -/
def lossy (bytes : List UInt8) : String :=
  String.ofList ((scan none bytes).map (·.getD '\uFFFD'))

/-- The text of some bytes, if they are well formed. -/
def decode? (bytes : List UInt8) : Option String :=
  ((scan none bytes).mapM id).map String.ofList

/-- The bytes of a text. -/
def encode (s : String) : List UInt8 :=
  s.toList.flatMap String.utf8EncodeChar

end StageHost.Utf8
