import StageHost.Program.Basic
import StageHost.Text.Utf8
/-
  Reading modules in binary format, version 1.
  A module is a sequence of sections in a fixed order, each with its length; custom sections may
  stand anywhere. What is read here are types, imports, functions, memories, exports and code
  whose bodies are straight lines of constants. Other sections may stand there empty.
-/
namespace StageHost.Binary

/-- Reads from the front of some bytes, or refuses them. -/
abbrev Reader (α : Type) : Type := StateT (List UInt8) Option α

namespace Reader

/-- Refuses. -/
def fail {α : Type} : Reader α := fun _ => none

/-- The next byte. -/
def byte : Reader UInt8
  | [] => none
  | b :: rest => some (b, rest)

/-- The next bytes, as many as asked for. -/
def take (n : Nat) : Reader (List UInt8) := fun bytes =>
  if n ≤ bytes.length then some (bytes.take n, bytes.drop n) else none

/-- Runs a reader on some bytes, all of which it must use. -/
def whole {α : Type} (read : Reader α) (bytes : List UInt8) : Option α :=
  match read bytes with
  | some (a, []) => some a
  | _ => none

/-- As many of a kind as a number says. -/
def times {α : Type} (read : Reader α) : Nat → Reader (List α)
  | 0 => pure []
  | n + 1 => do
    let a ← read
    let rest ← times read n
    return a :: rest

/-! ## Numbers -/

/-- Groups of seven bits, the lowest first, at most as many as the first argument says. The last
byte has no continuation bit. Gives the number, the bits that were read, and the last byte. -/
def groups : Nat → Nat → Nat → Reader (Nat × Nat × UInt8)
  | 0, _, _ => fail
  | n + 1, shift, sum => do
    let b ← byte
    let sum := sum + (b.toNat % 128) * Nat.pow 2 shift
    if b < 128 then return (sum, shift + 7, b) else groups n (shift + 7) sum

/-- A number of 32 bits without sign. -/
def u32 : Reader Nat := do
  let (n, _, _) ← groups 5 0 0
  guard (n < UInt32.size)
  return n

/-- A number with sign, of some bits: its last byte repeats the sign. -/
def signed (bits : Nat) : Reader Int := do
  let (n, read, last) ← groups ((bits + 6) / 7) 0 0
  let value : Int := if last &&& 64 = 0 then n else n - Nat.pow 2 read
  let bound : Int := Nat.pow 2 (bits - 1)
  guard (-bound ≤ value && value < bound)
  return value

/-- A list with its length before it. -/
def list {α : Type} (read : Reader α) : Reader (List α) := do times read (← u32)

/-- A text with its length in bytes before it. -/
def text : Reader String := do
  let n ← u32
  guard (n ≤ 100000)
  match Utf8.decode? (← take n) with
  | some s => return s
  | none => fail

end Reader

open Reader

/-! ## Types -/

def valueType : Reader ValueType := do
  match ← byte with
  | 0x7F => return .i32
  | 0x7E => return .i64
  | 0x7D => return .f32
  | 0x7C => return .f64
  | 0x7B => return .v128
  | 0x70 => return .funcref
  | 0x6F => return .externref
  | _ => fail

def signature : Reader Signature := do
  guard ((← byte) == 0x60)
  let params ← list valueType
  let results ← list valueType
  guard (params.length ≤ 1000 && results.length ≤ 1000)
  return ⟨params, results⟩

/-- A least number and maybe a greatest one, neither above a bound. -/
def limits (bound : Nat) : Reader (Nat × Option Nat) := do
  match ← byte with
  | 0 => do
    let low ← u32
    guard (low ≤ bound)
    return (low, none)
  | 1 => do
    let low ← u32
    let high ← u32
    guard (low ≤ high && high ≤ bound)
    return (low, some high)
  | _ => fail

def memoryShape : Reader MemoryShape := do
  let (pages, max) ← limits 65536
  return { pages, max }

/-! ## Sections -/

/-- What the sections read so far hold. -/
structure Parts where
  types : List Signature := []
  imports : List Import := []
  /-- The signatures of all functions, the imported ones first. -/
  functions : List Signature := []
  importedFunctions : Nat := 0
  memories : List MemoryShape := []
  tables : Nat := 0
  globals : Nat := 0
  exports : List (String × UInt8 × Nat) := []
  start : Option Nat := none
  bodies : List Statement := []
deriving Inhabited

/-- The type of a number. -/
def Parts.type (m : Parts) : Reader Signature := do
  match m.types[(← u32)]? with
  | some s => return s
  | none => fail

/-- Reads an import and counts what it brings. -/
def importEntry (m : Parts) : Reader Parts := do
  let space ← text
  let name ← text
  let add (signature : Option Signature) : Parts :=
    { m with imports := m.imports ++ [⟨space, name, signature⟩] }
  match ← byte with
  | 0 => do
    let s ← m.type
    let m := add (some s)
    return { m with functions := m.functions ++ [s], importedFunctions := m.importedFunctions + 1 }
  | 1 => do
    guard ([0x70, 0x6F].contains (← byte))
    let _ ← limits 10000000
    let m := add none
    return { m with tables := m.tables + 1 }
  | 2 => do
    let shape ← memoryShape
    let m := add none
    return { m with memories := m.memories ++ [shape] }
  | 3 => do
    let _ ← valueType
    guard ((← byte) < 2)
    let m := add none
    return { m with globals := m.globals + 1 }
  | _ => fail

/-- Reads some imports. -/
def importEntries : Nat → Parts → Reader Parts
  | 0, m => return m
  | n + 1, m => do importEntries n (← importEntry m)

/-- Reads an export, which must be of something that is there. -/
def exportEntry (m : Parts) : Reader (String × UInt8 × Nat) := do
  let name ← text
  let kind ← byte
  let index ← u32
  let count ← match kind with
    | 0 => pure m.functions.length
    | 1 => pure m.tables
    | 2 => pure m.memories.length
    | 3 => pure m.globals
    | _ => fail
  guard (index < count)
  return (name, kind, index)

/-! ## Bodies -/

/-- A value on the stack: its type, and its bits if it is a whole number. -/
structure Constant where
  type : ValueType
  bits : UInt64 := 0
deriving Inhabited

/-- The stack of a straight line. Once the line has ended, operands that are missing are taken as
given. -/
structure Line where
  stack : List Constant := []
  ended : Option Statement := none
deriving Inhabited

namespace Line

/-- The line with one more value. -/
def push (l : Line) (c : Constant) : Line := { l with stack := c :: l.stack }

/-- The line without its last value, if it can have one. -/
def pop? (l : Line) : Option Line :=
  match l.stack with
  | _ :: rest => some { l with stack := rest }
  | [] => if l.ended.isSome then some l else none

/-- Whether the values on top are of given types, the last type on top. -/
def offers (l : Line) : List ValueType → List Constant → Bool
  | [], _ => true
  | _ :: _, [] => l.ended.isSome
  | t :: ts, c :: cs => c.type == t && l.offers ts cs

/-- The statement that gives the value on top as the result. -/
def give (l : Line) (results : List ValueType) : Statement :=
  match results, l.stack with
  | [.i32], c :: _ => .giveWord (.word c.bits.toUInt32)
  | [.i64], c :: _ => .givePair (.word (c.bits >>> 32).toUInt32) (.word c.bits.toUInt32)
  | _, _ => .leave

/-- The line ended by a statement, unless it had ended before; what stood on the stack is gone. -/
def finish (l : Line) (s : Statement) : Line := ⟨[], some (l.ended.getD s)⟩

end Line

/-- The instructions of a body up to its end. -/
def instructions (results : List ValueType) : Nat → Line → Reader Statement
  | 0, _ => fail
  | fuel + 1, l => do
    match ← byte with
    | 0x00 => instructions results fuel (l.finish .trap)
    | 0x01 => instructions results fuel l
    | 0x0B => do
      guard (l.offers results.reverse l.stack)
      guard (l.stack.length ≤ results.length)
      return l.ended.getD (l.give results)
    | 0x0F => do
      guard (l.offers results.reverse l.stack)
      instructions results fuel (l.finish (l.give results))
    | 0x1A =>
      match l.pop? with
      | some l => instructions results fuel l
      | none => fail
    | 0x41 => do
      let n ← signed 32
      instructions results fuel (l.push ⟨.i32, (Int32.ofInt n).toUInt32.toUInt64⟩)
    | 0x42 => do
      let n ← signed 64
      instructions results fuel (l.push ⟨.i64, (Int64.ofInt n).toUInt64⟩)
    | 0x43 => do
      let _ ← take 4
      instructions results fuel (l.push { type := .f32 })
    | 0x44 => do
      let _ ← take 8
      instructions results fuel (l.push { type := .f64 })
    | _ => fail

/-- A body with its length before it. -/
def body (s : Signature) : Reader Statement := do
  let size ← u32
  let bytes ← take size
  let content : Reader Statement := do
    let locals ← list (do
      let n ← u32
      let _ ← valueType
      return n)
    guard (locals.foldl (· + ·) 0 + s.params.length ≤ 50000)
    instructions s.results (bytes.length + 1) {}
  match whole content bytes with
  | some c => return c
  | none => fail

/-- A body for each of some functions. -/
def bodiesOf : List Signature → Reader (List Statement)
  | [] => return []
  | s :: rest => do
    let b ← body s
    let bs ← bodiesOf rest
    return b :: bs

/-! ## The whole module -/

/-- The place of a section in the order of sections. -/
def rank? : UInt8 → Option Nat
  | 1 => some 1
  | 2 => some 2
  | 3 => some 3
  | 4 => some 4
  | 5 => some 5
  | 6 => some 7
  | 7 => some 8
  | 8 => some 9
  | 9 => some 10
  | 12 => some 11
  | 10 => some 12
  | 11 => some 13
  | _ => none

/-- Reads the content of a section. -/
def sectionContent (id : UInt8) (m : Parts) : Reader Parts :=
  match id with
  | 1 => do return { m with types := ← list signature }
  | 2 => do importEntries (← u32) m
  | 3 => do
    let declared ← list m.type
    return { m with functions := m.functions ++ declared }
  | 5 => do
    let shapes ← list memoryShape
    return { m with memories := m.memories ++ shapes }
  | 7 => do
    let exports ← list (exportEntry m)
    return { m with exports }
  | 8 => do
    let index ← u32
    guard (m.functions[index]? == some .unit)
    return { m with start := some index }
  | 10 => do
    let declared := m.functions.drop m.importedFunctions
    guard ((← u32) == declared.length)
    return { m with bodies := ← bodiesOf declared }
  | _ => do
    guard ((← u32) == 0)
    return m

/-- Reads sections; `last` is the place of the last one that was not custom. -/
def sections : Nat → Nat → Parts → List UInt8 → Option Parts
  | _, _, m, [] => some m
  | 0, _, _, _ => none
  | fuel + 1, last, m, id :: rest =>
    match (do take (← u32) : Reader (List UInt8)) rest with
    | none => none
    | some (content, rest) =>
      if id = 0 then
        match text content with
        | some _ => sections fuel last m rest
        | none => none
      else
        match rank? id with
        | none => none
        | some place =>
          if place ≤ last then none
          else
            match whole (sectionContent id m) content with
            | some m => sections fuel place m rest
            | none => none

/-- The program of the parts of a module; every declared function needs a body. -/
def Parts.program? (m : Parts) : Option Program :=
  if m.importedFunctions + m.bodies.length = m.functions.length then
    let bodyOf (index : Nat) : Statement :=
      (m.bodies[index - m.importedFunctions]?).getD .leave
    let exported (e : String × UInt8 × Nat) : Export :=
      ⟨e.1, match e.2.1 with
        | 0 => .function ((m.functions[e.2.2]?).getD .unit) (bodyOf e.2.2)
        | 1 => .store .table
        | 2 => .store .memory
        | _ => .store .global⟩
    some
      { imports := m.imports
        exports := m.exports.map exported
        memory := m.memories.head?
        table := none
        start := m.start.map bodyOf }
  else none

/-- The eight bytes that a module begins with. -/
def preamble : List UInt8 := [0, 0x61, 0x73, 0x6D, 1, 0, 0, 0]

/-- The program of a module, if its bytes are well formed. -/
def read? (bytes : List UInt8) : Option Program :=
  if bytes.take 8 = preamble then do
    let m ← sections (bytes.length + 1) 0 {} (bytes.drop 8)
    m.program?
  else none

end StageHost.Binary
