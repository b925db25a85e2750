import StageHost.Guest.Bridge
import StageHost.Program.Basic
/-
  Running guest code.
  A run changes the machine step by step until the function returns or the run fails; whatever
  was changed by then stays.
-/
namespace StageHost

structure Machine where
  memory : Memory := {}
  /-- The greatest number of pages that the module allows. -/
  maxPages : Nat := Memory.maxPages
  /-- Whether the host finds the memory. -/
  shared : Bool := true
  /-- The number of elements in the table. -/
  table : Nat := 0
  globals : List UInt32 := List.replicate 8 0
  locals : List UInt32 := List.replicate 8 0
  host : Host
deriving Inhabited

/-- Why a run goes no further. -/
inductive Stop
  | returned (word : UInt64)
  | failed (f : Failure)
deriving DecidableEq, Repr

/-- A step of a run. -/
abbrev Exec (α : Type) : Type := ExceptT Stop (StateM Machine) α

namespace Exec

/-- Ends the run by a trap. -/
def trap {α : Type} (t : Trap) : Exec α := throw (.failed (.trapped t))

/-- Changes the host. -/
def modifyHost (f : Host → Host) : Exec Unit := modify fun m => { m with host := f m.host }

/-- Changes the memory. -/
def modifyMemory (f : Memory → Memory) : Exec Unit := modify fun m => { m with memory := f m.memory }

/-! ## Variables and memory -/

def getVariable : Variable → Exec UInt32
  | .loc i => return (← get).locals.getD i 0
  | .glob i => return (← get).globals.getD i 0

def setVariable (x : Variable) (w : UInt32) : Exec Unit :=
  match x with
  | .loc i => modify fun m => { m with locals := m.locals.set i w }
  | .glob i => modify fun m => { m with globals := m.globals.set i w }

/-- Goes on only if a range lies in memory. -/
def inBounds (address : UInt32) (length : Nat) : Exec Unit := do
  if (← get).memory.holds address.toNat length then pure () else trap .memoryBounds

def load8 (address : UInt32) : Exec UInt32 := do
  inBounds address 1
  return ((← get).memory.get address.toNat).toUInt32

def load32 (address : UInt32) : Exec UInt32 := do
  inBounds address 4
  let m := (← get).memory
  let i := address.toNat
  return Wire.ofBytes (m.get i) (m.get (i + 1)) (m.get (i + 2)) (m.get (i + 3))

def store8 (address w : UInt32) : Exec Unit := do
  inBounds address 1
  modifyMemory fun m => m.set address.toNat w.toUInt8

def store32 (address w : UInt32) : Exec Unit := do
  inBounds address 4
  modifyMemory fun m => m.write address.toNat (Wire.word w)

def copy (target source length : UInt32) : Exec Unit := do
  inBounds source length.toNat
  inBounds target length.toNat
  modifyMemory fun m => m.write target.toNat (m.read source.toNat length.toNat)

def fill (target byte length : UInt32) : Exec Unit := do
  inBounds target length.toNat
  modifyMemory fun m => m.write target.toNat (List.replicate length.toNat byte.toUInt8)

/-- What a refused growth gives. -/
def refused : UInt32 := 0xFFFFFFFF

/-- Grows the memory by pages. The limiter is asked before the module's own maximum counts. -/
def growMemory (pages : UInt32) : Exec UInt32 := do
  let m ← get
  let old := UInt32.ofNat m.memory.pages
  if pages = 0 then return old
  let bytes := pages.toNat * Memory.pageSize
  let (granted, limiter) := m.host.limiter.askMemory (m.memory.size + bytes)
  modifyHost fun h => { h with limiter }
  if granted ∧ m.memory.pages + pages.toNat ≤ m.maxPages then
    modifyMemory fun m => m.grow bytes
    return old
  else return refused

/-- The number of pages. -/
def size : Exec UInt32 := return UInt32.ofNat (← get).memory.pages

/-- Grows the table by elements. -/
def growTable (elements : UInt32) : Exec UInt32 := do
  let m ← get
  let old := UInt32.ofNat m.table
  if elements = 0 then return old
  let (granted, limiter) := m.host.limiter.askTable (m.table + elements.toNat)
  modifyHost fun h => { h with limiter }
  if granted then
    modify fun m => { m with table := m.table + elements.toNat }
    return old
  else return refused

/-! ## Calls to the host -/

/-- Goes on only if the host finds the memory. -/
def needsMemory (t : Trap) : Exec Unit := do
  if (← get).shared then pure () else trap t

/-- Goes on with the outcome of a call to the host. -/
def ofOutcome {α : Type} : Except Trap α → Exec α
  | .ok a => return a
  | .error t => trap t

/-- Asks the host. -/
def ask (q : Question) (address room : UInt32) : Exec UInt32 := do
  needsMemory .noMemory
  let m ← get
  let (outcome, host) := Bridge.ask q address room m.memory m.host
  modifyHost fun _ => host
  let (length, memory) ← ofOutcome outcome
  modifyMemory fun _ => memory
  return length

/-- Calls a function of the host that reads memory. -/
def tell (call : Memory → Host → Except Trap Unit × Host) : Exec Unit := do
  let m ← get
  let (outcome, host) := call m.memory m.host
  modifyHost fun _ => host
  ofOutcome outcome

/-- The threshold for log records. -/
def severity : Exec UInt32 := return Bridge.severity (← get).host

def report (r : Report) (address length : UInt32) : Exec Unit := do
  needsMemory .noMemory
  tell (Bridge.report r address length)

/-- Sends a log record; the memory is needed only for records that are not dropped. -/
def logging (level : UInt32) (call : Memory → Host → Except Trap Unit × Host) : Exec Unit := do
  if (Bridge.enabled? (← get).host level.toInt32).isSome then
    needsMemory .noMemory
    tell call

def log (level address length : UInt32) : Exec Unit :=
  logging level (Bridge.log level.toInt32 address length)

def logs (level address length kvAddress kvLength : UInt32) : Exec Unit :=
  logging level (Bridge.logs level.toInt32 address length kvAddress kvLength)

/-- Where the range to be printed is put for the system interface. -/
def rangeAddress : UInt32 := 65520

/-- Where the length of the range is put. -/
def lengthAddress : UInt32 := 65524

/-- Where the system interface puts the number of bytes printed. -/
def printedAddress : UInt32 := 65528

/-- Prints a range of memory and gives the error number. -/
def print (stream address length : UInt32) : Exec UInt32 := do
  store32 rangeAddress address
  store32 lengthAddress length
  needsMemory .noSystemMemory
  let m ← get
  let (number, host) := Bridge.print stream address length m.memory m.host
  modifyHost fun _ => host
  if number = Bridge.okNumber then store32 printedAddress length
  return number

/-- Ends the program. -/
def exit (code : UInt32) : Exec Unit := do
  needsMemory .noSystemMemory
  throw (.failed (Bridge.exit code))

/-! ## Expressions and statements -/

def eval : Expr → Exec UInt32
  | .word w => return w
  | .var x => getVariable x
  | .binary op a b => do
    let x ← eval a
    let y ← eval b
    match op.eval? x y with
    | some w => return w
    | none => trap .divideByZero
  | .eqz a => do return BinaryOp.ofBool ((← eval a) == 0)
  | .load8 a => do load8 (← eval a)
  | .load32 a => do load32 (← eval a)
  | .grow a => do growMemory (← eval a)
  | .size => size
  | .growTable a => do growTable (← eval a)
  | .ask q a b => do
    let address ← eval a
    let room ← eval b
    ask q address room
  | .severity => severity
  | .print a b c => do
    let stream ← eval a
    let address ← eval b
    let length ← eval c
    print stream address length

/-- Repeats a body while a condition is not zero, at most as often as the first argument says. -/
def repeatWhile (condition : Exec UInt32) (body : Exec Unit) : Nat → Exec Unit
  | 0 => trap .outOfFuel
  | n + 1 => fun m =>
    match condition m with
    | (.error stop, m) => (.error stop, m)
    | (.ok w, m) =>
      if w = 0 then (.ok (), m)
      else
        match body m with
        | (.error stop, m) => (.error stop, m)
        | (.ok _, m) => repeatWhile condition body n m

/-- The greatest number of rounds of a loop. -/
def maxRounds : Nat := 4294967296

def run : Statement → Exec Unit
  | .skip => return ()
  | .seq a b => do
    run a
    run b
  | .set x e => do setVariable x (← eval e)
  | .store8 a e => do
    let address ← eval a
    let w ← eval e
    store8 address w
  | .store32 a e => do
    let address ← eval a
    let w ← eval e
    store32 address w
  | .copy a b c => do
    let target ← eval a
    let source ← eval b
    let length ← eval c
    copy target source length
  | .fill a b c => do
    let target ← eval a
    let byte ← eval b
    let length ← eval c
    fill target byte length
  | .perform e => do
    let _ ← eval e
    return ()
  | .report r a b => do
    let address ← eval a
    let length ← eval b
    report r address length
  | .log a b c => do
    let level ← eval a
    let address ← eval b
    let length ← eval c
    log level address length
  | .logs a b c d e => do
    let level ← eval a
    let address ← eval b
    let length ← eval c
    let kvAddress ← eval d
    let kvLength ← eval e
    logs level address length kvAddress kvLength
  | .ite c a b => do
    let w ← eval c
    if w = 0 then run b else run a
  | .loop c a => repeatWhile (eval c) (run a) maxRounds
  | .leave => throw (.returned 0)
  | .giveWord e => do throw (.returned (← eval e).toUInt64)
  | .givePair a b => do
    let high ← eval a
    let low ← eval b
    throw (.returned (high.toUInt64 <<< 32 ||| low.toUInt64))
  | .trap => trap .unreachable
  | .exit e => do exit (← eval e)

end Exec

namespace Machine

/-- Calls a function and gives the word that it returns, which is zero if it just ends. -/
def call (m : Machine) (body : Statement) : Except Failure UInt64 × Machine :=
  match Exec.run body { m with locals := List.replicate 8 0 } with
  | (.ok _, m) => (.ok 0, m)
  | (.error (.returned w), m) => (.ok w, m)
  | (.error (.failed f), m) => (.error f, m)

end Machine
end StageHost
