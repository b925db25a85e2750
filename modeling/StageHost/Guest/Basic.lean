import StageHost.Guest.Handles
import StageHost.Guest.Machine
import StageHost.Prepare
/-
  Guests: instances of a module, each with a memory and a host of its own.
-/
namespace StageHost

structure Guest where
  id : Nat
  module : Prepared
  handles : Handles
  machine : Machine
deriving Inhabited

/-- Why a guest cannot be made. -/
inductive CreationCause
  /-- The memory that the module wants, in pages, is over the limit. -/
  | memory (pages : Nat)
  /-- The table that the module wants, in elements, is over the limit. -/
  | table (elements : Nat)
  /-- Placing the data or running the start function failed. -/
  | start (f : Failure)
  | initializer (f : Failure)
  /-- A function that is to be called later on is not there. -/
  | handle (e : HandleError)
deriving DecidableEq, Repr

namespace CreationCause

/-- The wording, with the name of the module. -/
def message (name : String) : CreationCause → String
  | .memory pages =>
    "instantiating " ++ name ++ ": memory minimum size of " ++ toString pages
      ++ " pages exceeds memory limits"
  | .table elements =>
    "instantiating " ++ name ++ ": table minimum size of " ++ toString elements
      ++ " elements exceeds table limits"
  | .start f => "instantiating " ++ name ++ ": " ++ f.message
  | .initializer f => name ++ " " ++ Program.initializerName ++ " failed: " ++ f.message
  | .handle e => e.message

end CreationCause

/-- A guest that could not be made, and what it said until then. -/
structure CreationError where
  message : String
  transcript : Transcript := []
deriving DecidableEq, Repr

namespace Guest

/-- A part of making a guest. -/
abbrev Creation (α : Type) : Type := Except (CreationCause × Transcript) α

/-- The machine with the memory that the module asks for. -/
def allotMemory (shape : Option MemoryShape) (m : Machine) : Creation Machine :=
  match shape with
  | none => .ok m
  | some s =>
    let bytes := s.pages * Memory.pageSize
    match m.host.limiter.askMemory bytes with
    | (true, limiter) =>
      .ok { m with
        memory := .zeros bytes
        maxPages := s.max.getD Memory.maxPages
        host := { m.host with limiter } }
    | (false, _) => .error (.memory s.pages, m.host.transcript)

/-- The machine with the table that the module asks for. -/
def allotTable (elements : Option Nat) (m : Machine) : Creation Machine :=
  match elements with
  | none => .ok m
  | some n =>
    match m.host.limiter.askTable n with
    | (true, limiter) => .ok { m with table := n, host := { m.host with limiter } }
    | (false, _) => .error (.table n, m.host.transcript)

/-- The machine with the data in place, each segment over those before it. -/
def placeData : List Segment → Machine → Creation Machine
  | [], m => .ok m
  | s :: rest, m =>
    if m.memory.holds s.address s.bytes.length then
      placeData rest { m with memory := m.memory.write s.address s.bytes }
    else .error (.start (.trapped .memoryBounds), m.host.transcript)

/-- The machine after a function that must not fail, if there is one. -/
def mustRun (cause : Failure → CreationCause) (body : Option Statement) (m : Machine) :
    Creation Machine :=
  match body with
  | none => .ok m
  | some body =>
    match m.call body with
    | (.ok _, m) => .ok m
    | (.error f, m) => .error (cause f, m.host.transcript)

/-- Goes on with what a look-up found. -/
def mustFind {α : Type} (found : Except HandleError α) (m : Machine) : Creation α :=
  found.mapError fun e => (.handle e, m.host.transcript)

/-- The machine after the initializer, whose output and that of the start function are dropped.
Without an initializer the output stays. -/
def runInitializer (module : Prepared) (m : Machine) : Creation Machine :=
  if module.hasInitializer then do
    let f ← mustFind (module.program.handle Program.initializerName .unit) m
    let m ← mustRun .initializer (some f.body) m
    return { m with host := m.host.takeDiagnostics.2 }
  else return m

/-- The machine of a new guest. -/
def boot (module : Prepared) (settings : Settings) : Creation Machine := do
  let p := module.program
  let m : Machine := { shared := p.exportsMemory, host := .ofSettings settings }
  let m ← allotMemory p.memory m
  let m ← allotTable p.table m
  let m ← placeData p.data m
  let m ← mustRun .start p.start m
  runInitializer module m

/-- The machine of a new guest, and the handles to its stages. -/
def assemble (module : Prepared) (settings : Settings) : Creation (Machine × Handles) := do
  let m ← boot module settings
  let handles ← mustFind (Handles.ofStages module.program module.exports) m
  return (m, handles)

/-- Makes a guest: memory, table, data, the start function, the initializer, and the handles. -/
def create (module : Prepared) (settings : Settings) (id : Nat) : Except CreationError Guest :=
  match assemble module settings with
  | .ok (machine, handles) => .ok { id, module, handles, machine }
  | .error (cause, transcript) => .error ⟨cause.message module.name, transcript⟩

/-- The function that a call runs, from the table that its stage looks in. -/
def body? (g : Guest) (c : StageCall) : Option Statement :=
  (g.handles.lookup? c.stage c.yield).map (·.body)

/-- The machine as a call begins. -/
def enter (m : Machine) (c : StageCall) : Machine :=
  let host := m.host.beginCall c.context
  { m with host := if c.beginsCycle then host.resetCycle else host }

/-- Calls a stage. Whatever comes of it, the call is over afterwards and what the guest printed
is taken. -/
def call (g : Guest) (c : StageCall) : Except CallError Outcome × Guest :=
  match g.body? c with
  | none => (.error (.notExported c.stage), g)
  | some body =>
    let (result, m) := (enter g.machine c).call body
    let (context, host) := m.host.endCall
    let (diagnostics, host) := host.takeDiagnostics
    let g := { g with machine := { m with host } }
    match result with
    | .ok word => (.ok ⟨word, context.reported⟩, g)
    | .error f => (.error (.ofFailure c.stage diagnostics f), g)

/-- What the guest said since this was last asked. -/
def takeTranscript (g : Guest) : Transcript × Guest :=
  let (t, host) := g.machine.host.takeTranscript
  (t, { g with machine := { g.machine with host } })

end Guest
end StageHost
