import StageHost.Guest.Memory
/-
  Why a run of guest code comes to no good end.
-/
namespace StageHost

inductive Trap
  | unreachable
  | divideByZero
  /-- The guest's own access to memory. -/
  | memoryBounds
  /-- A range that the guest gave to the host. -/
  | rangeBounds (b : OutOfBounds)
  /-- A report of scores that is not a list of scores. -/
  | malformedScores
  /-- An exit code that is not below 126. -/
  | invalidExit
  /-- The host finds no memory to read from or write to. -/
  | noMemory
  /-- The system interface finds no memory. -/
  | noSystemMemory
  /-- A loop takes more rounds than are allowed. -/
  | outOfFuel
deriving DecidableEq, Repr

namespace Trap

def message : Trap → String
  | .unreachable => "wasm trap: wasm \x60unreachable\x60 instruction executed"
  | .divideByZero => "wasm trap: integer divide by zero"
  | .memoryBounds => "wasm trap: out of bounds memory access"
  | .rangeBounds b => b.message
  | .malformedScores => "<json error>"
  | .invalidExit => "exit with invalid exit status outside of [0..126)"
  | .noMemory => "guest does not export a memory named \"memory\""
  | .noSystemMemory => "missing required memory export"
  | .outOfFuel => "wasm trap: all fuel consumed by WebAssembly"

end Trap

/-- How a run fails: by a trap, or because the guest ended its program. -/
inductive Failure
  | trapped (t : Trap)
  | exited (code : UInt32)
deriving DecidableEq, Repr

namespace Failure

/-- A failure outside of any stage. -/
def message : Failure → String
  | .trapped t => t.message
  | .exited code => "Exited with i32 exit status " ++ toString code.toNat

end Failure
end StageHost
