/-
  The caps on the memory and the tables of a guest, and the memory used so far.
-/
namespace StageHost

structure Limiter where
  memoryLimit : Nat
  tableLimit : Nat
  /-- The size of the last memory granted, in bytes. -/
  memoryUsed : Nat := 0
deriving DecidableEq, Repr, Inhabited

namespace Limiter

/-- The greatest number of elements in the table of a guest. -/
def standardTableLimit : Nat := 10000

/-- Asks for a memory of some bytes. -/
def askMemory (l : Limiter) (bytes : Nat) : Bool × Limiter :=
  if l.memoryLimit < bytes then (false, l) else (true, { l with memoryUsed := bytes })

/-- Asks for a table of some elements. -/
def askTable (l : Limiter) (elements : Nat) : Bool × Limiter :=
  (decide (elements ≤ l.tableLimit), l)

end Limiter
end StageHost
