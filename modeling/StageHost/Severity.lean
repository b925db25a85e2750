/-
  Severities of guest log records, and of the threshold below which records are dropped.
-/
namespace StageHost

inductive Severity
  | debug
  | info
  | warn
  | error
deriving DecidableEq, Repr, Inhabited

namespace Severity

/-- The number of a severity; a greater one is more severe. -/
def toInt : Severity → Int
  | .debug => 0
  | .info => 1
  | .warn => 2
  | .error => 3

/-- The severity of a number from 0 to 3. -/
def ofInt? : Int → Option Severity
  | 0 => some .debug
  | 1 => some .info
  | 2 => some .warn
  | 3 => some .error
  | _ => none

theorem ofInt?_toInt (s : Severity) : ofInt? s.toInt = some s := by cases s <;> rfl

/-- Where nothing is configured, records from `info` on are kept. -/
def standard : Severity := .info

/-- Severities are ordered by their numbers. -/
instance : LE Severity := ⟨fun a b => a.toInt ≤ b.toInt⟩

instance (a b : Severity) : Decidable (a ≤ b) := inferInstanceAs (Decidable (a.toInt ≤ b.toInt))

/-- The name of a severity in descriptions. -/
def name : Severity → String
  | .debug => "Debug"
  | .info => "Info"
  | .warn => "Warn"
  | .error => "Error"

/-- The label of a severity in log records. -/
def label : Severity → String
  | .debug => "DEBUG"
  | .info => "INFO"
  | .warn => "WARN"
  | .error => "ERROR"

/-- The severity that a guest names by any number: numbers beyond either end mean the end. -/
def clamp (n : Int32) : Severity :=
  if n ≤ 0 then .debug
  else if n = 1 then .info
  else if n = 2 then .warn
  else .error

end Severity
end StageHost
