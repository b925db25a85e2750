import StageHost.Json.Decode
/-
  The outcome of a stage call: a code and a reason.
-/
namespace StageHost

/-- What a stage decided, numbered as guests number it. -/
inductive Code
  | success
  | error
  | unschedulable
  | unschedulableAndUnresolvable
  | wait
  | skip
deriving DecidableEq, Repr, Inhabited

namespace Code

/-- All codes, in the order of their numbers. -/
def all : List Code :=
  [.success, .error, .unschedulable, .unschedulableAndUnresolvable, .wait, .skip]

/-- The number of a code. -/
def toInt : Code → Int
  | .success => 0
  | .error => 1
  | .unschedulable => 2
  | .unschedulableAndUnresolvable => 3
  | .wait => 4
  | .skip => 5

/-- The code of a number, if the number is known. -/
def ofInt? : Int → Option Code
  | 0 => some .success
  | 1 => some .error
  | 2 => some .unschedulable
  | 3 => some .unschedulableAndUnresolvable
  | 4 => some .wait
  | 5 => some .skip
  | _ => none

theorem ofInt?_toInt (c : Code) : ofInt? c.toInt = some c := by cases c <;> rfl

/-- The name of a code. -/
def name : Code → String
  | .success => "Success"
  | .error => "Error"
  | .unschedulable => "Unschedulable"
  | .unschedulableAndUnresolvable => "UnschedulableAndUnresolvable"
  | .wait => "Wait"
  | .skip => "Skip"

/-- A code by its name. -/
def decode : Json.Decoder Code := Json.asVariant (all.map fun c => (c.name, c))

end Code

/-- The outcome of a stage call. -/
structure Status where
  code : Code := .success
  reason : String := ""
deriving DecidableEq, Repr, Inhabited

namespace Status

/-- The outcome of a call that found nothing to object to. -/
def success : Status := {}

/-- The outcome of a call that went wrong. -/
def error (reason : String) : Status := ⟨.error, reason⟩

/-- The outcome that a guest reports. A number that is no code is itself an error, whose reason
replaces the guest's. -/
def ofGuest (code : Int32) (reason : Option String) : Status :=
  match Code.ofInt? code.toInt with
  | some c => ⟨c, reason.getD ""⟩
  | none => .error ("guest returned unknown status code " ++ toString code.toInt)

/-- The code, followed by the reason if there is one. -/
def text (s : Status) : String :=
  if s.reason.isEmpty then s.code.name else s.code.name ++ ": " ++ s.reason

def toJson (s : Status) : Json :=
  .object [("code", .string s.code.name), ("reason", .string s.reason)]

def decode : Json.Decoder Status :=
  Json.asRecord "Status"
    [.must "code" Code.decode fun c s => { s with code := c },
     .must "reason" Json.asString fun r s => { s with reason := r }]
    {}

end Status
end StageHost
