import StageHost.Guest.StageCall
import StageHost.Program.Basic
/-
  Handles: functions that a guest exports, looked up with their types once, as the guest is made.
  There is a table of handles for each thing that the function of a stage can give. A handle goes
  into the table that the signature of its stage names. A call looks in the table that it is written
  for, and finds nothing there if the handle went into another.
-/
namespace StageHost

/-- What a function that takes nothing can give: nothing, a status code, or two numbers in one
word. -/
inductive Yield
  | unit
  | status
  | packed
deriving DecidableEq, Repr

namespace Yield

/-- The signature of functions that give this. -/
def signature : Yield → Signature
  | .unit => .unit
  | .status => .status
  | .packed => .packed

/-- What functions with some results give. -/
def ofResults : List ValueType → Yield
  | [] => .unit
  | [.i32] => .status
  | _ => .packed

end Yield

/-- A function that is known to give something. -/
structure Handle (y : Yield) where
  body : Statement
deriving Repr, Inhabited

/-- Why there is no handle. -/
inductive HandleError
  /-- No function is exported under the name. -/
  | noFunction (name : String)
  /-- The function is of another type. -/
  | otherType (name : String)
deriving DecidableEq, Repr

def HandleError.message : HandleError → String
  | .noFunction name => "failed to find function export `" ++ name ++ "`"
  | .otherType name => "failed to convert function `" ++ name ++ "` to given type"

/-- Looks an exported function up with its type. -/
def Program.handle (p : Program) (name : String) (y : Yield) : Except HandleError (Handle y) :=
  match p.exports.find? (·.name == name) with
  | some ⟨_, .function actual body⟩ =>
    if actual = y.signature then .ok ⟨body⟩ else .error (.otherType name)
  | _ => .error (.noFunction name)

/-- What a call takes the function of its stage to give. -/
def StageCall.yield : StageCall → Yield
  | .enqueue | .unreserve .. | .postbind .. => .unit
  | .postfilter .. | .score .. | .permit .. => .packed
  | .prefilter .. | .filter .. | .prescore .. | .normalizescore .. | .reserve .. | .prebind ..
  | .bind .. => .status

/-- The handles to the stages of a guest, by what their functions give. -/
structure Handles where
  unit : List (Stage × Handle .unit) := []
  status : List (Stage × Handle .status) := []
  packed : List (Stage × Handle .packed) := []
deriving Repr, Inhabited

namespace Handles

/-- The first handle to a stage in one of the tables. -/
def lookup? (h : Handles) (s : Stage) : (y : Yield) → Option (Handle y)
  | .unit => h.unit.lookup s
  | .status => h.status.lookup s
  | .packed => h.packed.lookup s

/-- Puts a handle to a stage at the end of one of the tables. -/
def add (h : Handles) (s : Stage) : (y : Yield) → Handle y → Handles
  | .unit, f => { h with unit := h.unit ++ [(s, f)] }
  | .status, f => { h with status := h.status ++ [(s, f)] }
  | .packed, f => { h with packed := h.packed ++ [(s, f)] }

/-- Adds handles to some stages, each to the table that the results of its signature name, up to the
first that there is no handle to. -/
def addStages (p : Program) : List Stage → Handles → Except HandleError Handles
  | [], h => .ok h
  | s :: rest, h =>
    let y := Yield.ofResults s.signature.results
    match p.handle s.exportName y with
    | .ok f => addStages p rest (h.add s y f)
    | .error e => .error e

/-- The handles to some stages of a program. -/
def ofStages (p : Program) (stages : StageSet) : Except HandleError Handles :=
  addStages p stages.toList {}

end Handles
end StageHost
