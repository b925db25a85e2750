import StageHost.PackedWord
/-
  What prefilter and postfilter say beside their status: the nodes that remain candidates, and
  the node nominated for the pod.
-/
namespace StageHost

/-- The text at its place in an increasing list; a text that is there stays alone. -/
def insertName (name : String) : List String → List String
  | [] => [name]
  | n :: rest =>
    if name < n then name :: n :: rest
    else if name = n then n :: rest
    else n :: insertName name rest

/-- The nodes that remain candidates: those of an increasing list of names, or all. -/
structure Restriction where
  names : Option (List String) := none
deriving DecidableEq, Repr, Inhabited

namespace Restriction

/-- Every node remains. -/
def allNodes : Restriction := {}

/-- Only the named nodes remain. -/
def only (names : List String) : Restriction :=
  ⟨some (names.foldl (fun done n => insertName n done) [])⟩

/-- Whether a node remains. -/
def allows (r : Restriction) (node : String) : Bool :=
  match r.names with
  | none => true
  | some names => names.contains node

end Restriction

/-- The node nominated for a pod, which is the empty text if there is none. -/
structure Nomination where
  mode : NominatingMode := .noop
  node : String := ""
deriving DecidableEq, Repr, Inhabited

end StageHost
