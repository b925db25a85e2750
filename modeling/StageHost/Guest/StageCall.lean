import StageHost.Guest.CallContext
import StageHost.Guest.Trap
import StageHost.Restriction
import StageHost.Stage
import StageHost.Text.Blank
/-
  Calls of stages, what comes of them, and how they fail.
-/
namespace StageHost

/-- A stage with what it is called for. -/
inductive StageCall
  | enqueue
  | prefilter (cycle : UInt64) (pod : Pod)
  | filter (cycle : UInt64) (pod : Pod) (node : NodeInfo)
  | postfilter (cycle : UInt64) (pod : Pod)
  | prescore (cycle : UInt64) (pod : Pod)
  | score (cycle : UInt64) (pod : Pod) (node : NodeInfo)
  | normalizescore (cycle : UInt64) (pod : Pod) (scores : List NodeScore)
  | reserve (cycle : UInt64) (pod : Pod) (nodeName : String)
  | unreserve (cycle : UInt64) (pod : Pod) (nodeName : String)
  | permit (cycle : UInt64) (pod : Pod) (nodeName : String)
  | prebind (cycle : UInt64) (pod : Pod) (nodeName : String)
  | bind (cycle : UInt64) (pod : Pod) (nodeName : String)
  | postbind (cycle : UInt64) (pod : Pod) (nodeName : String)
deriving DecidableEq, Inhabited

namespace StageCall

/-- The stage that is called. -/
def stage : StageCall → Stage
  | .enqueue => .enqueue
  | .prefilter .. => .prefilter
  | .filter .. => .filter
  | .postfilter .. => .postfilter
  | .prescore .. => .prescore
  | .score .. => .score
  | .normalizescore .. => .normalizescore
  | .reserve .. => .reserve
  | .unreserve .. => .unreserve
  | .permit .. => .permit
  | .prebind .. => .prebind
  | .bind .. => .bind
  | .postbind .. => .postbind

/-- The context that the guest is called in. -/
def context : StageCall → CallContext
  | .enqueue => .empty
  | .prefilter cycle pod | .postfilter cycle pod | .prescore cycle pod => .forPod cycle pod
  | .filter cycle pod node | .score cycle pod node => (CallContext.forPod cycle pod).withNode node
  | .normalizescore cycle pod scores => (CallContext.forPod cycle pod).withNodeScores scores
  | .reserve cycle pod name | .unreserve cycle pod name | .permit cycle pod name
  | .prebind cycle pod name | .bind cycle pod name | .postbind cycle pod name =>
    (CallContext.forPod cycle pod).withNodeName name

/-- Whether the call begins a cycle, so that nothing kept from before counts. -/
def beginsCycle : StageCall → Bool
  | .prefilter .. => true
  | _ => false

end StageCall

/-- What a guest returned and reported. -/
structure Outcome where
  word : UInt64
  reported : Reported := {}
deriving DecidableEq, Inhabited

namespace Outcome

/-- The status of a code, with the reason reported. -/
def statusOf (o : Outcome) (code : Int32) : Status := .ofGuest code o.reported.reason

/-- The status that a stage returns by itself. -/
def status (o : Outcome) : Status := o.statusOf o.word.toUInt32.toInt32

/-- The score and the status. -/
def scored (o : Outcome) : Int32 × Status :=
  let (score, code) := PackedWord.score o.word.toInt64
  (score, o.statusOf code)

/-- The mode and the node of a nomination, and the status. -/
def nominated (o : Outcome) : NominatingMode × Option String × Status :=
  let (mode, code) := PackedWord.postFilter o.word.toInt64
  (mode, o.reported.nominatedNode, o.statusOf code)

/-- The status, and the milliseconds to wait. -/
def permitted (o : Outcome) : Status × Nat :=
  let (code, timeout) := PackedWord.permit o.word.toInt64
  (o.statusOf code, timeout)

end Outcome

/-- Why a call has no outcome. -/
inductive CallError
  | trapped (stage : Stage) (trap : String) (diagnostics : String)
  | exited (stage : Stage) (code : Int32) (diagnostics : String)
  | notExported (stage : Stage)
deriving DecidableEq, Repr

namespace CallError

/-- The error of a failed run. -/
def ofFailure (stage : Stage) (diagnostics : String) : Failure → CallError
  | .trapped t => .trapped stage t.message diagnostics
  | .exited code => .exited stage code.toInt32 diagnostics

def stage : CallError → Stage
  | .trapped s _ _ | .exited s _ _ | .notExported s => s

/-- What the guest printed during the call. -/
def diagnostics : CallError → String
  | .trapped _ _ d | .exited _ _ d => d
  | .notExported _ => ""

def message : CallError → String
  | .trapped s trap _ => "guest " ++ s.exportName ++ " trapped: " ++ trap
  | .exited s code _ => "guest " ++ s.exportName ++ " exited with code " ++ toString code.toInt
  | .notExported s => "guest does not export " ++ s.exportName

/-- The status that the scheduler is told: the message and, on lines of its own, what the guest
printed. -/
def status (e : CallError) : Status :=
  let printed := trimEnd e.diagnostics
  if printed.isEmpty then .error e.message else .error (e.message ++ "\n" ++ printed)

end CallError
end StageHost
