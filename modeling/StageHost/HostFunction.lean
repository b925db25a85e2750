import StageHost.Namespace
import StageHost.Signature
/-
  The functions that the host offers to guests.
-/
namespace StageHost

/-- A value that a guest may ask for: it names a place and its room, and learns the length. -/
inductive Question
  | pod
  | node
  | nodeName
  | nodeScores
  | config
deriving DecidableEq, Repr, Inhabited

/-- A result that a guest may report by naming a range of its memory. -/
inductive Report
  | reason
  | clusterEvents
  | nodeNames
  | nominatedNode
  | nodeScores
deriving DecidableEq, Repr, Inhabited

inductive HostFunction
  | ask (q : Question)
  | report (r : Report)
  /-- The threshold below which log records are dropped. -/
  | severity
  /-- A log record. -/
  | log
  /-- A log record with keys and values. -/
  | logs
deriving DecidableEq, Repr, Inhabited

namespace HostFunction

/-- All functions, by namespace and in the order of their tables. -/
def all : List HostFunction :=
  [.ask .pod, .ask .node, .ask .nodeName, .ask .nodeScores,
   .report .reason, .log, .logs, .severity, .ask .config, .report .clusterEvents,
   .report .nodeNames, .report .nominatedNode, .report .nodeScores]

theorem mem_all (f : HostFunction) : f ∈ all := by
  rcases f with q | r | _ | _ | _
  · cases q <;> decide
  · cases r <;> decide
  all_goals decide

def namespaceOf : HostFunction → Namespace
  | .ask .config => .scheduler
  | .ask _ => .api
  | _ => .scheduler

def name : HostFunction → String
  | .ask .pod => "pod"
  | .ask .node => "node"
  | .ask .nodeName => "nodeName"
  | .ask .nodeScores => "nodeScoreList"
  | .ask .config => "get_config"
  | .report .reason => "set_status_reason"
  | .report .clusterEvents => "result.cluster_events"
  | .report .nodeNames => "result.node_names"
  | .report .nominatedNode => "result.nominated_node_name"
  | .report .nodeScores => "result.node_score_list"
  | .severity => "severity"
  | .log => "log"
  | .logs => "logs"

def signature : HostFunction → Signature
  | .ask _ => ⟨[.i32, .i32], [.i32]⟩
  | .report _ => ⟨[.i32, .i32], []⟩
  | .severity => ⟨[], [.i32]⟩
  | .log => ⟨[.i32, .i32, .i32], []⟩
  | .logs => ⟨[.i32, .i32, .i32, .i32, .i32], []⟩

/-- The function of a name in a namespace. -/
def ofName? (space : Namespace) (name : String) : Option HostFunction :=
  all.find? fun f => f.namespaceOf == space && f.name == name

theorem ofName?_name (f : HostFunction) : ofName? f.namespaceOf f.name = some f := by
  rcases f with q | r | _ | _ | _
  · cases q <;> decide
  · cases r <;> decide
  all_goals decide

end HostFunction
end StageHost
