import StageHost.Cluster.Metadata
/-
  Nodes, what the scheduler adds up about them, and their scores.
-/
namespace StageHost
open Json

/-- What keeps pods from a node. -/
structure Taint where
  key : String := ""
  value : Option String := none
  effect : String := ""
deriving DecidableEq, Inhabited

namespace Taint

def toJson (t : Taint) : Json :=
  .object ([("key", .string t.key)] ++ ifSome "value" .string t.value
    ++ [("effect", .string t.effect)])

def decode : Decoder Taint :=
  asRecord "Taint"
    [.must "key" asString fun v t => { t with key := v },
     .may "value" (asOption asString) fun v t => { t with value := v },
     .must "effect" asString fun v t => { t with effect := v }]
    {}

end Taint

/-- What is wanted of a node. -/
structure NodeSpec where
  unschedulable : Bool := false
  taints : List Taint := []
deriving DecidableEq, Inhabited

namespace NodeSpec

def toJson (s : NodeSpec) : Json :=
  .object (unlessFalse "unschedulable" s.unschedulable
    ++ unlessNoItems "taints" Taint.toJson s.taints)

def decode : Decoder NodeSpec :=
  asRecord "NodeSpec"
    [.may "unschedulable" asBool fun v s => { s with unschedulable := v },
     .may "taints" (asList Taint.decode) fun v s => { s with taints := v }]
    {}

end NodeSpec

/-- What a node has to offer. -/
structure NodeStatus where
  capacity : StringMap := {}
  allocatable : StringMap := {}
deriving DecidableEq, Inhabited

namespace NodeStatus

def toJson (s : NodeStatus) : Json :=
  .object (unlessNoEntries "capacity" s.capacity ++ unlessNoEntries "allocatable" s.allocatable)

def decode : Decoder NodeStatus :=
  asRecord "NodeStatus"
    [.may "capacity" asMap fun v s => { s with capacity := v },
     .may "allocatable" asMap fun v s => { s with allocatable := v }]
    {}

end NodeStatus

structure Node where
  metadata : Metadata := {}
  spec : NodeSpec := {}
  status : NodeStatus := {}
deriving DecidableEq, Inhabited

namespace Node

/-- The name of a node. -/
def name (n : Node) : String := n.metadata.name

/-- A node of which only the name is known. -/
def named (name : String) : Node := { metadata := { name } }

def toJson (n : Node) : Json :=
  .object [("metadata", n.metadata.toJson), ("spec", n.spec.toJson), ("status", n.status.toJson)]

def decode : Decoder Node :=
  asRecord "Node"
    [.may "metadata" Metadata.decode fun v n => { n with metadata := v },
     .may "spec" NodeSpec.decode fun v n => { n with spec := v },
     .may "status" NodeStatus.decode fun v n => { n with status := v }]
    {}

end Node

/-- A candidate node with the sum of what its pods request, which guests do not see. -/
structure NodeInfo where
  node : Node := {}
  requested : StringMap := {}
deriving DecidableEq, Inhabited

namespace NodeInfo

/-- A node whose pods request nothing. -/
def of (node : Node) : NodeInfo := { node }

/-- The node with the sum of its requests. -/
def requesting (n : NodeInfo) (requested : StringMap) : NodeInfo := { n with requested }

/-- The name of the node. -/
def name (n : NodeInfo) : String := n.node.name

end NodeInfo

/-- The score of a node. -/
structure NodeScore where
  name : String := ""
  score : Int64 := 0
deriving DecidableEq, Inhabited

namespace NodeScore

def toJson (s : NodeScore) : Json :=
  .object [("name", .string s.name), ("score", .integer s.score.toInt)]

def decode : Decoder NodeScore :=
  asRecord "NodeScore"
    [.must "name" asString fun v s => { s with name := v },
     .must "score" asInt64 fun v s => { s with score := v }]
    {}

/-- A list of scores. -/
def listToJson (scores : List NodeScore) : Json := .array (scores.map toJson)

/-- A list of scores. -/
def decodeList : Decoder (List NodeScore) := asList decode

end NodeScore
end StageHost
