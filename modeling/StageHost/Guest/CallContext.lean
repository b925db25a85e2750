import StageHost.Cluster.Node
import StageHost.Cluster.Pod
import StageHost.Event
/-
  What one stage call is about, and what the guest reports during it.
-/
namespace StageHost

/-- The results that a guest reported during a call, each of them the last of its kind. -/
structure Reported where
  reason : Option String := none
  nodeNames : Option (List String) := none
  clusterEvents : Option (List Event) := none
  nominatedNode : Option String := none
  nodeScores : Option (List NodeScore) := none
deriving DecidableEq, Inhabited

structure CallContext where
  cycle : Option UInt64 := none
  pod : Option Pod := none
  node : Option NodeInfo := none
  nodeName : Option String := none
  nodeScores : Option (List NodeScore) := none
  reported : Reported := {}
deriving DecidableEq, Inhabited

namespace CallContext

/-- The context of a call about nothing. -/
def empty : CallContext := {}

/-- The context of a call about a pod that is being scheduled. -/
def forPod (cycle : UInt64) (pod : Pod) : CallContext := { cycle := some cycle, pod := some pod }

/-- The context with a candidate node, which also gives the node's name. -/
def withNode (c : CallContext) (node : NodeInfo) : CallContext :=
  { c with node := some node, nodeName := some node.name }

/-- The context with the name of the node chosen. -/
def withNodeName (c : CallContext) (name : String) : CallContext := { c with nodeName := some name }

/-- The context with the scores of nodes. -/
def withNodeScores (c : CallContext) (scores : List NodeScore) : CallContext :=
  { c with nodeScores := some scores }

/-- What the call's pod is kept under while its cycle lasts. -/
def key (c : CallContext) : Option (UInt64 × String) :=
  match c.cycle, c.pod with
  | some cycle, some pod => some (cycle, pod.uid)
  | _, _ => none

end CallContext
end StageHost
