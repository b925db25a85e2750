import StageHost.Cluster.Metadata
/-
  Pods, as far as guests see them.
-/
namespace StageHost
open Json

/-- Amounts that a container asks for and is limited to. -/
structure Resources where
  requests : StringMap := {}
  limits : StringMap := {}
deriving DecidableEq, Inhabited

namespace Resources

def toJson (r : Resources) : Json :=
  .object (unlessNoEntries "requests" r.requests ++ unlessNoEntries "limits" r.limits)

def decode : Decoder Resources :=
  asRecord "ResourceRequirements"
    [.may "requests" asMap fun v r => { r with requests := v },
     .may "limits" asMap fun v r => { r with limits := v }]
    {}

end Resources

structure Container where
  name : String := ""
  image : Option String := none
  resources : Resources := {}
deriving DecidableEq, Inhabited

namespace Container

def toJson (c : Container) : Json :=
  .object ([("name", .string c.name)] ++ ifSome "image" .string c.image
    ++ [("resources", c.resources.toJson)])

def decode : Decoder Container :=
  asRecord "Container"
    [.must "name" asString fun v c => { c with name := v },
     .may "image" (asOption asString) fun v c => { c with image := v },
     .may "resources" Resources.decode fun v c => { c with resources := v }]
    {}

end Container

/-- A taint that a pod puts up with. -/
structure Toleration where
  key : Option String := none
  operator : Option String := none
  value : Option String := none
  effect : Option String := none
deriving DecidableEq, Inhabited

namespace Toleration

def toJson (t : Toleration) : Json :=
  .object (ifSome "key" .string t.key ++ ifSome "operator" .string t.operator
    ++ ifSome "value" .string t.value ++ ifSome "effect" .string t.effect)

def decode : Decoder Toleration :=
  asRecord "Toleration"
    [.may "key" (asOption asString) fun v t => { t with key := v },
     .may "operator" (asOption asString) fun v t => { t with operator := v },
     .may "value" (asOption asString) fun v t => { t with value := v },
     .may "effect" (asOption asString) fun v t => { t with effect := v }]
    {}

end Toleration

/-- What is wanted of a pod. -/
structure PodSpec where
  nodeName : Option String := none
  schedulerName : Option String := none
  priority : Option Int32 := none
  nodeSelector : StringMap := {}
  containers : List Container := []
  tolerations : List Toleration := []
deriving DecidableEq, Inhabited

namespace PodSpec

def toJson (s : PodSpec) : Json :=
  .object (ifSome "nodeName" .string s.nodeName ++ ifSome "schedulerName" .string s.schedulerName
    ++ ifSome "priority" (fun n => .integer n.toInt) s.priority
    ++ unlessNoEntries "nodeSelector" s.nodeSelector
    ++ unlessNoItems "containers" Container.toJson s.containers
    ++ unlessNoItems "tolerations" Toleration.toJson s.tolerations)

def decode : Decoder PodSpec :=
  asRecord "PodSpec"
    [.may "nodeName" (asOption asString) fun v s => { s with nodeName := v },
     .may "schedulerName" (asOption asString) fun v s => { s with schedulerName := v },
     .may "priority" (asOption asInt32) fun v s => { s with priority := v },
     .may "nodeSelector" asMap fun v s => { s with nodeSelector := v },
     .may "containers" (asList Container.decode) fun v s => { s with containers := v },
     .may "tolerations" (asList Toleration.decode) fun v s => { s with tolerations := v }]
    {}

end PodSpec

/-- What has become of a pod. -/
structure PodStatus where
  phase : Option String := none
  nominatedNodeName : Option String := none
deriving DecidableEq, Inhabited

namespace PodStatus

def toJson (s : PodStatus) : Json :=
  .object (ifSome "phase" .string s.phase
    ++ ifSome "nominatedNodeName" .string s.nominatedNodeName)

def decode : Decoder PodStatus :=
  asRecord "PodStatus"
    [.may "phase" (asOption asString) fun v s => { s with phase := v },
     .may "nominatedNodeName" (asOption asString) fun v s => { s with nominatedNodeName := v }]
    {}

end PodStatus

structure Pod where
  metadata : Metadata := {}
  spec : PodSpec := {}
  status : PodStatus := {}
deriving DecidableEq, Inhabited

namespace Pod

/-- The name of a pod. -/
def name (p : Pod) : String := p.metadata.name

/-- What tells a pod from every other one. -/
def uid (p : Pod) : String := p.metadata.uid

/-- A pod of which only name and identity are known. -/
def named (name uid : String) : Pod := { metadata := { name, uid } }

/-- The pod with a node assigned to it. -/
def onNode (p : Pod) (node : String) : Pod := { p with spec := { p.spec with nodeName := some node } }

/-- The pod in a namespace. -/
def inNamespace (p : Pod) (namespaceName : String) : Pod :=
  { p with metadata := { p.metadata with namespaceName } }

def toJson (p : Pod) : Json :=
  .object [("metadata", p.metadata.toJson), ("spec", p.spec.toJson), ("status", p.status.toJson)]

def decode : Decoder Pod :=
  asRecord "Pod"
    [.may "metadata" Metadata.decode fun v p => { p with metadata := v },
     .may "spec" PodSpec.decode fun v p => { p with spec := v },
     .may "status" PodStatus.decode fun v p => { p with status := v }]
    {}

end Pod
end StageHost
