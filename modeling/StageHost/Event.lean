/-
  Cluster events a plugin can ask to be woken by.
-/
namespace StageHost

/-- The kind of resource that an event is about. -/
inductive Resource
  | pod
  | node
  | persistentVolume
  | persistentVolumeClaim
  | podSchedulingContext
  | resourceClaim
  | storageClass
  | csiNode
  | csiDriver
  | csiStorageCapacity
  | wildCard
deriving DecidableEq, Repr, Inhabited

namespace Resource

/-- The number of a kind. -/
def toUInt32 : Resource → UInt32
  | .pod => 0
  | .node => 1
  | .persistentVolume => 2
  | .persistentVolumeClaim => 3
  | .podSchedulingContext => 4
  | .resourceClaim => 5
  | .storageClass => 6
  | .csiNode => 7
  | .csiDriver => 8
  | .csiStorageCapacity => 9
  | .wildCard => 10

/-- The kind of a number, if the number is known. -/
def ofUInt32? (n : UInt32) : Option Resource :=
  if n = 0 then some .pod
  else if n = 1 then some .node
  else if n = 2 then some .persistentVolume
  else if n = 3 then some .persistentVolumeClaim
  else if n = 4 then some .podSchedulingContext
  else if n = 5 then some .resourceClaim
  else if n = 6 then some .storageClass
  else if n = 7 then some .csiNode
  else if n = 8 then some .csiDriver
  else if n = 9 then some .csiStorageCapacity
  else if n = 10 then some .wildCard
  else none

theorem ofUInt32?_toUInt32 (r : Resource) : ofUInt32? r.toUInt32 = some r := by
  cases r <;> decide

/-- The name of a kind. -/
def name : Resource → String
  | .pod => "Pod"
  | .node => "Node"
  | .persistentVolume => "PersistentVolume"
  | .persistentVolumeClaim => "PersistentVolumeClaim"
  | .podSchedulingContext => "PodSchedulingContext"
  | .resourceClaim => "ResourceClaim"
  | .storageClass => "StorageClass"
  | .csiNode => "CsiNode"
  | .csiDriver => "CsiDriver"
  | .csiStorageCapacity => "CsiStorageCapacity"
  | .wildCard => "WildCard"

end Resource

/-- A set of actions on a resource, one bit each. -/
structure Actions where
  bits : UInt32 := 0
deriving DecidableEq, Repr, Inhabited

namespace Actions

def add : Actions := ⟨1⟩
def delete : Actions := ⟨2⟩
def updateNodeAllocatable : Actions := ⟨4⟩
def updateNodeLabel : Actions := ⟨8⟩
def updateNodeTaint : Actions := ⟨16⟩
def updateNodeCondition : Actions := ⟨32⟩

/-- The actions of either set. -/
def union (a b : Actions) : Actions := ⟨a.bits ||| b.bits⟩

instance : OrOp Actions := ⟨union⟩

/-- Every kind of update. -/
def update : Actions :=
  updateNodeAllocatable ||| updateNodeLabel ||| updateNodeTaint ||| updateNodeCondition

/-- Every action. -/
def all : Actions := add ||| delete ||| update

/-- Whether every action of the second set is in the first. -/
def contains (a b : Actions) : Bool := a.bits &&& b.bits == b.bits

/-- Whether the sets have an action in common. -/
def overlaps (a b : Actions) : Bool := a.bits &&& b.bits != 0

end Actions

/-- Actions on a kind of resource. -/
structure Event where
  resource : Resource
  actions : Actions
deriving DecidableEq, Repr, Inhabited

namespace Event

/-- The event that stands for every event. -/
def wildcard : Event := ⟨.wildCard, .all⟩

/-- Whether an observed event wakes the pods registered for the first one. -/
def wakes (registered observed : Event) : Bool :=
  registered == wildcard
    || ((registered.resource == .wildCard || registered.resource == observed.resource)
      && registered.actions.overlaps observed.actions)

end Event
end StageHost
