/-
  The namespaces that guests import from, and sets of them.
-/
namespace StageHost

inductive Namespace
  /-- The objects that a stage call is about. -/
  | api
  /-- Results, log records and settings. -/
  | scheduler
  /-- Output streams and the end of the program. -/
  | wasi
deriving DecidableEq, Repr, Inhabited

namespace Namespace

/-- All namespaces in their order. -/
def all : List Namespace := [.api, .scheduler, .wasi]

theorem mem_all (n : Namespace) : n ∈ all := by cases n <;> decide

/-- The module name that imports of a namespace give. -/
def moduleName : Namespace → String
  | .api => "k8s.io/api"
  | .scheduler => "k8s.io/scheduler"
  | .wasi => "wasi_snapshot_preview1"

/-- The namespace of a module name. -/
def ofModuleName? (name : String) : Option Namespace := all.find? (·.moduleName == name)

theorem ofModuleName?_moduleName (n : Namespace) : ofModuleName? n.moduleName = some n := by
  cases n <;> decide

end Namespace

/-- A set of namespaces. -/
structure NamespaceSet where
  has : Namespace → Bool := fun _ => false

namespace NamespaceSet

/-- No namespace. -/
def empty : NamespaceSet := {}

instance : Inhabited NamespaceSet := ⟨empty⟩

/-- The set with one more namespace. -/
def insert (s : NamespaceSet) (n : Namespace) : NamespaceSet := ⟨fun m => m == n || s.has m⟩

/-- The set of some namespaces. -/
def ofList (members : List Namespace) : NamespaceSet := ⟨members.contains⟩

/-- The members of either set. -/
def union (s t : NamespaceSet) : NamespaceSet := ⟨fun n => s.has n || t.has n⟩

/-- The members of a set in their order. -/
def toList (s : NamespaceSet) : List Namespace := Namespace.all.filter s.has

/-- Whether every member of the second set is in the first. -/
def contains (s t : NamespaceSet) : Bool := t.toList.all s.has

/-- Whether the set has no member. -/
def isEmpty (s : NamespaceSet) : Bool := s.toList.isEmpty

@[simp] theorem has_empty (n : Namespace) : empty.has n = false := rfl

@[simp] theorem has_insert (s : NamespaceSet) (n m : Namespace) :
    (s.insert n).has m = (m == n || s.has m) := rfl

@[simp] theorem mem_toList (s : NamespaceSet) (n : Namespace) :
    n ∈ s.toList ↔ s.has n = true := by
  simp [toList, Namespace.mem_all]

end NamespaceSet
end StageHost
