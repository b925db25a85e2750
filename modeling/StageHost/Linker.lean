import StageHost.Guest.Machine
/-
  Linkers: what imports are resolved to before a module is instantiated.
  A linker has the functions of the namespaces that a module imports from. Those of the host are
  there with the signatures that their handlers have by their types.
-/
namespace StageHost

/-- Functions that guests may call, with the signature under which they are called. -/
class Handler (α : Type) where
  signature : Signature

instance : Handler (Exec Unit) := ⟨⟨[], []⟩⟩

instance : Handler (Exec UInt32) := ⟨⟨[], [.i32]⟩⟩

/-- A word is a parameter before the others. -/
instance {α : Type} [Handler α] : Handler (UInt32 → α) :=
  ⟨⟨.i32 :: (Handler.signature α).params, (Handler.signature α).results⟩⟩

structure Linker where
  /-- The functions by their namespaces and names. -/
  functions : List ((String × String) × Signature) := []

namespace Linker

/-- A handler under the name of a function of the host. -/
def entry {α : Type} [Handler α] (f : HostFunction) (_ : α) : String × Signature :=
  (f.name, Handler.signature α)

/-- What a namespace has for a linker. -/
def offers : Namespace → List (String × Signature)
  | .api =>
    [entry (.ask .pod) (Exec.ask .pod),
     entry (.ask .node) (Exec.ask .node),
     entry (.ask .nodeName) (Exec.ask .nodeName),
     entry (.ask .nodeScores) (Exec.ask .nodeScores)]
  | .scheduler =>
    [entry (.report .reason) (Exec.report .reason),
     entry .log Exec.log,
     entry .logs Exec.logs,
     entry .severity Exec.severity,
     entry (.ask .config) (Exec.ask .config),
     entry (.report .clusterEvents) (Exec.report .clusterEvents),
     entry (.report .nodeNames) (Exec.report .nodeNames),
     entry (.report .nominatedNode) (Exec.report .nominatedNode),
     entry (.report .nodeScores) (Exec.report .nodeScores)]
  | .wasi => SystemInterface.functions

/-- The functions of some namespaces. -/
def functionsOf (s : NamespaceSet) : List ((String × String) × Signature) :=
  s.toList.flatMap fun n => (offers n).map fun f => ((n.moduleName, f.1), f.2)

/-- The linker with just some namespaces. No name may be defined twice. -/
def ofNamespaces? (s : NamespaceSet) : Option Linker :=
  if ((functionsOf s).map (·.1)).Nodup then some ⟨functionsOf s⟩ else none

/-- Whether an import is of a function that the linker has, with its signature. -/
def resolves (l : Linker) (i : Import) : Bool :=
  match i.signature with
  | some s => l.functions.lookup (i.space, i.name) == some s
  | none => false

end Linker
end StageHost
