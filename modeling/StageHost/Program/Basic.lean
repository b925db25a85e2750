import StageHost.Program.Statement
import StageHost.SystemInterface
/-
  Guest modules: what they import, what they export, and what they start with.
-/
namespace StageHost

/-- What an import or an export may be beside a function. -/
inductive Store
  | memory
  | global
  | table
deriving DecidableEq, Repr, Inhabited

/-- What a guest wants of the host. -/
structure Import where
  space : String
  name : String
  /-- The signature of a function; imports of another kind have none. -/
  signature : Option Signature
deriving DecidableEq, Repr, Inhabited

namespace Import

/-- The import of a function of the host. -/
def ofHost (f : HostFunction) : Import :=
  ⟨f.namespaceOf.moduleName, f.name, some f.signature⟩

/-- The import of a function of the system interface. -/
def ofSystem (name : String) : Import :=
  ⟨Namespace.wasi.moduleName, name, SystemInterface.functions.lookup name⟩

/-- Whether two imports are of one name. -/
def sameName (a b : Import) : Bool := a.space == b.space && a.name == b.name

end Import

/-- What a guest offers under a name. -/
inductive Exported
  | function (signature : Signature) (body : Statement)
  | store (kind : Store)
deriving Repr, Inhabited

structure Export where
  name : String
  value : Exported
deriving Repr, Inhabited

/-- The memory that a guest starts with, in pages of 64 KiB. -/
structure MemoryShape where
  pages : Nat := 1
  max : Option Nat := none
deriving DecidableEq, Repr, Inhabited

/-- Bytes that are put into memory at the start. -/
structure Segment where
  address : Nat
  bytes : List UInt8
deriving DecidableEq, Repr, Inhabited

structure Program where
  imports : List Import := []
  exports : List Export := []
  memory : Option MemoryShape := none
  /-- The number of elements in the table. -/
  table : Option Nat := none
  data : List Segment := []
  /-- What runs as soon as the data is in place. -/
  start : Option Statement := none
deriving Repr, Inhabited

namespace Program

/-- The name of the export that runs once, before any stage. -/
def initializerName : String := "_initialize"

/-- The name under which the host looks for the memory of a guest. -/
def memoryName : String := "memory"

/-- Whether the host finds the memory. -/
def exportsMemory (p : Program) : Bool :=
  p.exports.any fun e =>
    e.name == memoryName &&
      match e.value with
      | .store .memory => true
      | _ => false

/-- Whether an export's name was used before. -/
def repeatsExport : List Export → Bool
  | [] => false
  | e :: rest => rest.any (·.name == e.name) || repeatsExport rest

end Program

/-! ## What code needs of the host -/

/-- The imports that an expression needs, in the order of evaluation. -/
def Expr.imports : Expr → List Import
  | .word _ | .var _ | .size => []
  | .binary _ a b => a.imports ++ b.imports
  | .eqz a | .load8 a | .load32 a | .grow a | .growTable a => a.imports
  | .ask q a b => a.imports ++ b.imports ++ [.ofHost (.ask q)]
  | .severity => [.ofHost .severity]
  | .print a b c => a.imports ++ b.imports ++ c.imports ++ [.ofSystem SystemInterface.write]

/-- The imports that a statement needs, in the order of evaluation. -/
def Statement.imports : Statement → List Import
  | .skip | .leave | .trap => []
  | .seq a b => a.imports ++ b.imports
  | .set _ e | .perform e | .giveWord e => e.imports
  | .store8 a b | .store32 a b | .givePair a b => a.imports ++ b.imports
  | .copy a b c | .fill a b c => a.imports ++ b.imports ++ c.imports
  | .report r a b => a.imports ++ b.imports ++ [.ofHost (.report r)]
  | .log a b c => a.imports ++ b.imports ++ c.imports ++ [.ofHost .log]
  | .logs a b c d e =>
    a.imports ++ b.imports ++ c.imports ++ d.imports ++ e.imports ++ [.ofHost .logs]
  | .ite c a b => c.imports ++ a.imports ++ b.imports
  | .loop c a => c.imports ++ a.imports
  | .exit e => e.imports ++ [.ofSystem SystemInterface.exit]

namespace Program

/-- The imports with those of a list added that are not there yet by name. -/
def addMissing (present : List Import) : List Import → List Import
  | [] => present
  | i :: rest => addMissing (if present.any (·.sameName i) then present else present ++ [i]) rest

/-- The program that imports, beside what it names, whatever its code needs. -/
def withNeededImports (p : Program) : Program :=
  let ofExport (e : Export) : List Import :=
    match e.value with
    | .function _ body => body.imports
    | .store _ => []
  let ofStart := match p.start with
    | some body => body.imports
    | none => []
  { p with imports := addMissing p.imports (p.exports.flatMap ofExport ++ ofStart) }

end Program
end StageHost
