import StageHost.Digest
import StageHost.Group
import StageHost.Linker
import StageHost.Program.Binary
/-
  Preparing a module: before the first instance is made, every import is checked against the
  tables of the host and every stage export against the signature of its stage. The error is that
  of the first import in their order, then that of the first export in theirs, then a missing
  memory, then an import that is not resolved when the module is linked.
-/
namespace StageHost

/-- Why a module is refused. -/
inductive PrepareError
  /-- The module is not well formed. -/
  | compile
  | unknownNamespace (space name : String)
  | unknownHostFunction (space name : String)
  | nonFunctionImport (space name : String)
  | importSignature (space name : String) (expected actual : Signature)
  /-- The export has another signature, or none because it is no function. -/
  | exportSignature (name : String) (expected : Signature) (actual : Option Signature)
  | missingMemory
  /-- An import is not resolved. -/
  | link
deriving DecidableEq, Repr

namespace PrepareError

/-- The name of an import in messages. -/
def dotted (space name : String) : String := space ++ "." ++ name

def message : PrepareError → String
  | .compile => "failed to compile guest module"
  | .unknownNamespace space name =>
    "guest imports " ++ dotted space name ++ " from an unsupported namespace"
  | .unknownHostFunction space name =>
    "guest imports unknown host function " ++ dotted space name
  | .nonFunctionImport space name =>
    "guest imports " ++ dotted space name ++ " as a non-function"
  | .importSignature space name expected actual =>
    "guest imports " ++ dotted space name ++ " with signature " ++ actual.text
      ++ ", host provides " ++ expected.text
  | .exportSignature name expected actual =>
    let shown := match actual with
      | some s => s.text
      | none => "non-function"
    "guest export " ++ name ++ " has signature " ++ shown ++ ", expected " ++ expected.text
  | .missingMemory => "guest imports host functions but does not export \"memory\""
  | .link => "failed to link guest module"

end PrepareError

/-- A module that may be instantiated. -/
structure Prepared where
  name : String
  /-- The digest of the module's bytes. -/
  digest : String
  /-- The namespaces imported from. -/
  imports : NamespaceSet
  /-- The stages exported. -/
  exports : StageSet
  /-- Whether there is an export that runs before any stage. -/
  hasInitializer : Bool
  program : Program
deriving Inhabited

namespace NamespaceSet

def text (s : NamespaceSet) : String := Quoted.set (s.toList.map (·.moduleName))

end NamespaceSet

namespace Import

/-- The namespace of an import that the host accepts. Imports of the system interface are looked
up when the module is linked. -/
def check (i : Import) : Except PrepareError Namespace :=
  match Namespace.ofModuleName? i.space with
  | none => .error (.unknownNamespace i.space i.name)
  | some .wasi => .ok .wasi
  | some space =>
    match HostFunction.ofName? space i.name with
    | none => .error (.unknownHostFunction i.space i.name)
    | some f =>
      match i.signature with
      | none => .error (.nonFunctionImport i.space i.name)
      | some actual =>
        if actual = f.signature then .ok space
        else .error (.importSignature i.space i.name f.signature actual)

end Import

namespace Exported

/-- Whether an export is a function of a given signature. -/
def check (e : Exported) (name : String) (expected : Signature) : Except PrepareError Unit :=
  match e with
  | .function actual _ =>
    if actual = expected then .ok () else .error (.exportSignature name expected (some actual))
  | .store _ => .error (.exportSignature name expected none)

end Exported

namespace Program

/-- The namespaces imported from, up to the first import that is refused. -/
def checkImports : List Import → NamespaceSet → Except PrepareError NamespaceSet
  | [], done => .ok done
  | i :: rest, done =>
    match i.check with
    | .ok space => checkImports rest (done.insert space)
    | .error e => .error e

/-- The stages exported and whether there is an initializer, up to the first export that is
refused. Exports of other names are of no concern. -/
def checkExports : List Export → StageSet → Bool → Except PrepareError (StageSet × Bool)
  | [], stages, hasInit => .ok (stages, hasInit)
  | e :: rest, stages, hasInit =>
    if e.name = initializerName then
      match e.value.check e.name .unit with
      | .ok _ => checkExports rest stages true
      | .error err => .error err
    else
      match Stage.ofExportName? e.name with
      | none => checkExports rest stages hasInit
      | some stage =>
        match e.value.check e.name stage.signature with
        | .ok _ => checkExports rest (stages.insert stage) hasInit
        | .error err => .error err

/-- Whether the linker with just some namespaces resolves every import. -/
def links (p : Program) (imports : NamespaceSet) : Bool :=
  match Linker.ofNamespaces? imports with
  | some linker => p.imports.all linker.resolves
  | none => false

/-- The prepared module of a program. -/
def prepare (name digest : String) (p : Program) : Except PrepareError Prepared :=
  if repeatsExport p.exports then .error .compile
  else
    match checkImports p.imports .empty with
    | .error e => .error e
    | .ok imports =>
      match checkExports p.exports .empty false with
      | .error e => .error e
      | .ok (exports, hasInitializer) =>
        if (imports.has .api || imports.has .scheduler) && !p.exportsMemory then
          .error .missingMemory
        else if !p.links imports then .error .link
        else .ok { name, digest, imports, exports, hasInitializer, program := p }

end Program

namespace Prepared

/-- The prepared module of some bytes. -/
def ofBytes (name : String) (bytes : List UInt8) : Except PrepareError Prepared :=
  match Binary.read? bytes with
  | none => .error .compile
  | some p => p.prepare name (Digest.ofBytes bytes)

/-- The module as descriptions show it. -/
def text (m : Prepared) : String :=
  "CompiledModule \x7b name: " ++ Quoted.quote m.name ++ ", digest: " ++ Quoted.quote m.digest
    ++ ", imports: " ++ m.imports.text ++ ", exports: " ++ m.exports.text ++ ", .. \x7d"

end Prepared
end StageHost
