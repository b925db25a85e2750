import StageHost.Json.Basic
import StageHost.Program.Basic
import StageHost.Stage
import StageHost.Text.Hex
import StageHost.Text.Utf8
/-
  Programs described by JSON values, for guests of which there is no binary.
  An expression is a number, the name of a variable, or an operator with its operands; a
  statement is a verb with its operands. Functions of the host are imported as they are used.
-/
namespace StageHost.Description

/-! ## Parts of objects -/

/-- A member of an object. -/
def member? (k : String) : Json → Option Json
  | .object members => members.lookup k
  | _ => none

def text? : Json → Option String
  | .string s => some s
  | _ => none

def number? : Json → Option Nat
  | .integer n => some n.toNat
  | _ => none

def items? : Json → Option (List Json)
  | .array items => some items
  | _ => none

/-- A member that may be absent, or null. -/
def optional? {α : Type} (k : String) (read : Json → Option α) (v : Json) : Option (Option α) :=
  match member? k v with
  | none | some .null => some none
  | some v => (read v).map some

/-- A list that may be absent. -/
def list? {α : Type} (k : String) (read : Json → Option α) (v : Json) : Option (List α) := do
  ((← optional? k items? v).getD []).mapM read

/-! ## Code -/

/-- Local variables are `a` to `h`, global ones `g0` to `g7`. -/
def variableOf? (s : String) : Option Variable :=
  match s.toList with
  | [c] => if 'a' ≤ c ∧ c ≤ 'h' then some (.loc (c.toNat - 97)) else none
  | ['g', c] => if '0' ≤ c ∧ c ≤ '7' then some (.glob (c.toNat - 48)) else none
  | _ => none

/-- The names of operations on two words. -/
def binaryOps : List (String × BinaryOp) :=
  [("add", .add), ("sub", .sub), ("mul", .mul), ("and", .and), ("or", .or), ("xor", .xor),
   ("shl", .shl), ("shr_u", .shrU), ("div_u", .divU), ("rem_u", .remU), ("eq", .eq), ("ne", .ne),
   ("lt_u", .ltU), ("gt_u", .gtU), ("lt_s", .ltS), ("gt_s", .gtS)]

/-- The names of questions. -/
def questions : List (String × Question) :=
  [("pod", .pod), ("node", .node), ("nodeName", .nodeName), ("nodeScoreList", .nodeScores),
   ("get_config", .config)]

/-- The names of reports. -/
def reports : List (String × Report) :=
  [("set_status_reason", .reason), ("cluster_events", .clusterEvents), ("node_names", .nodeNames),
   ("nominated", .nominatedNode), ("score_list", .nodeScores)]

/-- An operation on two words, or a question: whatever has a name and two operands. -/
def binary? (op : String) (a b : Expr) : Option Expr :=
  (binaryOps.lookup op).map fun op => .binary op a b

/-- An operator with its operands. -/
def operator? : String → List Expr → Option Expr
  | "eqz", [a] => some (.eqz a)
  | "load8", [a] => some (.load8 a)
  | "load32", [a] => some (.load32 a)
  | "grow", [a] => some (.grow a)
  | "size", [] => some .size
  | "tgrow", [a] => some (.growTable a)
  | "print", [a, b, c] => some (.print a b c)
  | op, [a, b] => binary? op a b
  | _, _ => none

/-- A function of the host that gives a word. -/
def hostExpr? : String → List Expr → Option Expr
  | "severity", [] => some .severity
  | name, [a, b] => (questions.lookup name).map fun q => .ask q a b
  | _, _ => none

mutual
def expr? : Json → Option Expr
  | .integer n => some (.word (UInt32.ofNat (n % 4294967296).toNat))
  | .string s => (variableOf? s).map .var
  | .array items => operation? items
  | _ => none

/-- An operator before its operands. -/
def operation? : List Json → Option Expr
  | .string "host" :: .string name :: args => do hostExpr? name (← exprs? args)
  | .string op :: args => do operator? op (← exprs? args)
  | _ => none

def exprs? : List Json → Option (List Expr)
  | [] => some []
  | v :: rest => do
    let e ← expr? v
    return e :: (← exprs? rest)
end

/-- A verb with operands that are expressions. -/
def simple? : String → List Expr → Option Statement
  | "store8", [a, e] => some (.store8 a e)
  | "store32", [a, e] => some (.store32 a e)
  | "copy", [a, b, c] => some (.copy a b c)
  | "fill", [a, b, c] => some (.fill a b c)
  | "do", [e] => some (.perform e)
  | "ret", [] => some .leave
  | "ret", [e] => some (.giveWord e)
  | "ret64", [a, b] => some (.givePair a b)
  | "trap", [] => some .trap
  | "exit", [e] => some (.exit e)
  | _, _ => none

/-- A function of the host that gives nothing. -/
def hostStatement? : String → List Expr → Option Statement
  | "log", [a, b, c] => some (.log a b c)
  | "logs", [a, b, c, d, e] => some (.logs a b c d e)
  | name, [a, b] => (reports.lookup name).map fun r => .report r a b
  | _, _ => none

mutual
def statement? : Json → Option Statement
  | .array items => verb? items
  | _ => none

/-- A verb before its operands. -/
def verb? : List Json → Option Statement
  | [.string "set", .string x, e] => do return .set (← variableOf? x) (← expr? e)
  | .string "host" :: .string name :: args => do hostStatement? name (← exprs? args)
  | [.string "if", c, .array yes] => do return .ite (← expr? c) (← block? yes) .skip
  | [.string "if", c, .array yes, .array no] => do
    return .ite (← expr? c) (← block? yes) (← block? no)
  | [.string "while", c, .array body] => do return .loop (← expr? c) (← block? body)
  | .string verb :: args => do simple? verb (← exprs? args)
  | _ => none

/-- Statements one after the other. -/
def block? : List Json → Option Statement
  | [] => some .skip
  | v :: rest => do
    let s ← statement? v
    return .seq s (← block? rest)
end

/-- The body of a function. -/
def body? : Json → Option Statement
  | .array items => block? items
  | _ => none

/-! ## Modules -/

def types? (v : Json) : Option (List ValueType) := do
  (← items? v).mapM fun t => (text? t).bind fun name => ValueType.named.lookup name

def store? : String → Option Store
  | "memory" => some .memory
  | "global" => some .global
  | "table" => some .table
  | _ => none

/-- An import; one with a kind is no function. -/
def import? (v : Json) : Option Import := do
  let space ← member? "module" v >>= text?
  let name ← member? "name" v >>= text?
  match ← optional? "kind" text? v with
  | some _ => return ⟨space, name, none⟩
  | none =>
    let params ← optional? "params" types? v
    let results ← optional? "results" types? v
    return ⟨space, name, some ⟨params.getD [], results.getD []⟩⟩

/-- An export; a function gives what its stage asks for unless it says otherwise. -/
def export? (v : Json) : Option Export := do
  let name ← member? "name" v >>= text?
  match ← optional? "kind" text? v with
  | some kind => return ⟨name, .store (← store? kind)⟩
  | none =>
    let usual := match Stage.ofExportName? name with
      | some s => s.signature.results
      | none => []
    let params ← optional? "params" types? v
    let results ← optional? "results" types? v
    let body ← optional? "body" body? v
    return ⟨name, .function ⟨params.getD [], results.getD usual⟩ (body.getD .skip)⟩

/-- Data at an address, in hexadecimal digits or as text. -/
def segment? (v : Json) : Option Segment := do
  let address ← member? "at" v >>= number?
  match member? "hex" v with
  | some h => return ⟨address, ← text? h >>= Hex.decode?⟩
  | none => return ⟨address, Utf8.encode (← member? "text" v >>= text?)⟩

/-- The memory and its export. Where nothing is said there is one page, exported as the host looks
for it. -/
def memory? (v : Json) : Option (Option MemoryShape × List Export) :=
  let exported (name : String) : List Export := [⟨name, .store .memory⟩]
  match member? "memory" v with
  | none => some (some {}, exported Program.memoryName)
  | some .null => some (none, [])
  | some m => do
    let pages := (← optional? "pages" number? m).getD 1
    let max ← optional? "max" number? m
    let exports ← match member? "export" m with
      | none => some (exported Program.memoryName)
      | some .null => some []
      | some name => (text? name).map exported
    return (some { pages, max }, exports)

/-- The program of a description. -/
def program? (v : Json) : Option Program := do
  let imports ← list? "imports" import? v
  let (memory, memoryExport) ← memory? v
  let listed ← list? "exports" export? v
  let data ← list? "data" segment? v
  let table ← optional? "table" number? v
  let start ← optional? "start" body? v
  let p : Program :=
    { imports, exports := memoryExport ++ listed, memory, table, data, start }
  return p.withNeededImports

end StageHost.Description
