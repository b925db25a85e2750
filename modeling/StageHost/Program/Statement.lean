import StageHost.HostFunction
/-
  The code of guest functions: arithmetic on words of 32 bits, memory, and calls to the host.
-/
namespace StageHost

/-- A variable: a local one lives as long as a call, a global one as long as the guest. -/
inductive Variable
  | loc (index : Nat)
  | glob (index : Nat)
deriving DecidableEq, Repr, Inhabited

/-- Operations on two words. -/
inductive BinaryOp
  | add
  | sub
  | mul
  | and
  | or
  | xor
  | shl
  | shrU
  | divU
  | remU
  | eq
  | ne
  | ltU
  | gtU
  | ltS
  | gtS
deriving DecidableEq, Repr, Inhabited

namespace BinaryOp

/-- The word of a truth value. -/
def ofBool (b : Bool) : UInt32 := if b then 1 else 0

/-- The result of an operation; division by zero has none. Shifts count modulo 32. -/
def eval? : BinaryOp → UInt32 → UInt32 → Option UInt32
  | .add, a, b => some (a + b)
  | .sub, a, b => some (a - b)
  | .mul, a, b => some (a * b)
  | .and, a, b => some (a &&& b)
  | .or, a, b => some (a ||| b)
  | .xor, a, b => some (a ^^^ b)
  | .shl, a, b => some (a <<< b)
  | .shrU, a, b => some (a >>> b)
  | .divU, a, b => if b = 0 then none else some (a / b)
  | .remU, a, b => if b = 0 then none else some (a % b)
  | .eq, a, b => some (ofBool (a == b))
  | .ne, a, b => some (ofBool (a != b))
  | .ltU, a, b => some (ofBool (a < b))
  | .gtU, a, b => some (ofBool (b < a))
  | .ltS, a, b => some (ofBool (a.toInt32 < b.toInt32))
  | .gtS, a, b => some (ofBool (b.toInt32 < a.toInt32))

end BinaryOp

/-- Expressions. Operands are evaluated from left to right. -/
inductive Expr
  | word (w : UInt32)
  | var (x : Variable)
  | binary (op : BinaryOp) (a b : Expr)
  | eqz (a : Expr)
  | load8 (address : Expr)
  | load32 (address : Expr)
  /-- Grows the memory and gives the old number of pages, or all ones if that is refused. -/
  | grow (pages : Expr)
  /-- The number of pages. -/
  | size
  /-- Grows the table and gives the old number of elements, or all ones if that is refused. -/
  | growTable (elements : Expr)
  /-- Asks the host for a value and gives its length. -/
  | ask (q : Question) (address room : Expr)
  /-- The threshold for log records. -/
  | severity
  /-- Writes a range of memory to a stream and gives an error number. -/
  | print (stream address length : Expr)
deriving Repr, Inhabited

/-- Statements. -/
inductive Statement
  | skip
  | seq (first second : Statement)
  | set (x : Variable) (e : Expr)
  | store8 (address e : Expr)
  | store32 (address e : Expr)
  | copy (target source length : Expr)
  | fill (target byte length : Expr)
  /-- Evaluates for the effect. -/
  | perform (e : Expr)
  | report (r : Report) (address length : Expr)
  | log (level address length : Expr)
  | logs (level address length kvAddress kvLength : Expr)
  | ite (condition : Expr) (yes no : Statement)
  | loop (condition : Expr) (body : Statement)
  /-- Ends the function without result. -/
  | leave
  /-- Ends the function with a word of 32 bits. -/
  | giveWord (e : Expr)
  /-- Ends the function with a word of 64 bits, given by its halves. -/
  | givePair (high low : Expr)
  | trap
  /-- Ends the program. -/
  | exit (code : Expr)
deriving Repr, Inhabited

end StageHost
