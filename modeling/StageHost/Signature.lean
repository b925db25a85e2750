/-
  Types of the functions that guests import and export.
-/
namespace StageHost

inductive ValueType
  | i32
  | i64
  | f32
  | f64
  | v128
  | funcref
  | externref
deriving DecidableEq, Repr, Inhabited

namespace ValueType

/-- All types by their names. -/
def named : List (String × ValueType) :=
  [("i32", .i32), ("i64", .i64), ("f32", .f32), ("f64", .f64), ("v128", .v128),
   ("funcref", .funcref), ("externref", .externref)]

/-- How messages show a type: only those that the host uses have a name. -/
def text : ValueType → String
  | .i32 => "i32"
  | .i64 => "i64"
  | _ => "?"

end ValueType

/-- What a function takes and gives. -/
structure Signature where
  params : List ValueType := []
  results : List ValueType := []
deriving DecidableEq, Repr, Inhabited

namespace Signature

/-- Takes and gives nothing. -/
def unit : Signature := {}

/-- Gives a status code. -/
def status : Signature := ⟨[], [.i32]⟩

/-- Gives two numbers in one word. -/
def packed : Signature := ⟨[], [.i64]⟩

/-- Some types within parentheses. -/
def tuple (types : List ValueType) : String :=
  "(" ++ ", ".intercalate (types.map (·.text)) ++ ")"

def text (s : Signature) : String := tuple s.params ++ " -> " ++ tuple s.results

end Signature
end StageHost
