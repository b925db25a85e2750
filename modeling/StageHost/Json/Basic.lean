import StageHost.Decimal.Shortest
import StageHost.StringMap
/-
  JSON values.
  Numbers are whole numbers of 64 bits or binary floating-point numbers, since the two are told
  apart where values are decoded. Members keep the order they were written in.
-/
namespace StageHost

inductive Json
  | null
  | bool (b : Bool)
  /-- A whole number from `-2 ^ 63` to `2 ^ 64 - 1`. -/
  | integer (n : Int)
  | real (x : Binary64)
  | string (s : String)
  | array (items : List Json)
  | object (members : List (String × Json))
  /-- A value whose text is well formed but denotes nothing: a string with half of a surrogate
  pair or with ill-formed bytes, an object with such a key, a number beyond the largest one. It
  can only be skipped. -/
  | unreadable
deriving Inhabited, Repr

namespace Json

/-- The whole numbers that a text can hold as such. -/
def fits (n : Int) : Bool := Int64.minValue.toInt ≤ n && n < UInt64.size

/-- Binary numbers from `0.00001` to below `10 ^ 16` are written without an exponent, both in values
and in messages. -/
def layout : Binary64.Layout := ⟨-5, 15⟩

/-- A whole number. -/
def ofNat (n : Nat) : Json := .integer n

/-- A text or nothing. -/
def ofString? : Option String → Json
  | some s => .string s
  | none => .null

/-- A map as an object. -/
def ofMap (m : StringMap) : Json := .object (m.entries.map fun e => (e.1, .string e.2))

mutual
/-- The value with members in key order at every depth; of equal keys the last counts. -/
def sorted : Json → Json
  | .array items => .array (sortedItems items)
  | .object members => .object (sortedMembers members [])
  | v => v

def sortedItems : List Json → List Json
  | [] => []
  | v :: rest => sorted v :: sortedItems rest

def sortedMembers : List (String × Json) → List (String × Json) → List (String × Json)
  | [], done => done
  | (k, v) :: rest, done => sortedMembers rest (insertEntry k (sorted v) done)
end

end Json
end StageHost
