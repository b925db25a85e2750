import StageHost.Json.Basic
/-
  Members that are left out where they hold their default: the empty text, map or list, `false`,
  or nothing.
-/
namespace StageHost.Json

/-- A member of an object, or none. -/
abbrev Members : Type := List (String × Json)

/-- A text, left out when empty. -/
def unlessBlank (name s : String) : Members := if s.isEmpty then [] else [(name, .string s)]

/-- A map, left out when empty. -/
def unlessNoEntries (name : String) (m : StringMap) : Members :=
  if m.isEmpty then [] else [(name, ofMap m)]

/-- A list, left out when empty. -/
def unlessNoItems {α : Type} (name : String) (toJson : α → Json) (items : List α) : Members :=
  if items.isEmpty then [] else [(name, .array (items.map toJson))]

/-- A truth value, left out when false. -/
def unlessFalse (name : String) (b : Bool) : Members := if b then [(name, .bool true)] else []

/-- A value that may be absent. -/
def ifSome {α : Type} (name : String) (toJson : α → Json) : Option α → Members
  | none => []
  | some a => [(name, toJson a)]

end StageHost.Json
