import StageHost.Json.Reader
import StageHost.Text.Quoted
/-
  Decoding JSON values into declared types.
  A record is an object, or an array of its fields by position. Unknown members are skipped, a
  member that is named twice is refused, and fields with a default may be absent. The error is
  that of the first bad value in the order of the members, then that of the first absent field in
  the order of the declaration.
-/
namespace StageHost.Json

/-- Why a value is not of the type asked for. -/
inductive DecodeError
  | invalidType (found : Json) (expected : String)
  | invalidValue (found : Json) (expected : String)
  | invalidLength (length : Nat) (expected : String)
  | missingField (name : String)
  | duplicateField (name : String)
  | unknownVariant (name : String) (known : List String)
  /-- The text of the value denotes nothing. -/
  | unreadable
  /-- The value has the right shape, but its type has no such value. -/
  | refused (message : String)
deriving Inhabited

/-- How a value is named in a message. -/
def found : Json → String
  | .null => "null"
  | .bool true => "boolean `true`"
  | .bool false => "boolean `false`"
  | .integer n => "integer `" ++ toString n ++ "`"
  | .real x => "floating point `" ++ x.text layout ++ "`"
  | .string s => "string " ++ Quoted.quote s
  | .array _ => "sequence"
  | .object _ => "map"
  | .unreadable => "unreadable value"

/-- A name as messages quote it. -/
def ticked (name : String) : String := "`" ++ name ++ "`"

namespace DecodeError

/-- The wording of an error. -/
def message : DecodeError → String
  | .invalidType v expected => "invalid type: " ++ found v ++ ", expected " ++ expected
  | .invalidValue v expected =>
    let shown := match v with
      | .object _ => "map"
      | v => found v
    "invalid value: " ++ shown ++ ", expected " ++ expected
  | .invalidLength n expected => "invalid length " ++ toString n ++ ", expected " ++ expected
  | .missingField name => "missing field " ++ ticked name
  | .duplicateField name => "duplicate field " ++ ticked name
  | .unknownVariant name known =>
    "unknown variant " ++ ticked name ++ ", expected one of "
      ++ ", ".intercalate (known.map ticked)
  | .unreadable => "unreadable value"
  | .refused message => message

end DecodeError

/-- Decodes a value or says why not. -/
abbrev Decoder (α : Type) : Type := Json → Except DecodeError α

/-! ## Single values -/

/-- The error for a value of another type. -/
def mismatch (v : Json) (expected : String) : DecodeError :=
  match v with
  | .unreadable => .unreadable
  | v => .invalidType v expected

/-- A text. -/
def asString : Decoder String
  | .string s => .ok s
  | v => .error (mismatch v "a string")

/-- A truth value. -/
def asBool : Decoder Bool
  | .bool b => .ok b
  | v => .error (mismatch v "a boolean")

/-- A whole number within bounds. -/
def asInteger (low high : Int) (expected : String) : Decoder Int
  | .integer n => if low ≤ n ∧ n ≤ high then .ok n else .error (.invalidValue (.integer n) expected)
  | v => .error (mismatch v expected)

/-- A signed number of 32 bits. -/
def asInt32 : Decoder Int32 := fun v =>
  Int32.ofInt <$> asInteger Int32.minValue.toInt Int32.maxValue.toInt "i32" v

/-- A signed number of 64 bits. -/
def asInt64 : Decoder Int64 := fun v =>
  Int64.ofInt <$> asInteger Int64.minValue.toInt Int64.maxValue.toInt "i64" v

/-- An unsigned number of 64 bits; `expected` is its name in messages. -/
def asUInt64 (expected : String) : Decoder UInt64 := fun v =>
  (fun n => UInt64.ofNat n.toNat) <$> asInteger 0 (UInt64.size - 1) expected v

/-- A value that may be absent, which `null` says. -/
def asOption {α : Type} (decode : Decoder α) : Decoder (Option α)
  | .null => .ok none
  | v => some <$> decode v

/-- A list of values. -/
def asList {α : Type} (decode : Decoder α) : Decoder (List α)
  | .array items => items.mapM decode
  | v => .error (mismatch v "a sequence")

/-- Adds the entries of an object to a map; of equal keys the last counts. -/
def addEntries (m : StringMap) : List (String × Json) → Except DecodeError StringMap
  | [] => .ok m
  | (k, v) :: rest => do addEntries (m.insert k (← asString v)) rest

/-- A map from texts to texts. -/
def asMap : Decoder StringMap
  | .object members => addEntries .empty members
  | v => .error (mismatch v "a map")

/-! ## Names of a fixed list -/

/-- One of some names, written as a text or as the only key of an object whose value is `null`. -/
def asVariant {α : Type} (known : List (String × α)) : Decoder α := fun v =>
  let select (name : String) : Except DecodeError α :=
    match known.lookup name with
    | some a => .ok a
    | none => .error (.unknownVariant name (known.map (·.1)))
  match v with
  | .string name => select name
  | .object [(name, payload)] => do
    let a ← select name
    match payload with
    | .null => .ok a
    | payload => .error (mismatch payload "unit")
  | .object members => .error (.invalidValue (.object members) "map with a single key")
  | v => .error (mismatch v "string or map")

/-! ## Records -/

/-- A field of a record: its name, whether it must be present, and how its value is put into the
record. -/
structure Field (σ : Type) where
  name : String
  required : Bool
  read : Json → σ → Except DecodeError σ

namespace Field

variable {σ α : Type}

/-- A field that must be present. -/
def must (name : String) (decode : Decoder α) (set : α → σ → σ) : Field σ :=
  ⟨name, true, fun v s => do return set (← decode v) s⟩

/-- A field that may be absent. -/
def may (name : String) (decode : Decoder α) (set : α → σ → σ) : Field σ :=
  ⟨name, false, fun v s => do return set (← decode v) s⟩

end Field

section Record

variable {σ : Type}

/-- Reads members into a record, and the names of the fields seen. -/
def readFields (fields : List (Field σ)) :
    List (String × Json) → List String → σ → Except DecodeError (List String × σ)
  | [], seen, s => .ok (seen, s)
  | (k, v) :: rest, seen, s =>
    match fields.find? (·.name == k) with
    | none => readFields fields rest seen s
    | some f =>
      if seen.contains k then .error (.duplicateField k)
      else do readFields fields rest (k :: seen) (← f.read v s)

/-- Reads the fields of an array by position; `at` counts them. -/
def readPositions (expected : String) :
    List (Field σ) → List Json → Nat → σ → Except DecodeError (List Json × σ)
  | [], items, _, s => .ok (items, s)
  | f :: fields, [], i, s =>
    if f.required then .error (.invalidLength i expected)
    else readPositions expected fields [] (i + 1) s
  | f :: fields, v :: items, i, s => do
    readPositions expected fields items (i + 1) (← f.read v s)

/-- A record. `blank` holds the defaults of the fields that may be absent. -/
def asRecord (name : String) (fields : List (Field σ)) (blank : σ) : Decoder σ
  | .object members => do
    let (seen, s) ← readFields fields members [] blank
    match fields.find? fun f => f.required && !seen.contains f.name with
    | some f => .error (.missingField f.name)
    | none => .ok s
  | .array items => do
    let expected := "struct " ++ name ++ " with " ++ toString fields.length ++ " elements"
    let (left, s) ← readPositions expected fields items 0 blank
    if left.isEmpty then .ok s
    else .error (.invalidLength items.length "fewer elements in array")
  | v => .error (mismatch v ("struct " ++ name))

end Record
end StageHost.Json
