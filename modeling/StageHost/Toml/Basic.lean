/-
  TOML values, and the rules by which headers and dotted keys build up tables.
  A table is defined once: by a header, by dotted keys, or within braces. A header may still
  define a table that an earlier header only passed through.
-/
namespace StageHost

/-- How a table came about. -/
inductive Toml.Origin
  /-- The root, or a table with a header of its own. -/
  | declared
  /-- A table that the header of a deeper one passes through. -/
  | implied
  /-- A table that a dotted key passes through. -/
  | dotted
deriving DecidableEq, Repr

/-- A value. Of numbers with a fraction and of dates and times only the kind is kept. -/
inductive Toml
  | string (s : String)
  | integer (n : Int)
  | boolean (b : Bool)
  | real
  | moment
  | array (items : List Toml)
  /-- A table within braces, which nothing can be added to. -/
  | inline (entries : List (String × Toml))
  | table (origin : Toml.Origin) (entries : List (String × Toml))
  /-- The tables of one repeated header. -/
  | tables (tables : List (List (String × Toml)))
deriving Inhabited

namespace Toml

/-- Keys with their values. -/
abbrev Entries : Type := List (String × Toml)

/-- The entries with a new value for a key, which keeps its place if it has one. -/
def setEntry (k : String) (v : Toml) : Entries → Entries
  | [] => [(k, v)]
  | (k', v') :: rest => if k = k' then (k, v) :: rest else (k', v') :: setEntry k v rest

/-- The entries without a key. -/
def dropEntry (k : String) (entries : Entries) : Entries := entries.filter (·.1 ≠ k)

/-- Changes the table at the end of a path, and makes the tables on the way that are missing.
A path of a dotted key does not enter a declared table, and no path enters any other value. Of
the tables of a repeated header it enters the last. -/
def changeAt (dotted : Bool) :
    List String → (Origin → Entries → Option (Origin × Entries)) → Origin → Entries →
      Option (Origin × Entries)
  | [], change, origin, entries => change origin entries
  | k :: ks, change, origin, entries =>
    let enter (o : Origin) (inner : Entries) : Option (Origin × Entries) := do
      let (o, inner) ← changeAt dotted ks change o inner
      return (origin, setEntry k (.table o inner) entries)
    match entries.lookup k with
    | none => enter (if dotted then .dotted else .implied) []
    | some (.table o inner) => if dotted ∧ o = .declared then none else enter o inner
    | some (.tables ts) =>
      match ts.reverse with
      | [] => none
      | last :: before => do
        let (_, last) ← changeAt dotted ks change .declared last
        return (origin, setEntry k (.tables (before.reverse ++ [last])) entries)
    | some _ => none

/-- Sets a value under a path of keys. The table it goes into must have come about as the path
says: by dotted keys if there is a path before the last key, and in another way if there is
none. No key is set twice. -/
def put (path : List String) (k : String) (v : Toml) (origin : Origin) (entries : Entries) :
    Option (Origin × Entries) :=
  changeAt true path (fun o inner =>
    if (o == .dotted) == path.isEmpty then none
    else if (inner.lookup k).isSome then none
    else some (o, inner ++ [(k, v)])) origin entries

/-- The table that is being read: where it goes, and what it holds so far. -/
structure Section where
  path : List String := []
  repeated : Bool := false
  entries : Entries := []
deriving Inhabited

/-- A document in the making: the finished part, and the section being read. -/
structure Document where
  root : Entries := []
  current : Section := {}
deriving Inhabited

namespace Document

/-- Puts the section being read into its place. -/
def close (d : Document) : Option Entries :=
  match d.current.path.reverse with
  | [] => some d.current.entries
  | k :: before =>
    let place (origin : Origin) (inner : Entries) : Option (Origin × Entries) :=
      match d.current.repeated, inner.lookup k with
      | false, none => some (origin, inner ++ [(k, .table .declared d.current.entries)])
      | false, some (.table .implied _) =>
        some (origin, setEntry k (.table .declared d.current.entries) inner)
      | true, none => some (origin, inner ++ [(k, .tables [d.current.entries])])
      | true, some (.tables ts) =>
        some (origin, setEntry k (.tables (ts ++ [d.current.entries])) inner)
      | _, _ => none
    (changeAt false before.reverse place .declared d.root).map (·.2)

/-- Begins the section of a header. A plain header takes over a table that was only implied; a
repeated one needs a place that holds nothing or such tables. -/
def openSection (d : Document) (path : List String) (repeated : Bool) : Option Document := do
  let root ← d.close
  match path.reverse with
  | [] => none
  | k :: before =>
    let look (o : Origin) (inner : Entries) : Option (Origin × Entries) :=
      match repeated, inner.lookup k with
      | _, none => some (o, inner)
      | true, some (.tables _) => some (o, inner)
      | false, some (.table .implied _) => some (o, inner)
      | _, _ => none
    let (_, root) ← changeAt false before.reverse look .declared root
    let held := if repeated then [] else heldAt before.reverse k root
    return ⟨root, path, repeated, held⟩
where
  /-- The entries of the table under a path of keys. -/
  heldAt : List String → String → Entries → Entries
    | [], k, entries =>
      match entries.lookup k with
      | some (.table _ inner) => inner
      | _ => []
    | p :: ps, k, entries =>
      match entries.lookup p with
      | some (.table _ inner) => heldAt ps k inner
      | some (.tables ts) => heldAt ps k (ts.getLast?.getD [])
      | _ => []

end Document
end Toml
end StageHost
