import StageHost.Toml.Lexeme
/-
  Reading TOML documents, version 1.0.
-/
namespace StageHost.Toml

mutual
/-- A value at a depth; every call needs one unit of fuel. -/
def value : Nat → Nat → List Char → Option (Toml × List Char)
  | 0, _, _ => none
  | fuel + 1, depth, cs =>
    match cs with
    | [] => none
    | '"' :: _ => do
      let (s, rest) ← quoted cs
      return (.string (String.ofList s), rest)
    | '\x27' :: _ => do
      let (s, rest) ← quoted cs
      return (.string (String.ofList s), rest)
    | '[' :: rest =>
      if depth + 1 < depthLimit then do
        let (items, rest) ← items fuel (depth + 1) rest
        return (.array items, rest)
      else none
    | '{' :: rest =>
      if depth + 1 < depthLimit then
        match skipSpace rest with
        | '}' :: rest => some (.inline [], rest)
        | rest => do
          let (entries, rest) ← members fuel (depth + 1) [] rest
          return (.inline entries, rest)
      else none
    | 't' :: _ => do return (.boolean true, ← word? "true".toList cs)
    | 'f' :: _ => do return (.boolean false, ← word? "false".toList cs)
    | c :: _ =>
      if c = '+' ∨ c = '-' ∨ c.isDigit then numberOrMoment cs else special cs

/-- The items of an array up to the closing bracket; a comma may follow the last. -/
def items : Nat → Nat → List Char → Option (List Toml × List Char)
  | 0, _, _ => none
  | fuel + 1, depth, cs =>
    match skipLines (cs.length + 1) cs with
    | ']' :: rest => some ([], rest)
    | cs => do
      let (v, rest) ← value fuel depth cs
      match skipLines (rest.length + 1) rest with
      | ',' :: rest => do
        let (vs, rest) ← items fuel depth rest
        return (v :: vs, rest)
      | ']' :: rest => return ([v], rest)
      | _ => none

/-- The entries of a table within braces, from the next key up to the closing brace. -/
def members : Nat → Nat → Entries → List Char → Option (Entries × List Char)
  | 0, _, _, _ => none
  | fuel + 1, depth, done, cs => do
    let (path, rest) ← key cs
    let rest ← mark '=' rest
    let (v, rest) ← value fuel depth (skipSpace rest)
    let k ← path.getLast?
    let (_, done) ← put path.dropLast k v .declared done
    match skipSpace rest with
    | ',' :: rest => members fuel depth done rest
    | '}' :: rest => return (done, rest)
    | _ => none
end

/-- A header after its first bracket. -/
def header (d : Document) (cs : List Char) : Option (Document × List Char) :=
  match cs with
  | '[' :: rest => do
    let (path, rest) ← key rest
    let rest ← endLine? (← mark ']' (← mark ']' rest))
    return (← d.openSection path true, rest)
  | cs => do
    let (path, rest) ← key cs
    let rest ← endLine? (← mark ']' rest)
    return (← d.openSection path false, rest)

/-- A key with its value, up to the end of the line. -/
def assignment (d : Document) (cs : List Char) : Option (Document × List Char) := do
  let (path, rest) ← key cs
  let rest ← mark '=' rest
  let (v, rest) ← value (cs.length + 1) 0 (skipSpace rest)
  let rest ← endLine? rest
  let k ← path.getLast?
  let (_, entries) ← put path.dropLast k v .declared d.current.entries
  return ({ d with current := { d.current with entries } }, rest)

/-- The lines of a document. -/
def document : Nat → Document → List Char → Option Document
  | 0, _, _ => none
  | fuel + 1, d, cs =>
    match skipSpace cs with
    | [] => some d
    | '#' :: rest => do document fuel d (← endLine? ('#' :: rest))
    | '[' :: rest => do
      let (d, rest) ← header d rest
      document fuel d rest
    | c :: rest =>
      if c = '\n' ∨ c = '\r' then do document fuel d (← newline? (c :: rest))
      else do
        let (d, rest) ← assignment d (c :: rest)
        document fuel d rest

/-- The top entries of a document; a byte order mark before it does not count. -/
def parse? (s : String) : Option Entries := do
  let cs := match s.toList with
    | '\uFEFF' :: rest => rest
    | cs => cs
  let d ← document (cs.length + 1) {} cs
  d.close

end StageHost.Toml
