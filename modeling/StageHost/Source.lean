import StageHost.Text.Blank
/-
  Where a guest module comes from: a file, or a server asked over HTTP with or without TLS.
-/
namespace StageHost

inductive Source
  | file (path : String)
  | http (url : String) (tls : Bool)
deriving DecidableEq, Repr, Inhabited

/-- Why a text names no source. -/
inductive SourceError
  | unsupportedScheme (uri : String)
  | invalidUri (uri : String)
deriving DecidableEq, Repr

namespace SourceError

def message : SourceError → String
  | .unsupportedScheme uri => "unsupported guest source scheme: " ++ uri
  | .invalidUri uri => "invalid guest source URI: " ++ uri

end SourceError

namespace Source

/-- The rest of a text after a given beginning. -/
def after? : List Char → List Char → Option (List Char)
  | [], cs => some cs
  | _ :: _, [] => none
  | p :: ps, c :: cs => if p = c then after? ps cs else none

/-- Whether a text holds another one. -/
def holds (part : List Char) : List Char → Bool
  | [] => part.isEmpty
  | c :: cs => (after? part (c :: cs)).isSome || holds part cs

/-- Whether a text looks like a path: it starts at a directory or ends in `.wasm`. -/
def isPath (uri : List Char) : Bool :=
  (after? "./".toList uri).isSome || (after? "../".toList uri).isSome
    || (after? "/".toList uri).isSome || (after? "msaw.".toList uri.reverse).isSome

/-- The text before the first slash. -/
def beforeSlash (cs : List Char) : List Char := cs.takeWhile (· ≠ '/')

/-- The source that a trimmed text names. -/
def parseTrimmed (uri : String) : Except SourceError Source :=
  let cs := uri.toList
  match after? "https://".toList cs with
  | some rest => if (beforeSlash rest).isEmpty then .error (.invalidUri uri) else .ok (.http uri true)
  | none =>
    match after? "http://".toList cs with
    | some rest =>
      if (beforeSlash rest).isEmpty then .error (.invalidUri uri) else .ok (.http uri false)
    | none =>
      match after? "file://".toList cs with
      | some path =>
        if path.isEmpty then .error (.invalidUri uri) else .ok (.file (String.ofList path))
      | none =>
        if holds "://".toList cs then .error (.unsupportedScheme uri)
        else if isPath cs then .ok (.file uri)
        else .error (.unsupportedScheme uri)

/-- The source that a text names; white space around it does not count. -/
def parse (uri : String) : Except SourceError Source := parseTrimmed (trim uri)

/-- The scheme of a source. -/
def scheme : Source → String
  | .file _ => "file"
  | .http _ true => "https"
  | .http _ false => "http"

end Source
end StageHost
