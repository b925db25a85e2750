import StageHost.Source
/-
  Web addresses: the part that names the server, and the part that is asked of it.
-/
namespace StageHost

structure Url where
  /-- User, host and port as written. -/
  authority : String
  host : String
  port : Option Nat
  /-- Path and query; the fragment is left out. -/
  target : String
deriving DecidableEq, Repr, Inhabited

namespace Url

/-- A letter or digit. -/
def isAlphanumeric (c : Char) : Bool := c.isAlpha || c.isDigit

/-- A character that may stand between scheme and path. -/
def isAuthorityChar (c : Char) : Bool := isAlphanumeric c || "!$&'()*+,-.:;=@[]_~".toList.contains c

/-- A character that ends the authority. -/
def endsAuthority (c : Char) : Bool := c == '/' || c == '?' || c == '#'

/-- What has been seen of an authority. Colons and percent signs count again from zero after a
bracketed address and after the user. -/
structure Seen where
  colons : Nat := 0
  opened : Bool := false
  closed : Bool := false
  percent : Bool := false

namespace Seen

/-- What has been seen after one more character, unless the character has no place there. -/
def step (s : Seen) (c : Char) : Option Seen :=
  match c with
  | ':' => if 8 ≤ s.colons then none else some { s with colons := s.colons + 1 }
  | '[' => if s.percent || s.opened then none else some { s with opened := true }
  | ']' =>
    if !s.opened || s.closed then none
    else some { s with closed := true, colons := 0, percent := false }
  | '@' => some { s with colons := 0, percent := false }
  | '%' => some { s with percent := true }
  | c => if isAuthorityChar c then some s else none

/-- Whether an authority may end here. -/
def complete (s : Seen) : Bool := s.opened == s.closed && s.colons ≤ 1 && !s.percent

end Seen

/-- What is seen of a whole authority. -/
def scan : Seen → List Char → Option Seen
  | s, [] => some s
  | s, c :: rest => s.step c >>= fun s => scan s rest

/-- Whether a text is an authority. -/
def isAuthority (cs : List Char) : Bool :=
  match scan {} cs with
  | some s => s.complete && !cs.isEmpty && cs.getLast? != some '@'
  | none => false

/-- The text after the last character of a kind, or the whole text if there is none. -/
def afterLast (c : Char) (cs : List Char) : List Char := (cs.reverse.takeWhile (· ≠ c)).reverse

/-- The host of an authority; a bracketed address keeps its brackets. -/
def hostOf (authority : List Char) : List Char :=
  match afterLast '@' authority with
  | '[' :: rest => '[' :: rest.takeWhile (· ≠ ']') ++ [']']
  | cs => cs.takeWhile (· ≠ ':')

/-- A port: digits, which a plus sign may precede, of a number below 65536. -/
def portNumber? (cs : List Char) : Option Nat :=
  let digits := match cs with
    | '+' :: rest => rest
    | cs => cs
  if digits.isEmpty || !digits.all (·.isDigit) then none
  else
    let n := digits.foldl (fun n c => 10 * n + (c.toNat - 48)) 0
    if n < 65536 then some n else none

/-- The port of an authority: what follows its last colon, if that is a port. -/
def portOf (authority : List Char) : Option Nat :=
  if authority.contains ':' then portNumber? (afterLast ':' authority) else none

/-- Whether a character may stand in a path. -/
def isPathChar (c : Char) : Bool :=
  let n := c.toNat
  n == 0x21 || n == 0x22 || (0x24 ≤ n && n ≤ 0x3B) || n == 0x3D || (0x40 ≤ n && n ≤ 0x5F)
    || (0x61 ≤ n && n ≤ 0x7E) || 0x7F ≤ n

/-- Whether a character may stand in a query. -/
def isQueryChar (c : Char) : Bool :=
  let n := c.toNat
  n == 0x21 || (0x24 ≤ n && n ≤ 0x3B) || n == 0x3D || 0x3F ≤ n

/-- The path and query at the end of an address. -/
def target? (cs : List Char) : Option (List Char) :=
  let cs := cs.takeWhile (· ≠ '#')
  let path := cs.takeWhile (· ≠ '?')
  let query := (cs.dropWhile (· ≠ '?')).drop 1
  if path.all isPathChar && query.all isQueryChar then
    some (if cs.isEmpty then ['/'] else cs)
  else none

/-- The greatest length of an address in bytes. -/
def maxLength : Nat := 65534

/-- Reads an address of one of the two schemes. -/
def parse? (s : String) : Option Url := do
  guard (s.utf8ByteSize ≤ maxLength)
  let cs := s.toList
  let rest ← (Source.after? "http://".toList cs).or (Source.after? "https://".toList cs)
  let authority := rest.takeWhile (!endsAuthority ·)
  guard (isAuthority authority)
  let target ← target? (rest.dropWhile (!endsAuthority ·))
  return { authority := String.ofList authority
           host := String.ofList (hostOf authority)
           port := portOf authority
           target := String.ofList target }

/-- Whether the target can be asked for: it must begin with a path. -/
def askable (u : Url) : Bool := u.target.toList.head? == some '/'

end Url
end StageHost
