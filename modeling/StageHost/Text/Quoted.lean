import StageHost.Text.Hex
import StageHost.Text.Printable
/-
  Quoted texts and the braces around sets and records of them, as descriptions and messages show
  them.
-/
namespace StageHost.Quoted

/-- A character inside quotes. -/
def escape (c : Char) : List Char :=
  match c with
  | '"' => ['\\', '"']
  | '\\' => ['\\', '\\']
  | '\n' => ['\\', 'n']
  | '\r' => ['\\', 'r']
  | '\t' => ['\\', 't']
  | '\x00' => ['\\', '0']
  | c =>
    if Printable.isPrintable c then [c]
    else ['\\', 'u', '{'] ++ (Hex.ofNat c.toNat).toList ++ ['}']

/-- A text in quotes. -/
def quote (s : String) : String :=
  String.ofList ('"' :: s.toList.flatMap escape ++ ['"'])

/-- Names as a set: quoted, in order, within braces. -/
def set (names : List String) : String :=
  "\x7b" ++ ", ".intercalate (names.map quote) ++ "\x7d"

end StageHost.Quoted
