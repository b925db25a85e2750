import StageHost.Decimal.Binary64
import StageHost.Toml.Basic
/-
  The words of a TOML document: white space and comments, keys, strings, numbers, dates and times.
  Every reader takes the characters at hand and gives what it read with the rest.
-/
namespace StageHost.Toml

/-! ## Between words -/

/-- A space or a tab. -/
def isSpace (c : Char) : Bool := c == ' ' || c == '\t'

/-- The rest after spaces and tabs. -/
def skipSpace (cs : List Char) : List Char := cs.dropWhile isSpace

/-- A character beyond ASCII. -/
def isWide (c : Char) : Bool := 0x80 ≤ c.toNat

/-- A character that a comment may hold. -/
def inComment (c : Char) : Bool := c == '\t' || (0x20 ≤ c.toNat && c.toNat ≤ 0x7E) || isWide c

/-- The rest after a line break. -/
def newline? : List Char → Option (List Char)
  | '\n' :: rest => some rest
  | '\r' :: '\n' :: rest => some rest
  | _ => none

/-- The rest after a comment, if there is one. -/
def skipComment : List Char → List Char
  | '#' :: rest => rest.dropWhile inComment
  | rest => rest

/-- The rest after the end of a line: spaces, a comment, and a line break or the end. -/
def endLine? (cs : List Char) : Option (List Char) :=
  match skipComment (skipSpace cs) with
  | [] => some []
  | rest => newline? rest

/-- The rest after blank lines and comments, as they may stand inside an array. -/
def skipLines : Nat → List Char → List Char
  | 0, cs => cs
  | fuel + 1, cs =>
    let cs := skipSpace cs
    match newline? (skipComment cs) with
    | some rest => skipLines fuel rest
    | none => cs

/-! ## Strings -/

/-- The value of a hexadecimal digit. -/
def hexValue? (c : Char) : Option Nat :=
  if '0' ≤ c ∧ c ≤ '9' then some (c.toNat - 48)
  else if 'a' ≤ c ∧ c ≤ 'f' then some (c.toNat - 87)
  else if 'A' ≤ c ∧ c ≤ 'F' then some (c.toNat - 55)
  else none

/-- The number of exactly `n` hexadecimal digits. -/
def hexNumber : Nat → Nat → List Char → Option (Nat × List Char)
  | 0, acc, cs => some (acc, cs)
  | _ + 1, _, [] => none
  | n + 1, acc, c :: cs => do hexNumber n (acc * 16 + (← hexValue? c)) cs

/-- The character of a number, if it is a scalar value. -/
def scalar? (n : Nat) : Option Char :=
  if n < 0xD800 ∨ (0xDFFF < n ∧ n < 0x110000) then some (Char.ofNat n) else none

/-- The character that follows a backslash stands for. -/
def escape? : List Char → Option (Char × List Char)
  | 'b' :: rest => some ('\x08', rest)
  | 't' :: rest => some ('\t', rest)
  | 'n' :: rest => some ('\n', rest)
  | 'f' :: rest => some ('\x0c', rest)
  | 'r' :: rest => some ('\r', rest)
  | '"' :: rest => some ('"', rest)
  | '\\' :: rest => some ('\\', rest)
  | 'u' :: rest => do
    let (n, rest) ← hexNumber 4 0 rest
    return (← scalar? n, rest)
  | 'U' :: rest => do
    let (n, rest) ← hexNumber 8 0 rest
    return (← scalar? n, rest)
  | _ => none

/-- A character that needs no escape inside a basic string. -/
def inBasic (c : Char) : Bool :=
  c == '\t' || (0x20 ≤ c.toNat && c.toNat ≤ 0x7E && c != '"' && c != '\\') || isWide c

/-- A character inside a literal string. -/
def inLiteral (c : Char) : Bool :=
  c == '\t' || (0x20 ≤ c.toNat && c.toNat ≤ 0x7E && c != '\x27') || isWide c

/-- A basic string after its opening quote. -/
def basic : Nat → List Char → Option (List Char × List Char)
  | 0, _ => none
  | _, [] => none
  | fuel + 1, c :: rest =>
    if c = '"' then some ([], rest)
    else if c = '\\' then do
      let (c, rest) ← escape? rest
      let (cs, rest) ← basic fuel rest
      return (c :: cs, rest)
    else if inBasic c then do
      let (cs, rest) ← basic fuel rest
      return (c :: cs, rest)
    else none

/-- A literal string after its opening quote. -/
def literal (cs : List Char) : Option (List Char × List Char) :=
  match cs.dropWhile inLiteral with
  | '\x27' :: rest => some (cs.takeWhile inLiteral, rest)
  | _ => none

/-- How a run of quotes ends a string of several lines: three close it, up to two before them
belong to it, and fewer than three are text. -/
def closing? (quote : Char) (cs : List Char) : Option (List Char × List Char) :=
  let run := (cs.takeWhile (· == quote)).length
  if run < 3 then none
  else
    let inside := min (run - 3) 2
    some (List.replicate inside quote, cs.drop (inside + 3))

/-- The rest after a backslash that joins lines: white space up to the next text, with at least
one line break in the first line of it. -/
def joinLines? (fuel : Nat) (cs : List Char) : Option (List Char) := do
  let rest ← newline? (skipSpace cs)
  return blank fuel rest
where
  /-- The rest after white space and line breaks. -/
  blank : Nat → List Char → List Char
    | 0, cs => cs
    | fuel + 1, cs =>
      let cs := skipSpace cs
      match newline? cs with
      | some rest => blank fuel rest
      | none => cs

/-- A string of several lines after its opening quotes; `escapes` tells a basic from a literal
one. Line breaks are read as a line feed. -/
def lines (quote : Char) (escapes : Bool) : Nat → List Char → Option (List Char × List Char)
  | 0, _ => none
  | _, [] => none
  | fuel + 1, c :: rest =>
    if c = quote then
      match closing? quote (c :: rest) with
      | some (inside, rest) => some (inside, rest)
      | none => do
        let (cs, rest) ← lines quote escapes fuel rest
        return (c :: cs, rest)
    else
      match newline? (c :: rest) with
      | some rest => do
        let (cs, rest) ← lines quote escapes fuel rest
        return ('\n' :: cs, rest)
      | none =>
        if escapes ∧ c = '\\' then
          match joinLines? fuel rest with
          | some rest => lines quote escapes fuel rest
          | none => do
            let (c, rest) ← escape? rest
            let (cs, rest) ← lines quote escapes fuel rest
            return (c :: cs, rest)
        else if (if escapes then inBasic c else inLiteral c) then do
          let (cs, rest) ← lines quote escapes fuel rest
          return (c :: cs, rest)
        else none

/-- The rest after a line break right behind the opening quotes. -/
def afterOpening (cs : List Char) : List Char := (newline? cs).getD cs

/-- A string of any of the four kinds. -/
def quoted (cs : List Char) : Option (List Char × List Char) :=
  match cs with
  | '"' :: '"' :: '"' :: rest => lines '"' true (cs.length + 1) (afterOpening rest)
  | '\x27' :: '\x27' :: '\x27' :: rest => lines '\x27' false (cs.length + 1) (afterOpening rest)
  | '"' :: rest => basic (cs.length + 1) rest
  | '\x27' :: rest => literal rest
  | _ => none

/-! ## Keys -/

/-- A character of a key without quotes. -/
def inBareKey (c : Char) : Bool := c.isAlphanum || c == '-' || c == '_'

/-- One part of a key. -/
def keyPart (cs : List Char) : Option (String × List Char) :=
  match cs with
  | '"' :: rest => (basic (cs.length + 1) rest).map fun p => (String.ofList p.1, p.2)
  | '\x27' :: rest => (literal rest).map fun p => (String.ofList p.1, p.2)
  | _ =>
    match cs.takeWhile inBareKey with
    | [] => none
    | part => some (String.ofList part, cs.dropWhile inBareKey)

/-- A key of one or more parts joined by points, with white space around each. -/
def keyParts : Nat → List Char → Option (List String × List Char)
  | 0, _ => none
  | fuel + 1, cs => do
    let (part, rest) ← keyPart (skipSpace cs)
    match skipSpace rest with
    | '.' :: rest => do
      let (parts, rest) ← keyParts fuel rest
      return (part :: parts, rest)
    | rest => return ([part], rest)

/-- Keys have fewer parts, and values fewer levels, than this. -/
def depthLimit : Nat := 80

/-- A key. -/
def key (cs : List Char) : Option (List String × List Char) := do
  let (parts, rest) ← keyParts (cs.length + 1) cs
  if parts.length < depthLimit then return (parts, rest) else none

/-! ## Numbers -/

/-- Digits of a class with single underscores between them, given without these. -/
def digits (isDigit : Char → Bool) : List Char → Option (List Char × List Char)
  | [] => none
  | c :: rest => if isDigit c then some (more c rest) else none
where
  /-- The digits from a first one on. -/
  more (c : Char) : List Char → List Char × List Char
    | '_' :: d :: rest =>
      if isDigit d then
        let (ds, rest) := more d rest
        (c :: ds, rest)
      else ([c], '_' :: d :: rest)
    | d :: rest =>
      if isDigit d then
        let (ds, rest) := more d rest
        (c :: ds, rest)
      else ([c], d :: rest)
    | [] => ([c], [])

/-- The number of some digits in a base. -/
def ofDigits (base : Nat) (ds : List Char) : Nat :=
  ds.foldl (fun n c => n * base + (hexValue? c).getD 0) 0

/-- A number in a base other than ten, after its mark. -/
def based (base : Nat) (isDigit : Char → Bool) (cs : List Char) : Option (Toml × List Char) := do
  let (ds, rest) ← digits isDigit cs
  let n := ofDigits base ds
  if n ≤ Int64.maxValue.toInt then return (.integer n, rest) else none

/-- Digits without a leading zero, or the one digit zero. -/
def decimalDigits : List Char → Option (List Char × List Char)
  | '0' :: rest => some (['0'], rest)
  | cs => digits Char.isDigit cs

/-- The point and the digits of a fraction, if there is a point. -/
def fraction : List Char → Option ((Option (List Char)) × List Char)
  | '.' :: rest => do
    let (ds, rest) ← digits Char.isDigit rest
    return (some ds, rest)
  | rest => some (none, rest)

/-- The mark, sign and digits of an exponent, if there is a mark. -/
def exponent : List Char → Option ((Option Int) × List Char)
  | c :: rest =>
    if c = 'e' ∨ c = 'E' then
      match rest with
      | '-' :: rest => do
        let (ds, rest) ← digits Char.isDigit rest
        return (some (-(ofDigits 10 ds : Int)), rest)
      | '+' :: rest => do
        let (ds, rest) ← digits Char.isDigit rest
        return (some (ofDigits 10 ds), rest)
      | rest => do
        let (ds, rest) ← digits Char.isDigit rest
        return (some (ofDigits 10 ds), rest)
    else some (none, c :: rest)
  | [] => some (none, [])

/-- Whether a number with a fraction or an exponent is too great to be held. A number below zero
is then held as minus infinity, so only numbers above zero are refused. -/
def tooGreat (negative : Bool) (whole fraction : List Char) (exponent : Int) : Bool :=
  let m := ofDigits 10 (whole ++ fraction)
  let e := exponent - fraction.length
  if negative ∨ m = 0 then false
  else if 400 < e + (whole.length + fraction.length : Nat) then
    400 < e + (Nat.toDigits 10 m).length
  else if e < 0 then (Binary64.round false m (Nat.pow 10 (min (-e).toNat 2000))).isNone
  else (Binary64.round false (m * Nat.pow 10 e.toNat) 1).isNone

/-- A decimal number after its sign. -/
def decimal (negative : Bool) (cs : List Char) : Option (Toml × List Char) := do
  let (whole, rest) ← decimalDigits cs
  let (frac, rest) ← fraction rest
  let (exp, rest) ← exponent rest
  if frac.isNone ∧ exp.isNone then
    let n : Int := ofDigits 10 whole
    let n := if negative then -n else n
    if Int64.minValue.toInt ≤ n ∧ n ≤ Int64.maxValue.toInt then return (.integer n, rest)
    else none
  else if tooGreat negative whole (frac.getD []) (exp.getD 0) then none
  else return (.real, rest)

/-- The rest after a word. -/
def word? : List Char → List Char → Option (List Char)
  | [], cs => some cs
  | _ :: _, [] => none
  | w :: ws, c :: cs => if w = c then word? ws cs else none

/-- Infinity or not-a-number, by name. -/
def special (cs : List Char) : Option (Toml × List Char) :=
  match word? "inf".toList cs, word? "nan".toList cs with
  | some rest, _ => some (.real, rest)
  | none, some rest => some (.real, rest)
  | none, none => none

/-- A number. -/
def number (cs : List Char) : Option (Toml × List Char) :=
  let signed (negative : Bool) (rest : List Char) : Option (Toml × List Char) :=
    match special rest with
    | some r => some r
    | none => decimal negative rest
  match cs with
  | '+' :: rest => signed false rest
  | '-' :: rest => signed true rest
  | '0' :: 'x' :: rest => based 16 (fun c => (hexValue? c).isSome) rest
  | '0' :: 'o' :: rest => based 8 (fun c => '0' ≤ c && c ≤ '7') rest
  | '0' :: 'b' :: rest => based 2 (fun c => c == '0' || c == '1') rest
  | cs => decimal false cs

/-! ## Dates and times -/

/-- A number of exactly `n` decimal digits. -/
def fixed (n : Nat) (cs : List Char) : Option (Nat × List Char) :=
  let ds := cs.take n
  if ds.length = n ∧ ds.all Char.isDigit then some (ofDigits 10 ds, cs.drop n) else none

/-- A number of two digits within bounds. -/
def field (low high : Nat) (cs : List Char) : Option (Nat × List Char) := do
  let (n, rest) ← fixed 2 cs
  if low ≤ n ∧ n ≤ high then return (n, rest) else none

/-- The rest after a given character. -/
def mark (c : Char) : List Char → Option (List Char)
  | d :: rest => if c = d then some rest else none
  | [] => none

/-- The days of a month. -/
def daysOf (year month : Nat) : Nat :=
  if month = 2 then
    if year % 4 = 0 ∧ (year % 100 ≠ 0 ∨ year % 400 = 0) then 29 else 28
  else if month = 4 ∨ month = 6 ∨ month = 9 ∨ month = 11 then 30
  else 31

/-- A date. -/
def date? (cs : List Char) : Option (List Char) := do
  let (year, rest) ← fixed 4 cs
  let (month, rest) ← field 1 12 (← mark '-' rest)
  let (_, rest) ← field 1 (daysOf year month) (← mark '-' rest)
  return rest

/-- A time of day; a leap second is allowed. -/
def time? (cs : List Char) : Option (List Char) := do
  let (_, rest) ← field 0 23 cs
  let (_, rest) ← field 0 59 (← mark ':' rest)
  let (_, rest) ← field 0 60 (← mark ':' rest)
  match rest with
  | '.' :: d :: after =>
    if d.isDigit then return after.dropWhile Char.isDigit else return rest
  | rest => return rest

/-- An offset from universal time, if there is one. -/
def offset? : List Char → Option (List Char)
  | c :: rest =>
    if c = 'Z' ∨ c = 'z' then some rest
    else if c = '+' ∨ c = '-' then do
      let (_, rest) ← field 0 23 rest
      let (_, rest) ← field 0 59 (← mark ':' rest)
      return rest
    else some (c :: rest)
  | [] => some []

/-- Whether a date begins here: four digits and a hyphen. -/
def startsDate (cs : List Char) : Bool :=
  match fixed 4 cs with
  | some (_, '-' :: _) => true
  | _ => false

/-- Whether a time begins here: an hour and a colon. -/
def startsTime (cs : List Char) : Bool :=
  match field 0 23 cs with
  | some (_, ':' :: _) => true
  | _ => false

/-- A date, a time, or both with or without an offset. -/
def dateTime (cs : List Char) : Option (Toml × List Char) :=
  if startsDate cs then do
    let rest ← date? cs
    match rest with
    | c :: after =>
      if (c = 'T' ∨ c = 't' ∨ c = ' ') ∧ startsTime after then
        return (.moment, ← offset? (← time? after))
      else return (.moment, rest)
    | [] => return (.moment, [])
  else do return (.moment, ← time? cs)

/-- A number, a date or a time, told apart by how it starts. -/
def numberOrMoment (cs : List Char) : Option (Toml × List Char) :=
  if startsDate cs ∨ startsTime cs then dateTime cs else number cs

end StageHost.Toml
