import StageHost.Text.Hex
/-
  Replies of web servers: a status, header lines and a body.
  The body is as long as the header says; without a length it ends with the connection.
-/
namespace StageHost

/-- What is read from a connection up to its end. -/
inductive Reply
  /-- There is no whole head. -/
  | unreadable
  /-- A status with the body, which is missing if it breaks off. -/
  | answered (status : Nat) (body : Option (List UInt8))
deriving DecidableEq, Repr, Inhabited

namespace Reply

/-! ## Heads -/

/-- A line up to its line feed, without a carriage return before that, and the rest. -/
def line? : List UInt8 → Option (List UInt8 × List UInt8)
  | [] => none
  | b :: rest =>
    if b = 10 then some ([], rest)
    else
      match line? rest with
      | none => none
      | some (l, after) => some (if l = [] ∧ b = 13 ∧ rest.head? = some 10 then l else b :: l, after)

/-- The lines up to the first empty one, and the rest after it. -/
def lines? : Nat → List UInt8 → Option (List (List UInt8) × List UInt8)
  | 0, _ => none
  | fuel + 1, bytes =>
    match line? bytes with
    | none => none
    | some ([], rest) => some ([], rest)
    | some (l, rest) => (lines? fuel rest).map fun (ls, after) => (l :: ls, after)

/-- The value of a digit. -/
def digit? (b : UInt8) : Option Nat := if 48 ≤ b ∧ b ≤ 57 then some (b.toNat - 48) else none

/-- A number in digits. -/
def number? : List UInt8 → Nat → Option Nat
  | [], n => some n
  | b :: rest, n =>
    match digit? b with
    | some d => number? rest (10 * n + d)
    | none => none

/-- A byte that may stand in a value or a reason. -/
def isTextByte (b : UInt8) : Bool := b == 9 || (32 ≤ b && b != 127)

/-- The status of the first line: the version, three digits, and maybe a reason. -/
def status? (l : List UInt8) : Option Nat :=
  let versions := ["HTTP/1.0 ".toUTF8.toList, "HTTP/1.1 ".toUTF8.toList]
  if versions.contains (l.take 9) then
    let digits := (l.drop 9).take 3
    let after := l.drop 12
    let good := after.isEmpty || (after.head? == some 32 && after.all isTextByte)
    if digits.length = 3 ∧ good then
      (number? digits 0).filter (100 ≤ ·)
    else none
  else none

/-- A byte of a header name. -/
def isNameByte (b : UInt8) : Bool :=
  (48 ≤ b && b ≤ 57) || (65 ≤ b && b ≤ 90) || (97 ≤ b && b ≤ 122)
    || "!#$%&'*+-.^_\x60|~".toUTF8.toList.contains b

/-- A byte with a capital letter made small. -/
def lower (b : UInt8) : UInt8 := if 65 ≤ b ∧ b ≤ 90 then b + 32 else b

/-- The bytes without blanks and tabs at their ends. -/
def strip (bytes : List UInt8) : List UInt8 :=
  let isSpace (b : UInt8) : Bool := b == 32 || b == 9
  ((bytes.dropWhile isSpace).reverse.dropWhile isSpace).reverse

/-- The name, in small letters, and the value of a header line. -/
def header? (l : List UInt8) : Option (List UInt8 × List UInt8) :=
  let name := l.takeWhile (· ≠ 58)
  if name.isEmpty || !name.all isNameByte || name.length = l.length then none
  else
    let value := strip (l.drop (name.length + 1))
    if value.all isTextByte then some (name.map lower, value) else none

/-! ## Bodies -/

/-- The value of a hexadecimal number. -/
def hexNumber? (bytes : List UInt8) : Option Nat :=
  if bytes.isEmpty then none
  else bytes.foldlM (fun n b => (Hex.value? (Char.ofNat b.toNat)).map (16 * n + ·)) 0

/-- A body in chunks, each with its size before it; the last one has size zero. -/
def chunks? : Nat → List UInt8 → Option (List UInt8)
  | 0, _ => none
  | fuel + 1, bytes => do
    let (l, rest) ← line? bytes
    let size ← hexNumber? (strip (l.takeWhile (· ≠ 59)))
    if size = 0 then do
      let _ ← lines? (rest.length + 1) rest
      return []
    else do
      guard (size ≤ rest.length)
      let after ← (match rest.drop size with
        | 13 :: 10 :: after => some after
        | _ => none)
      return rest.take size ++ (← chunks? fuel after)

/-- How long a body is. -/
inductive Framing
  | length (n : Nat)
  | chunked
  | untilClose
deriving DecidableEq, Repr

/-- The values of a header. -/
def values (name : String) (headers : List (List UInt8 × List UInt8)) : List (List UInt8) :=
  (headers.filter (·.1 = name.toUTF8.toList)).map (·.2)

/-- How long the body of a reply is, unless its headers contradict each other. -/
def framing? (status : Nat) (headers : List (List UInt8 × List UInt8)) : Option Framing :=
  let lengths := values "content-length" headers
  let encodings := values "transfer-encoding" headers
  if status = 204 ∨ status = 304 ∨ status = 101 then some (.length 0)
  else
    match encodings.getLast? with
    | some e =>
      let last := strip (e.reverse.takeWhile (· ≠ 44)).reverse
      some (if last.map lower = "chunked".toUTF8.toList then .chunked else .untilClose)
    | none =>
      match lengths with
      | [] => some .untilClose
      | first :: others =>
        if first.isEmpty then none
        else
          match number? first 0 with
          | some n => if others.all (number? · 0 == some n) then some (.length n) else none
          | none => none

/-- The body of some length at the front of the bytes. -/
def body? (bytes : List UInt8) : Framing → Option (List UInt8)
  | .length n => if n ≤ bytes.length then some (bytes.take n) else none
  | .chunked => chunks? (bytes.length + 1) bytes
  | .untilClose => some bytes

/-- Reads a reply. Interim replies before it are skipped. -/
def readFrom : Nat → List UInt8 → Reply
  | 0, _ => .unreadable
  | fuel + 1, bytes =>
    match lines? (bytes.length + 1) bytes with
    | some (first :: rest, after) =>
      match status? first, rest.mapM header? with
      | some status, some headers =>
        if status < 200 ∧ status ≠ 101 then readFrom fuel after
        else
          match framing? status headers with
          | some f => .answered status (body? after f)
          | none => .unreadable
      | _, _ => .unreadable
    | _ => .unreadable

/-- Reads a reply from all the bytes that a server sends before it closes. -/
def read (bytes : List UInt8) : Reply := readFrom (bytes.length + 1) bytes

/-! ## Statuses -/

/-- The reasons that belong to statuses. -/
def reasons : List (Nat × String) :=
  [(100, "Continue"), (101, "Switching Protocols"), (102, "Processing"), (200, "OK"),
   (201, "Created"), (202, "Accepted"), (203, "Non Authoritative Information"),
   (204, "No Content"), (205, "Reset Content"), (206, "Partial Content"), (207, "Multi-Status"),
   (208, "Already Reported"), (226, "IM Used"), (300, "Multiple Choices"),
   (301, "Moved Permanently"), (302, "Found"), (303, "See Other"), (304, "Not Modified"),
   (305, "Use Proxy"), (307, "Temporary Redirect"), (308, "Permanent Redirect"),
   (400, "Bad Request"), (401, "Unauthorized"), (402, "Payment Required"), (403, "Forbidden"),
   (404, "Not Found"), (405, "Method Not Allowed"), (406, "Not Acceptable"),
   (407, "Proxy Authentication Required"), (408, "Request Timeout"), (409, "Conflict"),
   (410, "Gone"), (411, "Length Required"), (412, "Precondition Failed"),
   (413, "Payload Too Large"), (414, "URI Too Long"), (415, "Unsupported Media Type"),
   (416, "Range Not Satisfiable"), (417, "Expectation Failed"), (418, "I\x27m a teapot"),
   (421, "Misdirected Request"), (422, "Unprocessable Entity"), (423, "Locked"),
   (424, "Failed Dependency"), (425, "Too Early"), (426, "Upgrade Required"),
   (428, "Precondition Required"), (429, "Too Many Requests"),
   (431, "Request Header Fields Too Large"), (451, "Unavailable For Legal Reasons"),
   (500, "Internal Server Error"), (501, "Not Implemented"), (502, "Bad Gateway"),
   (503, "Service Unavailable"), (504, "Gateway Timeout"), (505, "HTTP Version Not Supported"),
   (506, "Variant Also Negotiates"), (507, "Insufficient Storage"), (508, "Loop Detected"),
   (510, "Not Extended"), (511, "Network Authentication Required")]

/-- A status as messages show it. -/
def statusText (status : Nat) : String :=
  toString status ++ " " ++ (reasons.lookup status).getD "<unknown status code>"

end Reply
end StageHost
