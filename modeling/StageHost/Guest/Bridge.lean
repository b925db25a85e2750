import StageHost.Guest.Host
import StageHost.Guest.Trap
import StageHost.Wire.Events
import StageHost.Wire.Strings
/-
  The functions of the host as guests call them.
  A question is answered by ask-then-write: the guest names an address and the room there, learns
  the length of the value, and gets the value if there is room for it. A report names a range of
  memory, whose bounds are checked before anything else; it counts only during a call.
-/
namespace StageHost.Bridge

/-- Answers a question. -/
def ask (q : Question) (address room : UInt32) (m : Memory) (h : Host) :
    Except Trap (UInt32 × Memory) × Host :=
  let (value, h) := h.answer q
  match m.writeIfFits address room value with
  | .ok r => (.ok r, h)
  | .error b => (.error (.rangeBounds b), h)

/-- The scores that a report holds, which must be the JSON of a list of scores. -/
def readScores? (bytes : List UInt8) : Option (List NodeScore) :=
  match Json.read? bytes with
  | none => none
  | some v => (NodeScore.decodeList v).toOption

/-- The results with one more report. -/
def record (r : Report) (bytes : List UInt8) (results : Reported) : Except Trap Reported :=
  match r with
  | .reason => .ok { results with reason := some (Utf8.lossy bytes) }
  | .clusterEvents => .ok { results with clusterEvents := some (Wire.decodeEvents bytes) }
  | .nodeNames => .ok { results with nodeNames := some (Wire.decodeStrings bytes) }
  | .nominatedNode => .ok { results with nominatedNode := some (Utf8.lossy bytes) }
  | .nodeScores =>
    match readScores? bytes with
    | some scores => .ok { results with nodeScores := some scores }
    | none => .error .malformedScores

/-- Takes a report of a range of memory. -/
def report (r : Report) (address length : UInt32) (m : Memory) (h : Host) :
    Except Trap Unit × Host :=
  match m.range address length with
  | .error b => (.error (.rangeBounds b), h)
  | .ok bytes =>
    let h := h.note (.reported r bytes)
    match h.call with
    | none => (.ok (), h)
    | some c =>
      match record r bytes c.reported with
      | .ok reported => (.ok (), { h with call := some { c with reported } })
      | .error t => (.error t, h)

/-- The severity of a record that is not below the threshold. -/
def enabled? (h : Host) (level : Int32) : Option Severity :=
  let s := Severity.clamp level
  if h.settings.logSeverity ≤ s then some s else none

/-- Takes a log record whose message is a range of memory. A record below the threshold is
dropped before its range is looked at. -/
def log (level : Int32) (address length : UInt32) (m : Memory) (h : Host) :
    Except Trap Unit × Host :=
  match enabled? h level with
  | none => (.ok (), h)
  | some severity =>
    match m.range address length with
    | .error b => (.error (.rangeBounds b), h)
    | .ok bytes =>
      (.ok (), h.note (.logged
        { severity, moduleName := h.settings.moduleName, message := Utf8.lossy bytes }))

/-- Keys and values in turn as one text; a key at the end has the empty value. -/
def pairs : List String → List String
  | [] => []
  | [k] => [k ++ "="]
  | k :: v :: rest => (k ++ "=" ++ v) :: pairs rest

/-- The text of keys and values. -/
def keyValues (entries : List String) : String := " ".intercalate (pairs entries)

/-- Takes a log record with keys and values, which are a list of texts in memory. -/
def logs (level : Int32) (address length kvAddress kvLength : UInt32) (m : Memory) (h : Host) :
    Except Trap Unit × Host :=
  match enabled? h level with
  | none => (.ok (), h)
  | some severity =>
    match m.range address length with
    | .error b => (.error (.rangeBounds b), h)
    | .ok bytes =>
      match m.range kvAddress kvLength with
      | .error b => (.error (.rangeBounds b), h)
      | .ok kv =>
        (.ok (), h.note (.logged
          { severity
            moduleName := h.settings.moduleName
            message := Utf8.lossy bytes
            keyValues := keyValues (Wire.decodeStrings kv) }))

/-- The threshold as a number. -/
def severity (h : Host) : UInt32 := UInt32.ofNat h.settings.logSeverity.toInt.toNat

/-! ## The system interface -/

/-- The error number of a call that went well. -/
def okNumber : UInt32 := 0

/-- The error number for a stream that is not open. -/
def badStreamNumber : UInt32 := 8

/-- The error number for a range that is not in memory. -/
def faultNumber : UInt32 := 21

/-- The error number for a stream that takes no more. -/
def fullNumber : UInt32 := 29

/-- The stream of a number. -/
def stream? (number : UInt32) : Option Stream :=
  if number = 1 then some .stdout else if number = 2 then some .stderr else none

/-- Writes a range of memory to a stream. What a full stream has no room for is lost, and that is
an error. Gives the error number. -/
def print (number address length : UInt32) (m : Memory) (h : Host) : UInt32 × Host :=
  match stream? number with
  | none => (badStreamNumber, h)
  | some s =>
    match m.range address length with
    | .error _ => (faultNumber, h)
    | .ok bytes =>
      (if (h.capture s).room < bytes.length then fullNumber else okNumber, h.print s bytes)

/-- How a program ends with an exit code. -/
def exit (code : UInt32) : Failure := if code < 126 then .exited code else .trapped .invalidExit

end StageHost.Bridge
