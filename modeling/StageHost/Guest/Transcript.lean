import StageHost.HostFunction
import StageHost.Severity
/-
  What a guest said to the host: log records, reports and output, in order.
-/
namespace StageHost

/-- A log record of a guest. -/
structure LogRecord where
  severity : Severity
  /-- The name of the guest's module. -/
  moduleName : String
  message : String
  /-- Keys and values as one text. -/
  keyValues : String := ""
deriving DecidableEq, Repr, Inhabited

/-- The two streams that a guest can write to. -/
inductive Stream
  | stdout
  | stderr
deriving DecidableEq, Repr, Inhabited

/-- One thing that a guest said. -/
inductive Exchange
  | logged (r : LogRecord)
  /-- The bytes of a report. -/
  | reported (r : Report) (bytes : List UInt8)
  /-- The bytes that were written to a stream, whether or not it had room for them. -/
  | printed (s : Stream) (bytes : List UInt8)
deriving DecidableEq, Repr, Inhabited

abbrev Transcript : Type := List Exchange

namespace Transcript

/-- The log records of a transcript. -/
def records (t : Transcript) : List LogRecord :=
  t.filterMap fun
    | .logged r => some r
    | _ => none

/-- The bytes that were written to a stream. -/
def output (t : Transcript) (s : Stream) : List UInt8 :=
  t.flatMap fun
    | .printed s' bytes => if s' = s then bytes else []
    | _ => []

/-- The bytes of the last report of a kind. -/
def lastReport (t : Transcript) (r : Report) : Option (List UInt8) :=
  t.reverse.findSome? fun
    | .reported r' bytes => if r' = r then some bytes else none
    | _ => none

end Transcript
end StageHost
