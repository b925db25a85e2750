import StageHost.Status
/-
  Two numbers of 32 bits in the one word that some stages return.
-/
namespace StageHost

/-- Whether a nomination replaces an earlier one. -/
inductive NominatingMode
  | noop
  | override
deriving DecidableEq, Repr, Inhabited

namespace NominatingMode

/-- Only the number 1 overrides. -/
def ofInt32 (n : Int32) : NominatingMode := if n = 1 then .override else .noop

def name : NominatingMode → String
  | .noop => "Noop"
  | .override => "Override"

end NominatingMode

namespace PackedWord

/-- The word whose halves are two given numbers. -/
def pack (high low : Int32) : Int64 :=
  ((high.toUInt32.toUInt64 <<< 32) ||| low.toUInt32.toUInt64).toInt64

/-- The upper half of a word. -/
def high (w : Int64) : Int32 := (w.toUInt64 >>> 32).toUInt32.toInt32

/-- The lower half of a word. -/
def low (w : Int64) : Int32 := w.toUInt64.toUInt32.toInt32

/-- A score and a status code. -/
def score (w : Int64) : Int32 × Int32 := (high w, low w)

/-- A nominating mode and a status code. -/
def postFilter (w : Int64) : NominatingMode × Int32 := (.ofInt32 (high w), low w)

/-- A status code and a time to wait in milliseconds, which is never negative. -/
def permit (w : Int64) : Int32 × Nat := (high w, (low w).toUInt32.toNat)

end PackedWord
end StageHost
