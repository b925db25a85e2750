import StageHost.Guest.CallContext
import StageHost.Guest.Limiter
import StageHost.Guest.Settings
import StageHost.Guest.Transcript
import StageHost.Json.Writer
/-
  What the host keeps for one guest: the call in flight, the JSON of the pod for as long as its
  cycle lasts, a buffer for other JSON, captured output, and the limits.
-/
namespace StageHost

/-- A stream whose output is kept until it is taken. -/
structure Capture where
  bytes : Array UInt8 := #[]
deriving DecidableEq, Inhabited

namespace Capture

/-- The number of bytes that a stream holds: 64 KiB. -/
def capacity : Nat := 65536

/-- The room left. -/
def room (c : Capture) : Nat := capacity - c.bytes.size

/-- The stream with more bytes, of which those beyond the capacity are lost. -/
def push (c : Capture) (bytes : List UInt8) : Capture :=
  ⟨c.bytes ++ (bytes.take c.room).toArray⟩

end Capture

/-- The pod's JSON, kept for calls with the same key. -/
structure CycleCache where
  key : Option (UInt64 × String) := none
  pod : Option (List UInt8) := none
deriving DecidableEq, Inhabited

structure Host where
  settings : Settings
  /-- The call in flight. -/
  call : Option CallContext := none
  cache : CycleCache := {}
  /-- The buffer for JSON that is not kept. -/
  scratch : List UInt8 := []
  stdout : Capture := {}
  stderr : Capture := {}
  limiter : Limiter
  /-- What the guest said since the transcript was last taken. -/
  transcript : Transcript := []
deriving Inhabited

namespace Host

/-- The host of a guest that has just been made. -/
def ofSettings (s : Settings) : Host :=
  { settings := s, limiter := ⟨s.memoryLimit.toNat, Limiter.standardTableLimit, 0⟩ }

/-! ## Calls -/

/-- Begins a call. What is kept for another key is dropped; a call without key leaves it. -/
def beginCall (h : Host) (c : CallContext) : Host :=
  match c.key with
  | some key =>
    let cache := if h.cache.key = some key then h.cache else { key := some key }
    { h with call := some c, cache }
  | none => { h with call := some c }

/-- Ends the call and gives back its context, which is empty if there was no call. -/
def endCall (h : Host) : CallContext × Host :=
  (h.call.getD .empty, { h with call := none, scratch := [] })

/-- Drops what is kept for the cycle, and keeps the key of the call in flight. -/
def resetCycle (h : Host) : Host := { h with cache := { key := h.call.bind (·.key) } }

/-- Changes the call in flight, if there is one. -/
def modifyCall (h : Host) (f : CallContext → CallContext) : Host := { h with call := h.call.map f }

/-! ## What a guest may ask for -/

/-- Empties the buffer. -/
def clearScratch (h : Host) : Host := { h with scratch := [] }

/-- Puts the JSON of a value at the end of the buffer. -/
def serialize (h : Host) (v : Json) : Host := { h with scratch := h.scratch ++ Json.write v }

/-- The JSON of the call's pod. It is kept if the call's key is, else it goes through the buffer. -/
def podBytes (h : Host) : List UInt8 × Host :=
  match h.call with
  | none => ([], h)
  | some c =>
    match c.pod with
    | none => ([], h)
    | some pod =>
      if c.key.isSome && h.cache.key == c.key then
        match h.cache.pod with
        | some bytes => (bytes, h)
        | none =>
          let bytes := Json.write pod.toJson
          (bytes, { h with cache := { h.cache with pod := some bytes } })
      else
        let h := h.clearScratch.serialize pod.toJson
        (h.scratch, h)

/-- The JSON of the call's node, which goes through the buffer. -/
def nodeBytes (h : Host) : List UInt8 × Host :=
  let h := h.clearScratch
  let h := match h.call.bind (·.node) with
    | some info => h.serialize info.node.toJson
    | none => h
  (h.scratch, h)

/-- The name of the call's node. -/
def nodeNameBytes (h : Host) : List UInt8 :=
  match h.call.bind (·.nodeName) with
  | some name => Utf8.encode name
  | none => []

/-- The JSON of the call's scores, which goes through the buffer. -/
def nodeScoresBytes (h : Host) : List UInt8 × Host :=
  let h := h.clearScratch
  let h := match h.call.bind (·.nodeScores) with
    | some scores => h.serialize (NodeScore.listToJson scores)
    | none => h
  (h.scratch, h)

/-- The configuration of the guest. -/
def configBytes (h : Host) : List UInt8 :=
  match h.settings.guestConfig with
  | some text => Utf8.encode text
  | none => []

/-- The value that a question asks for. -/
def answer (h : Host) : Question → List UInt8 × Host
  | .pod => h.podBytes
  | .node => h.nodeBytes
  | .nodeName => (h.nodeNameBytes, h)
  | .nodeScores => h.nodeScoresBytes
  | .config => (h.configBytes, h)

/-! ## Output -/

/-- The transcript with one more exchange. -/
def note (h : Host) (e : Exchange) : Host := { h with transcript := h.transcript ++ [e] }

/-- The stream as captured so far. -/
def capture (h : Host) : Stream → Capture
  | .stdout => h.stdout
  | .stderr => h.stderr

/-- Captures bytes up to the capacity of a stream. -/
def print (h : Host) (s : Stream) (bytes : List UInt8) : Host :=
  let h := h.note (.printed s bytes)
  match s with
  | .stdout => { h with stdout := h.stdout.push bytes }
  | .stderr => { h with stderr := h.stderr.push bytes }

/-- What was captured, the standard output first, after which the streams are empty. -/
def takeDiagnostics (h : Host) : String × Host :=
  (Utf8.lossy h.stdout.bytes.toList ++ Utf8.lossy h.stderr.bytes.toList,
   { h with stdout := {}, stderr := {} })

/-- What the guest said since this was last asked. -/
def takeTranscript (h : Host) : Transcript × Host := (h.transcript, { h with transcript := [] })

end Host
end StageHost
