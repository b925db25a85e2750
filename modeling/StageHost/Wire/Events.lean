import StageHost.Event
import StageHost.Wire.Words
/-
  Lists of events as records of eight bytes: the kind of resource, then the actions.
  Records of an unknown kind are dropped, and so is an incomplete record at the end.
-/
namespace StageHost.Wire

/-- The record of an event. -/
def eventRecord (e : Event) : List UInt8 := word e.resource.toUInt32 ++ word e.actions.bits

/-- The records of some events. -/
def encodeEvents (events : List Event) : List UInt8 := events.flatMap eventRecord

/-- The event of a record, if its kind is known. -/
def event? (kind actions : UInt32) : Option Event :=
  (Resource.ofUInt32? kind).map (⟨·, ⟨actions⟩⟩)

/-- The events of some records. -/
def decodeEvents : List UInt8 → List Event
  | a :: b :: c :: d :: e :: f :: g :: h :: rest =>
    (event? (ofBytes a b c d) (ofBytes e f g h)).toList ++ decodeEvents rest
  | _ => []

end StageHost.Wire
