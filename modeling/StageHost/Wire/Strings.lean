import StageHost.Text.Utf8
/-
  Lists of texts: every text is followed by a zero byte, and empty texts are left out.
-/
namespace StageHost.Wire

/-- The bytes of a text and the zero byte after it; none for the empty text. -/
def stringEntry (s : String) : List UInt8 := if s.isEmpty then [] else Utf8.encode s ++ [0]

/-- The entries of some texts. -/
def encodeStrings (items : List String) : List UInt8 := items.flatMap stringEntry

/-- The pieces between the zero bytes, the unended last one included. -/
def splitAtZero : List UInt8 → List (List UInt8)
  | [] => [[]]
  | b :: rest =>
    if b = 0 then [] :: splitAtZero rest
    else
      match splitAtZero rest with
      | [] => [[b]]
      | piece :: pieces => (b :: piece) :: pieces

/-- The texts of the pieces that are not empty. -/
def decodeStrings (bytes : List UInt8) : List String :=
  ((splitAtZero bytes).filter (!·.isEmpty)).map Utf8.lossy

end StageHost.Wire
