import Hosted.Category
import Hosted.Text.Utf8
import Hosted.Text.Utf16

/-!
# Transcoding

Conversion between UTF-8 and UTF-16. A conversion that fails names the position
up to which the input was well formed.
-/

namespace Hosted

/-- A conversion failed after `position` units of its input. -/
structure ConversionError where
  position : Nat
  deriving DecidableEq, Repr

def ConversionError.message (e : ConversionError) : String :=
  "invalid sequence at position " ++ toString e.position

/-- A converter that remembers the locale it was first made for. -/
structure Transcoder where
  localeName : String
  deriving DecidableEq, Repr

namespace Transcoder

/-- Made for the classic locale. -/
def isClassic (t : Transcoder) : Bool := isClassicName t.localeName

/-- No character takes more bytes than this. -/
def maxWidth : Nat := 4

/-- The UTF-16 form of UTF-8 text. -/
def toUtf16 (bytes : List UInt8) : Except ConversionError (List UInt16) :=
  match Utf8.decode bytes with
  | .ok text => .ok (Utf16.encode text)
  | .error position => .error ⟨position⟩

/-- The text of UTF-16 units. -/
def toText (units : List UInt16) : Except ConversionError (List Char) :=
  match Utf16.decode units with
  | .ok text => .ok text
  | .error position => .error ⟨position⟩

/-- The UTF-8 form of UTF-16 text. -/
def toUtf8 (units : List UInt16) : Except ConversionError (List UInt8) :=
  (toText units).map Utf8.encode

end Transcoder

end Hosted
