import BootImage.Selection.Fault
import BootImage.Wire.Config

/-!
# A boot medium as a stored value

A medium is stored in its wire form. Whatever follows it in the stored bytes is ignored. A malformed
index is told apart from bytes that end too early; an index of no medium is neither.
-/

namespace BootImage

/-- The error of a stored value whose bytes do not read. -/
def ValueError.ofWire : WireError → ValueError
  | .unexpectedEnd => .bufferTooSmall
  | .badVarint => .invalidFormat
  | .badBool | .badOption | .badUtf8 | .noValue => .custom 0

namespace BootMedium

/-- Writes a medium to the start of a buffer, and gives its length and the buffer. -/
def serializeInto (m : BootMedium) (buffer : Bytes) : Except ValueError (Nat × Bytes) :=
  let written := m.encode
  if written.length ≤ buffer.length then
    .ok (written.length, written ++ buffer.drop written.length)
  else .error .bufferTooSmall

/-- Reads a medium from the start of stored bytes. -/
def deserializeFrom (stored : Bytes) : Except ValueError BootMedium :=
  match BootMedium.reader.run stored with
  | .ok (m, _) => .ok m
  | .error e => .error (.ofWire e)

end BootMedium

end BootImage
