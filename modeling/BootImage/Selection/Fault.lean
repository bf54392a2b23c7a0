/-!
# Why a stored selection cannot be read or written
-/

namespace BootImage

/-- Why bytes do not stand for a value, or a value does not fit its bytes. -/
inductive ValueError where
  /-- The bytes end before the value does, or are too few to write it. -/
  | bufferTooSmall
  /-- The bytes are malformed. -/
  | invalidFormat
  /-- Any other reason, by a number. -/
  | custom (code : Nat)
  deriving DecidableEq, Repr

/-- Why the store of the selection refuses an operation. -/
inductive StoreFault where
  /-- The flash refused a read or a write. -/
  | flash
  /-- The stored bytes do not decode. -/
  | undecodable (cause : ValueError)
  deriving DecidableEq, Repr

/-- The error's name in messages. -/
def ValueError.name : ValueError → String
  | bufferTooSmall => "BufferTooSmall"
  | invalidFormat => "InvalidFormat"
  | custom code => "Custom(" ++ toString code ++ ")"

/-- The fault's description in messages. -/
def StoreFault.description : StoreFault → String
  | flash => "Storage \x7b value: Other \x7d"
  | undecodable cause => "SerializationError(" ++ cause.name ++ ")"

end BootImage
