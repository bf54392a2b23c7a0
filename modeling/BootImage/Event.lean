import BootImage.Crc32
import BootImage.Launch
import BootImage.Message

/-!
# What a boot attempt does

The trace of an attempt is the list of its events, in order: the messages it logged, the reads it
made, and its calls to decompressor, checksum and launcher. A question about one kind of event is
asked of the trace with the others left out (`Event.message?`, `Event.read?` and so on).
-/

namespace BootImage

/-- Where a registered image is. -/
inductive Place where
  /-- In the image linked into the bootloader. -/
  | payload
  /-- In the memory-mapped flash window. -/
  | window
  /-- At the start of the target region. -/
  | target
  deriving DecidableEq, Repr

/-- Something an attempt did that can be seen from outside. -/
inductive Event where
  /-- A message was logged. -/
  | logged (message : Message)
  /-- The device was asked for bytes. -/
  | read (medium : BlockMedium) (offset length : Nat)
  /-- The decompressor was called, with this much room for its output. -/
  | unpack (input : Bytes) (room : Nat)
  /-- The checksum primitive was called. -/
  | checksum (input : Bytes) (value : UInt32)
  /-- An image was registered with the launcher. -/
  | register (place : Place) (image : Bytes)
  /-- The launcher was asked to start the image. -/
  | launch (call : LaunchCall)
  deriving DecidableEq

namespace Event

/-- The message of an event that is one. -/
def message? : Event → Option Message
  | logged message => some message
  | _ => none

/-- The stages before and after, of an event that says of a change of stage. -/
def change? : Event → Option (Stage × Stage)
  | logged (.stage old new) => some (old, new)
  | _ => none

/-- The medium, offset and length of an event that is a read. -/
def read? : Event → Option (BlockMedium × Nat × Nat)
  | read medium offset length => some (medium, offset, length)
  | _ => none

/-- The input and the room of an event that is a decompressor's call. -/
def unpack? : Event → Option (Bytes × Nat)
  | unpack input room => some (input, room)
  | _ => none

/-- The input and the value of an event that is a checksum. -/
def checksum? : Event → Option (Bytes × UInt32)
  | checksum input value => some (input, value)
  | _ => none

/-- Whether an event is a call to the launcher. -/
def isLaunch : Event → Bool
  | register _ _ | launch _ => true
  | _ => false

variable {e : Event}

/-- Only a message about a change of stage says of one. -/
theorem change?_eq_some {old new : Stage} :
    e.change? = some (old, new) ↔ e = .logged (.stage old new) := by
  constructor
  · intro h
    unfold change? at h
    split at h
    · cases h
      rfl
    · cases h
  · rintro rfl
    rfl

/-- Only a read has a medium, an offset and a length. -/
theorem read?_eq_some {medium : BlockMedium} {offset length : Nat} :
    e.read? = some (medium, offset, length) ↔ e = .read medium offset length := by
  cases e <;> simp [read?]

/-- Only a call of the decompressor has an input and a room. -/
theorem unpack?_eq_some {input : Bytes} {room : Nat} :
    e.unpack? = some (input, room) ↔ e = .unpack input room := by
  cases e <;> simp [unpack?]

/-- Only a checksum has an input and a value. -/
theorem checksum?_eq_some {input : Bytes} {value : UInt32} :
    e.checksum? = some (input, value) ↔ e = .checksum input value := by
  cases e <;> simp [checksum?]

/-- The calls to the launcher are registrations and starts. -/
theorem isLaunch_iff : e.isLaunch = true ↔
    (∃ place image, e = .register place image) ∨ ∃ call, e = .launch call := by
  cases e <;> simp [isLaunch]

end Event

end BootImage
