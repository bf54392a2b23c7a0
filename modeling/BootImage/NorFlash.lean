import BootImage.Device

/-!
# A NOR flash as the device for one medium

A flash driver reads at 32-bit offsets, has a capacity, and may ask for aligned reads. The adapter
turns such a driver into a device: reads of another medium are refused, and so is a read that does
not end within the capacity. Only the reads it permits (`NorDevice.permit`) reach the driver.
-/

namespace BootImage

/-- Why a flash refuses a read. -/
inductive FlashFault where
  /-- The read is not aligned as the driver asks. -/
  | notAligned
  /-- The read goes past the end of the flash. -/
  | outOfBounds
  /-- Any other reason. -/
  | other
  deriving DecidableEq, Repr

/-- The fault's name. -/
def FlashFault.name : FlashFault → String
  | notAligned => "NotAligned"
  | outOfBounds => "OutOfBounds"
  | other => "Other"

/-- A flash driver's answer to a read. -/
structure FlashAnswer (φ : Type) where
  /-- The fault, if the read failed. -/
  fault : Option FlashFault
  /-- What is now in the buffer. -/
  buffer : Bytes
  /-- The driver after the read. -/
  driver : φ

/-- A flash driver with states `φ`. -/
class FlashDriver (φ : Type) where
  /-- The number of bytes the driver says it has. -/
  capacity : φ → Nat
  /-- Reads as many bytes as the buffer has, from an offset on. -/
  read : φ → (offset : Nat) → (buffer : Bytes) → FlashAnswer φ
  /-- A buffer keeps its length. -/
  length_read : ∀ f offset buffer, (read f offset buffer).buffer.length = buffer.length

/-- A flash that serves one medium. -/
structure NorDevice (φ : Type) where
  medium : BlockMedium
  flash : φ

namespace NorDevice

variable {φ : Type} [FlashDriver φ]

/-- Whether a read may reach the driver: it is of the right medium, its offset has 32 bits, and it
ends within the capacity. -/
def permit (n : NorDevice φ) (medium : BlockMedium) (offset length : Nat) :
    Except FlashFault Unit :=
  if medium ≠ n.medium then .error .other
  else if UInt32.size ≤ offset then .error .outOfBounds
  else if FlashDriver.capacity n.flash < offset + length then .error .outOfBounds
  else .ok ()

/-- Reads through the driver what is permitted. -/
def read (n : NorDevice φ) (medium : BlockMedium) (offset : Nat) (buffer : Bytes) :
    FlashAnswer (NorDevice φ) :=
  match n.permit medium offset buffer.length with
  | .error fault => ⟨some fault, buffer, n⟩
  | .ok () =>
    let answer := FlashDriver.read n.flash offset buffer
    ⟨answer.fault, answer.buffer, { n with flash := answer.driver }⟩

/-- A read leaves a buffer of the same length. -/
theorem length_read (n : NorDevice φ) (medium : BlockMedium) (offset : Nat) (buffer : Bytes) :
    (n.read medium offset buffer).buffer.length = buffer.length := by
  unfold read
  split
  · rfl
  · exact FlashDriver.length_read _ _ _

/-- The words in which the device reports a fault of the flash. -/
def describe (fault : FlashFault) : String := "Flash(" ++ fault.name ++ ")"

instance : Device (NorDevice φ) where
  read n medium offset buffer :=
    let answer := n.read medium offset buffer
    ⟨answer.fault.map describe, answer.buffer, answer.driver⟩
  length_read := length_read

end NorDevice

end BootImage
