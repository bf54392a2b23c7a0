import BootImage.Attempt

/-!
# Devices: reading bytes from block media

A device is any state with a read operation. Nothing is assumed of its answers but that a buffer
keeps its length: a device may answer two equal reads differently, and a read that fails may leave
anything in the buffer.
-/

namespace BootImage

/-- A device's answer to a read. -/
structure ReadAnswer (δ : Type) where
  /-- The fault, in the device's own words, if the read failed. -/
  fault : Option String
  /-- What is now in the buffer. -/
  buffer : Bytes
  /-- The device after the read. -/
  device : δ

/-- A board, with states `δ`, that reads raw bytes from its media. -/
class Device (δ : Type) where
  /-- Reads as many bytes as the buffer has, from an offset on. -/
  read : δ → BlockMedium → (offset : Nat) → (buffer : Bytes) → ReadAnswer δ
  /-- A buffer keeps its length. -/
  length_read : ∀ d medium offset buffer,
    (read d medium offset buffer).buffer.length = buffer.length

namespace Device

variable {δ : Type} [Device δ]

/-- A read within an attempt: what is now in the buffer, and the fault if there is one. -/
def fetch (medium : BlockMedium) (offset : Nat) (buffer : Bytes) :
    Attempt δ (Bytes × Option String) := fun d =>
  let answer := read d medium offset buffer
  ⟨.ok (answer.buffer, answer.fault), [.read medium offset buffer.length], answer.device⟩

/-- A fetch is one read, and gives the fault on as a value. -/
@[simp] theorem run_fetch (medium : BlockMedium) (offset : Nat) (buffer : Bytes) (d : δ) :
    (fetch medium offset buffer).run d =
      ⟨.ok ((read d medium offset buffer).buffer, (read d medium offset buffer).fault),
        [.read medium offset buffer.length], (read d medium offset buffer).device⟩ := rfl

end Device

end BootImage
