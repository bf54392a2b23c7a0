import BootImage.Bench.FlashImage
import BootImage.Bench.Media

/-!
# Boards

The media of a board whose contents are known: block media in memory, or one flash behind its
driver.
-/

namespace BootImage.Bench

/-- A board's media: contents in memory, or one flash behind its driver. -/
inductive Board where
  | media (media : Media)
  | nor (device : NorDevice FlashImage)

namespace Board

/-- Reads from whichever it is. -/
def read : Board → BlockMedium → Nat → Bytes → ReadAnswer Board
  | media m, medium, offset, buffer =>
    let answer := Device.read m medium offset buffer
    ⟨answer.fault, answer.buffer, media answer.device⟩
  | nor n, medium, offset, buffer =>
    let answer := Device.read n medium offset buffer
    ⟨answer.fault, answer.buffer, nor answer.device⟩

instance : Device Board where
  read := read
  length_read b medium offset buffer := by
    cases b with
    | media m => exact Device.length_read m medium offset buffer
    | nor n => exact Device.length_read n medium offset buffer

/-- The reads that reached a flash driver; none if there is no flash. -/
def flashReads : Board → List (Nat × Nat)
  | media _ => []
  | nor n => n.flash.reads

/-- Whether there is a flash driver. -/
def hasFlash : Board → Bool
  | media _ => false
  | nor _ => true

/-- Puts a medium in, or takes it out; a flash stays as it is. -/
def setMedium (b : Board) (medium : BlockMedium) (content : Option Bytes) : Board :=
  match b with
  | media m => media (m.set medium content)
  | nor n => nor n

end Board

end BootImage.Bench
