import BootImage.TableCopy

/-!
# Where an image comes from, and where it ends up

There are four strategies, and two places for the result. An image linked into the bootloader, or
in a memory-mapped flash window, is used where it is. An image on a block medium is copied to the
start of the target region, from a known offset or from where a partition table says. Each strategy
checks the magic word of the image's header.
-/

namespace BootImage

open Attempt

/-- A strategy for acquiring an image. -/
inductive Source where
  /-- An image linked into the bootloader. -/
  | linked (image : Bytes)
  /-- A memory-mapped flash window that starts with the image. -/
  | mapped (window : Bytes)
  /-- A copy from a known offset. -/
  | copied (copy : BlockCopy)
  /-- A copy from a partition. -/
  | partitioned (copy : TableCopy)
  deriving DecidableEq

/-- Where an image is. -/
inductive Location where
  /-- It is resident outside the target region. -/
  | resident (place : Place) (image : Bytes)
  /-- It is the first bytes of the target region. -/
  | inTarget (length : Nat)
  deriving DecidableEq

namespace Location

/-- Which region has the image. -/
def place : Location → Place
  | resident place _ => place
  | inTarget _ => .target

/-- The bytes of the image, given what is in the target region. -/
def image {σ : Type} (target : Bytes) : Location → Attempt σ Bytes
  | resident _ image => pure image
  | inTarget length => cut target length

end Location

namespace Source

variable {σ δ : Type}

/-- An image linked into the bootloader, once its magic word is accepted. -/
def acquireLinked (image : Bytes) : Attempt σ Location := do
  let header ← ofExcept (Header.read image)
  header.requireMagic
  header.logDetails
  return .resident .payload image

/-- A memory-mapped flash window, once the magic word at its start is accepted. -/
def acquireMapped (window : Bytes) : Attempt σ Location := do
  log .checkingInPlace
  let header ← ofExcept (Header.read window)
  header.requireMagic
  return .resident .window window

/-- Acquires the image, copying it to the target region where that is the strategy. -/
def acquire [Device δ] : Source → Attempt (Workspace δ) Location
  | linked image => acquireLinked image
  | mapped window => acquireMapped window
  | copied copy => do
    let length ← copy.acquire
    return .inTarget length
  | partitioned copy => do
    let length ← copy.acquire
    return .inTarget length

end Source

end BootImage
