import BootImage.Attempt

/-!
# Checks on a header

Three checks an attempt makes on a header it has read: is the magic word an accepted one, does the
stored checksum hold, and what is the checksum of the whole image. Only the first two decide
anything; the third is for the log.

The checksum of a header covers its bytes with the checksum field zeroed. The check therefore
zeroes the field of the header it is given and puts the stored value back before it ends.
-/

namespace BootImage.Header

open Attempt

variable {σ : Type}

/-- Logs the set name, the magic word and the claimed length. -/
def logDetails (h : Header) : Attempt σ Unit := do
  log (.setName h.setName)
  log (.magic h.magic)
  log (.claimedLength h.length)

/-- Whether the magic word is accepted; one that is not is logged. -/
def checkMagic (h : Header) : Attempt σ Bool :=
  if h.recognized then pure true
  else do
    log (.unknownMagic h.magic)
    return false

/-- Fails unless the magic word is accepted. -/
def requireMagic (h : Header) : Attempt σ Unit := do
  if ← h.checkMagic then pure () else fail (.magicMismatch h.magic)

/-- Whether the stored checksum is that of the header with the checksum field zeroed. The header is
left as it was. -/
def checkChecksum (crc : Checksum) : Attempt Header Bool := do
  let stored := (← get).checksum
  modify fun h => { h with checksum := 0 }
  let zeroed ← get
  let calculated ← checksumWith crc zeroed.bytes
  if calculated = stored then pure () else log (.headerMismatch calculated stored)
  modify fun h => { h with checksum := stored }
  return calculated == stored

/-- The checksum of as much of an image as its header claims and the image has. -/
def imageChecksum (h : Header) (crc : Checksum) (image : Bytes) : Attempt σ UInt32 := do
  let claimed := h.length.toNat
  let length := min claimed image.length
  if length < claimed then log (.shortImage claimed image.length) else pure ()
  checksumWith crc (← cut image length)

end BootImage.Header
