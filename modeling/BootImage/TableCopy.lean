import BootImage.BlockCopy
import BootImage.PartitionTable.Lookup

/-!
# Copying an image from a partition

The image starts where the partition starts. Where the table gives no partition, the copy is made
from the start of the card instead, so a failed lookup never ends an attempt.
-/

namespace BootImage

open Attempt

/-- A partition, by its type, that an image is copied from. -/
structure TableCopy where
  medium : BlockMedium
  partitionType : Guid
  deriving DecidableEq

namespace TableCopy

/-- The byte offset of a block, or 0 if it is no 64-bit offset. -/
def offsetOf (lba : UInt64) : UInt64 :=
  if lba.toNat * blockSize < UInt64.size then UInt64.ofNat (lba.toNat * blockSize) else 0

/-- The first block of what a lookup found, or the first of the card if it failed. -/
def firstLba {σ : Type} : Except Error Extent → Attempt σ UInt64
  | .ok extent => do
    log (.partitionFound extent.first extent.last)
    return extent.first
  | .error cause => do
    log (.lookupFailed cause)
    return 0

/-- Copies the image from the partition, or from the start of the card if there is none. -/
def acquire {δ : Type} [Device δ] (c : TableCopy) : Attempt (Workspace δ) Nat := do
  let found ← caught (Workspace.onDevice (findPartition c.medium c.partitionType))
  let lba ← firstLba found
  BlockCopy.acquire ⟨c.medium, offsetOf lba⟩

end TableCopy

end BootImage
