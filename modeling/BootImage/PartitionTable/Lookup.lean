import BootImage.PartitionTable.Walk

/-!
# Looking a partition up

`findPartition` gives the extent of the first used entry of a type, if the table is sound.
-/

namespace BootImage

open Attempt

/-- The type of the partition that holds the boot image. -/
def bootPartitionType : Guid :=
  Guid.ofBytes [0x48, 0x61, 0x68, 0x21, 0x49, 0x64, 0x6f, 0x6e, 0x74, 0x4e, 0x65, 0x65, 0x64, 0x45,
    0x46, 0x49]

/-- The first and the last block of a partition. -/
structure Extent where
  first : UInt64
  last : UInt64
  deriving DecidableEq, Repr

/-- Keeps the extent of the first used entry of a type. -/
def Extent.keepFirst (partitionType : Guid) : Option Extent → PartitionEntry → Option Extent
  | some found, _ => some found
  | none, e =>
    if e.isUsed ∧ e.partitionType = partitionType then some ⟨e.firstLba, e.lastLba⟩ else none

/-- The extent of the first used partition of a type. -/
def findPartition {δ : Type} [Device δ] (medium : BlockMedium) (partitionType : Guid) :
    Attempt δ Extent := do
  let header ← TableHeader.read medium
  if ← header.check then do
    let ((), found) ← accumulating none
      (header.visitEntries medium (Extent.keepFirst partitionType))
    match found with
    | some extent => return extent
    | none => fail (.partitionLookup .notFound)
  else fail (.partitionLookup .header)

end BootImage
