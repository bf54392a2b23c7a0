import BootImage.Guid

/-!
# The entries of a partition table

An entry takes the first 128 bytes of its slot in the entry array. An entry whose type is all zeros
stands for no partition.
-/

namespace BootImage

/-- An entry of a partition table, as its bytes. -/
structure PartitionEntry where
  bytes : Bytes
  /-- An entry has 128 bytes, however large its slot in the array is. -/
  length_bytes : bytes.length = 128
  deriving DecidableEq

namespace PartitionEntry

/-- The number of bytes of an entry. -/
def size : Nat := 128

/-- The entry at the start of a byte string, missing bytes counting as zero. -/
def ofBytes (bs : Bytes) : PartitionEntry := ⟨fit size bs, length_fit size bs⟩

/-- The type of the partition. -/
def partitionType (e : PartitionEntry) : Guid := Guid.ofBytes (e.bytes.take 16)

/-- The first block of the partition. -/
def firstLba (e : PartitionEntry) : UInt64 := word64 e.bytes 32

/-- The last block of the partition. -/
def lastLba (e : PartitionEntry) : UInt64 := word64 e.bytes 40

/-- Whether the entry stands for a partition: an unused entry has the type of all zeros. -/
def isUsed (e : PartitionEntry) : Bool := e.partitionType ≠ Guid.zero

end PartitionEntry

/-- The first `n` slots of a string of slots of one size. -/
def slots (slotSize : Nat) : Nat → Bytes → List Bytes
  | 0, _ => []
  | n + 1, bs => bs.take slotSize :: slots slotSize n (bs.drop slotSize)

end BootImage
