import BootImage.Device

/-!
# The header of a partition table

The header is in the second block of a card. It is accepted by its signature, by the block it says
it is in, and by its checksum, which covers the header's 92 bytes with the checksum field zeroed.
-/

namespace BootImage

open Attempt

/-- The size of a logical block. -/
def blockSize : Nat := 512

/-- The header of a partition table, as its bytes. -/
structure TableHeader where
  bytes : Bytes
  /-- A header has 92 bytes. -/
  length_bytes : bytes.length = 92
  deriving DecidableEq

namespace TableHeader

/-- The number of bytes of a header. -/
def size : Nat := 92

/-- The header at the start of a byte string, missing bytes counting as zero. -/
def ofBytes (bs : Bytes) : TableHeader := ⟨fit size bs, length_fit size bs⟩

/-- The eight bytes that every table starts with: EFI PART in ASCII. -/
def signature : Bytes := [0x45, 0x46, 0x49, 0x20, 0x50, 0x41, 0x52, 0x54]

/-- The checksum of the header with this field zeroed. -/
def checksum (h : TableHeader) : UInt32 := word32 h.bytes 16

/-- The block the header says it is in. -/
def ownLba (h : TableHeader) : UInt64 := word64 h.bytes 24

/-- The block where the entry array starts. -/
def entriesLba (h : TableHeader) : UInt64 := word64 h.bytes 72

/-- The number of entries. -/
def entryCount (h : TableHeader) : UInt32 := word32 h.bytes 80

/-- The size of an entry in bytes. -/
def entrySize (h : TableHeader) : UInt32 := word32 h.bytes 84

/-- The checksum of the entry array. -/
def entriesChecksum (h : TableHeader) : UInt32 := word32 h.bytes 88

/-- The header's bytes with the checksum field zeroed. -/
def zeroed (h : TableHeader) : Bytes := h.bytes.take 16 ++ [0, 0, 0, 0] ++ h.bytes.drop 20

/-- Whether this is the header of a primary table: signature, place and checksum are looked at in
this order, and the first that is wrong is logged. -/
def check {σ : Type} (h : TableHeader) : Attempt σ Bool :=
  if h.bytes.take 8 ≠ signature then do
    log .tableSignature
    return false
  else if h.ownLba ≠ 1 then do
    log (.tableMisplaced h.ownLba)
    return false
  else if Crc32.checksum h.zeroed ≠ h.checksum then do
    log .tableMismatch
    return false
  else pure true

/-- Reads the header of the primary table, which is in the second block. -/
def read {δ : Type} [Device δ] (medium : BlockMedium) : Attempt δ TableHeader := do
  let (block, fault) ← Device.fetch medium blockSize (List.replicate blockSize 0)
  match fault with
  | some fault => failWith (.tableUnreadable medium fault) (.partitionLookup .read)
  | none => do
    let bytes ← cut block size
    return ofBytes bytes

end TableHeader

end BootImage
