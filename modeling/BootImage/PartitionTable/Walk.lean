import BootImage.PartitionTable.Entry
import BootImage.PartitionTable.Header

/-!
# Walking the entries of a partition table

The entry array is read one block at a time, and the entries are handed to a visitor as they come
(`TableHeader.visitEntries`). Only after the last block is it known whether the array's checksum
holds; whatever the visitor collected is worthless when it does not. The checksum covers the slots
of the entries and nothing after the last of them.
-/

namespace BootImage

open Attempt

/-- The largest entry array that is searched: 128 entries of 128 bytes. -/
def entryArrayMax : Nat := 16384

/-- Where an entry array is and how it is laid out in blocks. -/
structure EntryArray where
  medium : BlockMedium
  /-- The size of an entry's slot. -/
  entrySize : Nat
  /-- The number of slots in a block. -/
  perBlock : Nat

variable {δ ω : Type}

/-- Hands the entry at the start of each slot to the visitor, in order. -/
def visitSlots (visit : ω → PartitionEntry → ω) : List Bytes → Attempt (δ × ω) Unit
  | [] => pure ()
  | slot :: rest => do
    let bytes ← cut slot PartitionEntry.size
    modify fun s => (s.1, visit s.2 (PartitionEntry.ofBytes bytes))
    visitSlots visit rest

/-- The offset of the block after the one at `offset`, if it is still a 64-bit offset. -/
def nextBlock {σ : Type} (offset : Nat) : Attempt σ Nat :=
  if offset + blockSize < UInt64.size then pure (offset + blockSize)
  else fail (.partitionLookup .entries)

variable [Device δ]

/-- Reads the given number of blocks, and hands on the entries that remain in them. `register` is
that of the checksum of the entries so far, and `buffer` is what the last read left. -/
def EntryArray.walk (array : EntryArray) (visit : ω → PartitionEntry → ω) :
    (blocks remaining offset : Nat) → (register : UInt32) → (buffer : Bytes) →
      Attempt (δ × ω) UInt32
  | 0, _, _, register, _ => pure register
  | blocks + 1, remaining, offset, register, buffer => do
    let (block, fault) ← Attempt.on Prod.fst (fun s d => (d, s.2))
      (Device.fetch array.medium offset buffer)
    match fault with
    | some fault => failWith (.entriesUnreadable offset fault) (.partitionLookup .read)
    | none => do
      let count := min array.perBlock remaining
      let used ← cut block (← word (count * array.entrySize))
      visitSlots visit (slots array.entrySize count used)
      let remaining ← difference remaining count
      let next ← nextBlock offset
      EntryArray.walk array visit blocks remaining next (Crc32.update register used) block

/-- The sizes an entry's slot may have. -/
def TableHeader.hasEntryLayout (h : TableHeader) : Bool :=
  h.entrySize == 128 || h.entrySize == 256 || h.entrySize == 512

/-- Hands every entry of the array to the visitor, and fails unless the array's checksum holds. -/
def TableHeader.visitEntries (h : TableHeader) (medium : BlockMedium)
    (visit : ω → PartitionEntry → ω) : Attempt (δ × ω) Unit := do
  if h.hasEntryLayout then pure () else failWith .entryLayout (.partitionLookup .entries)
  let count := h.entryCount.toNat
  let entrySize := h.entrySize.toNat
  let length ← word (count * entrySize)
  if length ≤ entryArrayMax then pure ()
  else failWith (.entryArrayTooLarge length) (.partitionLookup .entries)
  let start := h.entriesLba.toNat * blockSize
  if start < UInt64.size then pure () else fail (.partitionLookup .entries)
  let perBlock ← quotient blockSize entrySize
  let blocks := (length + (blockSize - 1)) / blockSize
  let register ← EntryArray.walk ⟨medium, entrySize, perBlock⟩ visit blocks count start Crc32.start
    (List.replicate blockSize 0)
  if Crc32.finish register = h.entriesChecksum then pure ()
  else failWith .entriesMismatch (.partitionLookup .entries)

end BootImage
