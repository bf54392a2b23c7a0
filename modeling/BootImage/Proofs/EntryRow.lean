import BootImage.Proofs.CopyAnswers
import BootImage.Proofs.Lookup

/-!
# A visit in blocks is a visit of the array as a whole

A visit of an entry array reads a block, takes its slots into the checksum, hands its entries on,
and only then reads the next block. The same is said here without a loop over entries. A device is
asked for a row of blocks, as many as are needed, and what they hold is one string of bytes. Entries
are cut out of that string by their places in it, and the checksum is that of its first bytes.

* `Device.readRow` — a row of blocks, as far as they can be read, and why the row ends there
  (`RowEnd`). What can be said of every row is `Device.endsSoundly_readRow`.
* `EntryArray.run_walk_eq` — a walk gives the checksum of a row, makes its reads, and visits its
  entries (`EntryArray.walked`), by induction on the blocks that are left. One block of this is
  `EntryArray.walked_cons`.
* `TableHeader.run_visitEntries_eq` — so a visit is the checks on the header, the walk over a row,
  and the comparison of two checksums.
* `TableHeader.visitEntries_walks_row` — what this comes to, for any header and any device.
-/

namespace BootImage

open Attempt

variable {δ ω : Type}

/-! ### Rows of blocks -/

/-- The reads of consecutive blocks, from the block `first` on. -/
def blockReads (medium : BlockMedium) (first count : Nat) : List (BlockMedium × Nat × Nat) :=
  (List.range' first count).map fun block => (medium, block * blockSize, blockSize)

/-- The first of the reads comes before those from the next block on. -/
theorem blockReads_succ (medium : BlockMedium) (first count : Nat) :
    blockReads medium first (count + 1) =
      (medium, first * blockSize, blockSize) :: blockReads medium (first + 1) count := by
  simp [blockReads, List.range'_succ]

/-- There is one read for each block. -/
@[simp] theorem length_blockReads (medium : BlockMedium) (first count : Nat) :
    (blockReads medium first count).length = count := by
  simp [blockReads]

/-- Why a row of blocks ends. -/
inductive RowEnd where
  /-- All of its blocks were read. -/
  | complete
  /-- The block at this offset could not be read. -/
  | unreadable (offset : Nat) (fault : String)
  /-- The offset after the last block is no 64-bit offset. -/
  | pastOffsets
  deriving DecidableEq, Repr

namespace RowEnd

/-- What is logged of an end. -/
def report : RowEnd → List Event
  | unreadable offset fault => [.logged (.entriesUnreadable offset fault)]
  | complete | pastOffsets => []

/-- What a walk over a row comes to, given its value if the row is complete. -/
def result {α : Type} (value : α) : RowEnd → Except Stop α
  | complete => .ok value
  | unreadable _ _ => .error (.failed (.partitionLookup .read))
  | pastOffsets => .error (.failed (.partitionLookup .entries))

end RowEnd

/-- Consecutive blocks, as far as they can be read. -/
structure BlockRow (δ : Type) where
  /-- The bytes of the blocks that were read, one block after another. -/
  content : Bytes
  /-- The number of reads, the one that failed among them. -/
  reads : Nat
  /-- Why there are no more. -/
  ending : RowEnd
  /-- The device after the last read. -/
  device : δ

namespace BlockRow

/-- What a row of `count` blocks from the block `first` on can be. -/
structure EndsSoundly (first count : Nat) (row : BlockRow δ) : Prop where
  reads_le : row.reads ≤ count
  /-- A row that is complete has all of its blocks. -/
  complete : row.ending = .complete →
    row.reads = count ∧ row.content.length = count * blockSize
  /-- It was the last read that failed, and it gave no block. -/
  unreadable : ∀ offset fault, row.ending = .unreadable offset fault →
    ∃ before, row.reads = before + 1 ∧ row.content.length = before * blockSize ∧
      offset = (first + before) * blockSize
  /-- All reads gave a block, and there is no offset for the next. -/
  pastOffsets : row.ending = .pastOffsets → row.content.length = row.reads * blockSize ∧
    UInt64.size ≤ (first + row.reads) * blockSize

/-- The row with one more block, and its read, in front. -/
def cons (block : Bytes) (row : BlockRow δ) : BlockRow δ :=
  { row with content := block ++ row.content, reads := row.reads + 1 }

section cons

variable {first count : Nat} {block : Bytes} {row : BlockRow δ}

/-- One block more is that many bytes more. -/
theorem length_content_cons (hblock : block.length = blockSize) {n : Nat}
    (h : row.content.length = n * blockSize) :
    (row.cons block).content.length = (n + 1) * blockSize := by
  rw [cons, List.length_append, hblock, h, Nat.succ_mul, Nat.add_comm]

/-- A row that ends soundly does so with one more block in front. -/
theorem EndsSoundly.cons (h : row.EndsSoundly (first + 1) count)
    (hblock : block.length = blockSize) : (row.cons block).EndsSoundly first (count + 1) where
  reads_le := Nat.succ_le_succ h.reads_le
  complete := by
    intro hend
    obtain ⟨hreads, hlen⟩ := h.complete hend
    exact ⟨congrArg (· + 1) hreads, length_content_cons hblock hlen⟩
  unreadable := by
    intro offset fault hend
    obtain ⟨before, hreads, hlen, rfl⟩ := h.unreadable offset fault hend
    refine ⟨before + 1, congrArg (· + 1) hreads, length_content_cons hblock hlen, ?_⟩
    rw [Nat.add_right_comm, Nat.add_assoc]
  pastOffsets := by
    intro hend
    obtain ⟨hlen, hpast⟩ := h.pastOffsets hend
    refine ⟨length_content_cons hblock hlen, ?_⟩
    rwa [BlockRow.cons, ← Nat.add_assoc, Nat.add_right_comm]

end cons

/-- The reads of a row, and what is logged of its end. -/
def trace (medium : BlockMedium) (first : Nat) (row : BlockRow δ) : List Event :=
  (blockReads medium first row.reads).map (fun read => .read read.1 read.2.1 read.2.2) ++
    row.ending.report

/-- The read of the block in front comes first. -/
theorem trace_cons (medium : BlockMedium) (first : Nat) (block : Bytes) (row : BlockRow δ) :
    (row.cons block).trace medium first =
      .read medium (first * blockSize) blockSize :: row.trace medium (first + 1) := by
  simp [trace, cons, blockReads_succ]

/-- The reads of a row are those of its blocks in order. -/
theorem reads_trace (medium : BlockMedium) (first : Nat) (row : BlockRow δ) :
    (row.trace medium first).filterMap Event.read? = blockReads medium first row.reads := by
  have hread : ∀ read : BlockMedium × Nat × Nat,
      Event.read? (.read read.1 read.2.1 read.2.2) = some read := fun _ => rfl
  have hreport : row.ending.report.filterMap Event.read? = [] := by
    cases row.ending with
    | complete => rfl
    | unreadable offset fault => rfl
    | pastOffsets => rfl
  rw [trace, List.filterMap_append, hreport, List.append_nil, List.filterMap_map]
  simp only [Function.comp_def, hread, List.filterMap_some]

end BlockRow

/-! ### The entries of a row -/

/-- The slots that lie in the first of two strings are slots of it. -/
theorem slots_append_left {slotSize n : Nat} {bs : Bytes} (hwithin : n * slotSize ≤ bs.length)
    (more : Bytes) : slots slotSize n (bs ++ more) = slots slotSize n bs := by
  rw [← slots_take hwithin, List.take_left]

namespace EntryArray

variable {array : EntryArray} {block : Bytes}

/-- The entries that lie in a content, if this many are left. -/
def entriesOf (array : EntryArray) (remaining : Nat) (content : Bytes) : List PartitionEntry :=
  (slots array.entrySize (min remaining (content.length / array.entrySize)) content).map .ofSlot

/-- There are no entries in no bytes. -/
theorem entriesOf_nil (remaining : Nat) : array.entriesOf remaining [] = [] := by
  simp [entriesOf, slots]

/-- The entries that a block holds, if this many are left. -/
def entriesIn (array : EntryArray) (remaining : Nat) (block : Bytes) : List PartitionEntry :=
  (slots array.entrySize (array.used remaining)
    (block.take (array.used remaining * array.entrySize))).map .ofSlot

section block

variable (hfills : array.Fills) (hblock : block.length = blockSize) (remaining : Nat) (rest : Bytes)

include hfills hblock

/-- Either a block is used in full, or what is left lies in it. -/
theorem Fills.used_cases :
    array.used remaining = array.perBlock ∧ array.perBlock ≤ remaining ∧
        array.perBlock * array.entrySize = block.length ∨
      array.used remaining = remaining ∧ remaining ≤ array.perBlock ∧
        remaining * array.entrySize ≤ block.length := by
  rcases Nat.le_total array.perBlock remaining with hfull | hlast
  · exact .inl ⟨Nat.min_eq_left hfull, hfull, hfills.full.trans hblock.symm⟩
  · have hused : array.used remaining = remaining := Nat.min_eq_right hlast
    have hwithin := hfills.used_le remaining
    rw [hused, ← hblock] at hwithin
    exact .inr ⟨hused, hlast, hwithin⟩

/-- The entries of a block and what follows it are those of the block and those of what follows. -/
theorem entriesOf_append : array.entriesOf remaining (block ++ rest) =
    array.entriesIn remaining block ++
      array.entriesOf (remaining - array.used remaining) rest := by
  have hsize : 0 < array.entrySize := Nat.zero_lt_of_lt hfills.entry
  have hcount : (block ++ rest).length / array.entrySize =
      array.perBlock + rest.length / array.entrySize := by
    rw [List.length_append, hblock, ← hfills.full, Nat.mul_comm, Nat.mul_add_div hsize]
  unfold entriesOf entriesIn
  rw [hcount, slots_take (Nat.le_refl _), ← List.map_append]
  generalize rest.length / array.entrySize = more
  apply congrArg
  obtain ⟨hused, hfull, hlength⟩ | ⟨hused, hlast, hwithin⟩ := hfills.used_cases hblock remaining
  · have hmin : min remaining (array.perBlock + more) =
        array.perBlock + min (remaining - array.perBlock) more := by omega
    rw [hused, hmin, slots_append, slots_append_left (Nat.le_of_eq hlength), hlength,
      List.drop_left]
  · have hmin : min remaining (array.perBlock + more) = remaining := by omega
    rw [hused, hmin, slots_append_left hwithin, Nat.sub_self, Nat.zero_min]
    exact (List.append_nil _).symm

/-- The bytes of the slots that are left are those used of the block and those in what follows. -/
theorem take_append : (block ++ rest).take (remaining * array.entrySize) =
    block.take (array.used remaining * array.entrySize) ++
      rest.take ((remaining - array.used remaining) * array.entrySize) := by
  obtain ⟨hused, hfull, hlength⟩ | ⟨hused, -, hwithin⟩ := hfills.used_cases hblock remaining
  · have hcovered : block.length ≤ remaining * array.entrySize := by
      rw [← hlength]
      exact Nat.mul_le_mul_right _ hfull
    rw [List.take_append, hused, Nat.sub_mul, hlength, List.take_length,
      List.take_of_length_le hcovered]
  · rw [hused, List.take_append_of_le_length hwithin, Nat.sub_self, Nat.zero_mul, List.take_zero,
      List.append_nil]

end block

/-- What a walk comes to, given the row of its blocks. -/
def walked (array : EntryArray) (visit : ω → PartitionEntry → ω) (first remaining : Nat)
    (register : UInt32) (collected : ω) (row : BlockRow δ) : Ran (δ × ω) UInt32 :=
  ⟨row.ending.result (Crc32.update register (row.content.take (remaining * array.entrySize))),
    row.trace array.medium first,
    (row.device, (array.entriesOf remaining row.content).foldl visit collected)⟩

/-- A walk over a row takes in and visits what is used of its first block, and goes on with the
others. -/
theorem walked_cons (hfills : array.Fills) (visit : ω → PartitionEntry → ω) (first remaining : Nat)
    (register : UInt32) (collected : ω) (hblock : block.length = blockSize) (row : BlockRow δ) :
    array.walked visit first remaining register collected (row.cons block) =
      let rest := array.walked visit (first + 1) (remaining - array.used remaining)
        (Crc32.update register (block.take (array.used remaining * array.entrySize)))
        ((array.entriesIn remaining block).foldl visit collected) row
      ⟨rest.result, .read array.medium (first * blockSize) blockSize :: rest.trace,
        rest.state⟩ := by
  simp only [walked, BlockRow.trace_cons]
  simp only [BlockRow.cons, entriesOf_append hfills hblock, List.foldl_append,
    take_append hfills hblock, Crc32.update_append]

/-- The walk over a row without blocks. -/
theorem walked_nil (visit : ω → PartitionEntry → ω) (first remaining : Nat) (register : UInt32)
    (collected : ω) (ending : RowEnd) (d : δ) :
    array.walked visit first remaining register collected ⟨[], 0, ending, d⟩ =
      ⟨ending.result register, ending.report, (d, collected)⟩ := by
  simp [walked, BlockRow.trace, blockReads, entriesOf_nil]

end EntryArray

variable [Device δ]

namespace Device

/-- Reads blocks one after another, from the block `first` on, until there are `count` of them or
one cannot be read or there is no offset after it. -/
def readRow (medium : BlockMedium) : (count first : Nat) → (buffer : Bytes) → δ → BlockRow δ
  | 0, _, _, d => ⟨[], 0, .complete, d⟩
  | count + 1, first, buffer, d =>
    let answer := read d medium (first * blockSize) buffer
    match answer.fault with
    | some fault => ⟨[], 1, .unreadable (first * blockSize) fault, answer.device⟩
    | none =>
      (if (first + 1) * blockSize < UInt64.size then
        readRow medium count (first + 1) answer.buffer answer.device
      else ⟨[], 0, .pastOffsets, answer.device⟩).cons answer.buffer

/-- **Every row ends in one of three ways**, by induction on its blocks. -/
theorem endsSoundly_readRow (medium : BlockMedium) (count : Nat) {first : Nat} {buffer : Bytes}
    (hbuffer : buffer.length = blockSize) (d : δ) :
    (readRow medium count first buffer d).EndsSoundly first count := by
  induction count generalizing first buffer d with
  | zero =>
    exact ⟨Nat.le_refl 0, fun _ => ⟨rfl, (Nat.zero_mul _).symm⟩, fun _ _ => nofun, nofun⟩
  | succ count ih =>
    have hblock := (length_read d medium (first * blockSize) buffer).trans hbuffer
    rw [readRow]
    generalize read d medium (first * blockSize) buffer = answer at hblock ⊢
    obtain ⟨_ | fault, block, d'⟩ := answer
    · refine BlockRow.EndsSoundly.cons ?_ hblock
      split_ifs with hnext
      · exact ih hblock d'
      · exact ⟨Nat.zero_le _, nofun, fun _ _ => nofun,
          fun _ => ⟨(Nat.zero_mul _).symm, Nat.le_of_not_lt hnext⟩⟩
    · refine ⟨Nat.le_add_left 1 count, nofun, ?_, nofun⟩
      rintro offset fault' ⟨⟩
      exact ⟨0, rfl, (Nat.zero_mul _).symm, rfl⟩

end Device

/-! ### The walk -/

/-- **A walk in blocks is a walk over the row of its blocks**, by induction on how many are left:
the checksum is that of one string, and the entries visited are those of one string. -/
theorem EntryArray.run_walk_eq {array : EntryArray} (hfills : array.Fills)
    (visit : ω → PartitionEntry → ω) (blocks : Nat) {remaining first : Nat} {register : UInt32}
    {buffer : Bytes} (hbuffer : buffer.length = blockSize) (s : δ × ω) :
    (array.walk visit blocks remaining (first * blockSize) register buffer).run s =
      array.walked visit first remaining register s.2
        (Device.readRow array.medium blocks first buffer s.1) := by
  induction blocks generalizing remaining first register buffer s with
  | zero =>
    rw [Device.readRow, walked_nil]
    rfl
  | succ blocks ih =>
    have hblock := (Device.length_read s.1 array.medium (first * blockSize) buffer).trans hbuffer
    have hoffset : (first + 1) * blockSize = first * blockSize + blockSize := Nat.succ_mul ..
    rw [run_walk_succ hfills.toFits blocks remaining _ register hbuffer, continueWith_ok,
      Device.readRow]
    generalize Device.read s.1 array.medium (first * blockSize) buffer = answer at hblock ⊢
    obtain ⟨_ | fault, block, d⟩ := answer
    · dsimp only
      rw [walked_cons hfills visit first remaining register s.2 hblock, nextBlock, ← hoffset]
      split_ifs with hnext
      · simp only [run_bind, run_modify, continueWith_ok, run_pure, List.nil_append, ih hblock]
        rfl
      · rw [walked_nil]
        rfl
    · simp [walked, entriesOf_nil, RowEnd.result, BlockRow.trace, RowEnd.report, blockReads]

/-! ### The visit -/

namespace TableHeader

variable (h : TableHeader)

/-- A header whose entry array is walked. -/
structure Walkable : Prop where
  size : h.entrySize.toNat = 128 ∨ h.entrySize.toNat = 256 ∨ h.entrySize.toNat = 512
  length : h.entryCount.toNat * h.entrySize.toNat ≤ 16384
  start : h.entriesLba.toNat * 512 < UInt64.size

/-- The number of blocks that the entry array is in. -/
def arrayBlocks : Nat := (h.entryCount.toNat * h.entrySize.toNat + 511) / 512

/-- The row of blocks that the entry array is in. -/
def row (medium : BlockMedium) (d : δ) : BlockRow δ :=
  Device.readRow medium h.arrayBlocks h.entriesLba.toNat (List.replicate blockSize 0) d

/-- The entry in a slot of a content. -/
def entryAt (content : Bytes) (i : Nat) : PartitionEntry :=
  .ofSlot ((content.drop (i * h.entrySize.toNat)).take h.entrySize.toNat)

/-- The entries of the array that lie in a content. -/
def entriesIn (content : Bytes) : List PartitionEntry :=
  (List.range (min h.entryCount.toNat (content.length / h.entrySize.toNat))).map (h.entryAt content)

/-- What a visit comes to once all of the array is there. -/
def verdict (content : Bytes) : Except Stop Unit :=
  if Crc32.checksum (content.take (h.entryCount.toNat * h.entrySize.toNat)) = h.entriesChecksum
  then .ok () else .error (.failed (.partitionLookup .entries))

variable {h}

/-- An array is walked if its layout is known, it is not too long and its start can be addressed. -/
theorem walkable_iff : h.Walkable ↔ h.hasEntryLayout = true ∧ h.arrayLength ≤ entryArrayMax ∧
    h.entriesLba.toNat * blockSize < UInt64.size := by
  have hsize : h.hasEntryLayout = true ↔
      h.entrySize.toNat = 128 ∨ h.entrySize.toNat = 256 ∨ h.entrySize.toNat = 512 := by
    simp [hasEntryLayout, ← UInt32.toNat_inj, or_assoc]
  rw [hsize]
  constructor
  · intro hwalk
    exact ⟨hwalk.size, hwalk.length, hwalk.start⟩
  · rintro ⟨hsize, hlength, hstart⟩
    exact ⟨hsize, hlength, hstart⟩

/-- An accepted entry array takes 32 blocks at most. -/
theorem arrayBlocks_le (hwalk : h.Walkable) : h.arrayBlocks ≤ 32 := by
  have hlength := hwalk.length
  unfold arrayBlocks
  omega

/-- Its entries then have a size. -/
theorem Walkable.size_pos (hwalk : h.Walkable) : 0 < h.entrySize.toNat := by
  have := hwalk.size
  omega

/-- An entry whose slot lies in a content is the first 128 bytes of the slot. -/
theorem entryAt_eq_iff (hwalk : h.Walkable) {content : Bytes} {i : Nat}
    (hwithin : (i + 1) * h.entrySize.toNat ≤ content.length) {e : PartitionEntry} :
    h.entryAt content i = e ↔
      e.bytes = ((content.drop (i * h.entrySize.toNat)).take h.entrySize.toNat).take 128 := by
  have hslot : i * h.entrySize.toNat + h.entrySize.toNat ≤ content.length := by
    rwa [← Nat.succ_mul]
  have hsize : 128 ≤ h.entrySize.toNat := by
    have := hwalk.size
    omega
  have hbytes : (h.entryAt content i).bytes =
      ((content.drop (i * h.entrySize.toNat)).take h.entrySize.toNat).take 128 := by
    apply fit_of_length
    rw [List.length_take, length_window hslot]
    exact Nat.min_eq_left hsize
  rw [← hbytes]
  constructor
  · rintro rfl
    rfl
  · intro he
    obtain ⟨bytes, hlen⟩ := e
    obtain rfl : bytes = (h.entryAt content i).bytes := he
    rfl

/-- The entries of a content are those whose slots lie in it. -/
theorem getElem?_entriesIn (hwalk : h.Walkable) {content : Bytes} {i : Nat} {e : PartitionEntry} :
    (h.entriesIn content)[i]? = some e ↔ i < h.entryCount.toNat ∧
      (i + 1) * h.entrySize.toNat ≤ content.length ∧
        e.bytes = ((content.drop (i * h.entrySize.toNat)).take h.entrySize.toNat).take 128 := by
  have hslot : i < content.length / h.entrySize.toNat ↔
      (i + 1) * h.entrySize.toNat ≤ content.length := Nat.le_div_iff_mul_le hwalk.size_pos
  have hsame : ((i + 1) * h.entrySize.toNat ≤ content.length ∧
        e.bytes = ((content.drop (i * h.entrySize.toNat)).take h.entrySize.toNat).take 128) ↔
      (i + 1) * h.entrySize.toNat ≤ content.length ∧ h.entryAt content i = e :=
    and_congr_right fun hwithin => (entryAt_eq_iff hwalk hwithin).symm
  rw [hsame, entriesIn, List.getElem?_map, Option.map_eq_some_iff, ← hslot, ← and_assoc,
    ← Nat.lt_min]
  simp [List.getElem?_eq_some_iff]

/-- The entries of the array are those of the table. -/
theorem entriesOf_array (medium : BlockMedium) (content : Bytes) :
    (h.array medium).entriesOf h.entryCount.toNat content = h.entriesIn content := by
  rw [EntryArray.entriesOf, slots_eq_map, List.map_map]
  rfl

variable {medium : BlockMedium} (visit : ω → PartitionEntry → ω)

/-- The row of an entry array ends as every row does. -/
theorem endsSoundly_row (h : TableHeader) (medium : BlockMedium) (d : δ) :
    (h.row medium d).EndsSoundly h.entriesLba.toNat h.arrayBlocks :=
  Device.endsSoundly_readRow medium _ (List.length_replicate ..) d

/-- **A visit is the walk over a row, and the comparison of two checksums.** -/
theorem run_visitEntries_eq (hwalk : h.Walkable) (s : δ × ω) :
    (h.visitEntries medium visit).run s =
      continueWith ((h.array medium).walked visit h.entriesLba.toNat h.entryCount.toNat
        Crc32.start s.2 (h.row medium s.1)) fun register =>
          if Crc32.finish register = h.entriesChecksum then pure ()
          else failWith .entriesMismatch (.partitionLookup .entries) := by
  obtain ⟨hlayout, hlength, hstart⟩ := walkable_iff.mp hwalk
  rw [visitEntries_eq, if_pos hlayout, if_pos hlength, if_pos hstart, run_bind, walk,
    EntryArray.run_walk_eq (fills_array hlayout medium) visit _ (List.length_replicate ..)]
  rfl

/-- The parts of a visit. -/
theorem visitEntries_of_walkable (hwalk : h.Walkable) (s : δ × ω) :
    ((h.visitEntries medium visit).run s).result =
        ((h.row medium s.1).ending.result ()).bind (fun _ => h.verdict (h.row medium s.1).content) ∧
      ((h.visitEntries medium visit).run s).reads =
        blockReads medium h.entriesLba.toNat (h.row medium s.1).reads ∧
      ((h.visitEntries medium visit).run s).state = ((h.row medium s.1).device,
        (h.entriesIn (h.row medium s.1).content).foldl visit s.2) := by
  rw [run_visitEntries_eq visit hwalk, ← entriesOf_array medium, EntryArray.walked]
  generalize h.row medium s.1 = row
  have hreads := row.reads_trace medium h.entriesLba.toNat
  have hmedium : (h.array medium).medium = medium := rfl
  rw [hmedium]
  cases row.ending with
  | complete =>
    have hchecksum : Crc32.finish (Crc32.update Crc32.start
        (row.content.take (h.entryCount.toNat * h.entrySize.toNat))) =
      Crc32.checksum (row.content.take (h.entryCount.toNat * h.entrySize.toNat)) := rfl
    have hsize : (h.array medium).entrySize = h.entrySize.toNat := rfl
    rw [RowEnd.result, continueWith_ok, hsize, hchecksum, verdict]
    split_ifs with hintact
    · refine ⟨rfl, ?_, rfl⟩
      rw [run_pure, Ran.reads, List.append_nil, hreads]
    · refine ⟨rfl, ?_, rfl⟩
      rw [run_failWith, Ran.reads, List.filterMap_append, hreads]
      exact List.append_nil _
  | unreadable offset fault => exact ⟨rfl, hreads, rfl⟩
  | pastOffsets => exact ⟨rfl, hreads, rfl⟩

/-- What a visit is, given the collection and the device it starts with and its run. -/
structure WalksRow (h : TableHeader) (medium : BlockMedium) (visit : ω → PartitionEntry → ω)
    (s : δ × ω) (ran : Ran (δ × ω) Unit) : Prop where
  /-- Nothing is read of an array that is not accepted, and nothing is visited. -/
  refused : ¬ h.Walkable →
    ran.result = .error (.failed (.partitionLookup .entries)) ∧ ran.reads = [] ∧ ran.state = s
  /-- The reads are those of consecutive blocks, no more of them than the array is in. -/
  reads : h.Walkable →
    ran.reads = blockReads medium h.entriesLba.toNat (h.row medium s.1).reads ∧
      (h.row medium s.1).reads ≤ h.arrayBlocks ∧ h.arrayBlocks ≤ 32
  /-- The blocks go on to the first read that fails, or as far as there are offsets. -/
  row : h.Walkable → (h.row medium s.1).EndsSoundly h.entriesLba.toNat h.arrayBlocks
  /-- The visitor gets the entries of the blocks in their order, each once. -/
  visited : h.Walkable → ran.state = ((h.row medium s.1).device,
    (h.entriesIn (h.row medium s.1).content).foldl visit s.2)
  /-- These are the entries whose slots lie in the blocks, each as the first 128 bytes of its
  slot. -/
  entries : h.Walkable → ∀ i e, (h.entriesIn (h.row medium s.1).content)[i]? = some e ↔
    i < h.entryCount.toNat ∧ (i + 1) * h.entrySize.toNat ≤ (h.row medium s.1).content.length ∧
      e.bytes = (((h.row medium s.1).content.drop (i * h.entrySize.toNat)).take
        h.entrySize.toNat).take 128
  unreadable : h.Walkable → ∀ offset fault,
    (h.row medium s.1).ending = .unreadable offset fault →
      ran.result = .error (.failed (.partitionLookup .read))
  pastOffsets : h.Walkable → (h.row medium s.1).ending = .pastOffsets →
    ran.result = .error (.failed (.partitionLookup .entries))
  /-- Once all blocks are read, the checksum of the slots decides. -/
  complete : h.Walkable → (h.row medium s.1).ending = .complete →
    ran.result = h.verdict (h.row medium s.1).content
  /-- A visit that succeeds has visited all entries, and all blocks had been read. -/
  succeeds : ran.result = .ok () → h.Walkable ∧ (h.row medium s.1).ending = .complete ∧
    (h.entriesIn (h.row medium s.1).content).length = h.entryCount.toNat

/-- An array that is not accepted is not walked. -/
theorem visitEntries_of_not_walkable (hnot : ¬ h.Walkable) (s : δ × ω) :
    ((h.visitEntries medium visit).run s).result = .error (.failed (.partitionLookup .entries)) ∧
      ((h.visitEntries medium visit).run s).reads = [] ∧
      ((h.visitEntries medium visit).run s).state = s := by
  rw [visitEntries_eq]
  split_ifs with hlayout hlength hstart
  · exact absurd (walkable_iff.mpr ⟨hlayout, hlength, hstart⟩) hnot
  · exact ⟨rfl, rfl, rfl⟩
  · exact ⟨rfl, rfl, rfl⟩
  · exact ⟨rfl, rfl, rfl⟩

/-- A complete row holds all entries. -/
theorem length_entriesIn (hwalk : h.Walkable) {content : Bytes}
    (hlength : content.length = h.arrayBlocks * blockSize) :
    (h.entriesIn content).length = h.entryCount.toNat := by
  have hcovers : h.entryCount.toNat * h.entrySize.toNat ≤ content.length := by
    rw [hlength, arrayBlocks, blockSize]
    omega
  rw [entriesIn, List.length_map, List.length_range]
  exact Nat.min_eq_left ((Nat.le_div_iff_mul_le hwalk.size_pos).mpr hcovers)

/-- **A visit in blocks is a visit of the array as a whole**, for any header and any device. -/
theorem visitEntries_walks_row (h : TableHeader) (medium : BlockMedium)
    (visit : ω → PartitionEntry → ω) (s : δ × ω) :
    h.WalksRow medium visit s ((h.visitEntries medium visit).run s) := by
  have hrow := h.endsSoundly_row medium s.1
  exact {
    refused := fun hnot => visitEntries_of_not_walkable visit hnot s
    reads := fun hwalk =>
      ⟨(visitEntries_of_walkable visit hwalk s).2.1, hrow.reads_le, arrayBlocks_le hwalk⟩
    row := fun _ => hrow
    visited := fun hwalk => (visitEntries_of_walkable visit hwalk s).2.2
    entries := fun hwalk _ _ => getElem?_entriesIn hwalk
    unreadable := by
      intro hwalk offset fault hend
      rw [(visitEntries_of_walkable visit hwalk s).1, hend]
      rfl
    pastOffsets := by
      intro hwalk hend
      rw [(visitEntries_of_walkable visit hwalk s).1, hend]
      rfl
    complete := by
      intro hwalk hend
      rw [(visitEntries_of_walkable visit hwalk s).1, hend]
      rfl
    succeeds := by
      intro hok
      by_cases hwalk : h.Walkable
      · rw [(visitEntries_of_walkable visit hwalk s).1] at hok
        cases hend : (h.row medium s.1).ending with
        | complete => exact ⟨hwalk, rfl, length_entriesIn hwalk (hrow.complete hend).2⟩
        | unreadable offset fault =>
          rw [hend] at hok
          cases hok
        | pastOffsets =>
          rw [hend] at hok
          cases hok
      · rw [(visitEntries_of_not_walkable visit hwalk s).1] at hok
        cases hok }

end TableHeader

end BootImage
