import BootImage.Proofs.PartitionTable
import BootImage.Proofs.Validation
import Mathlib.Data.List.Find

/-!
# What the partition table of a card says

The table of a card is read here off the card as a whole. Every field is at an offset of the card,
the entry array is one string of bytes, and the entry that counts is the first one of its type.
Nothing is read in blocks, and nothing is collected before it is known to be sound: this is what a
lookup has to come to, not how it gets there.

* `Card.lookup` — the extent of the first partition of a type, or the first thing that is wrong.
* `Card.lookup_eq_ok` — when there is an extent, as a list of conditions (`Card.Gives`).
* `Card.foldl_keepFirst` — the visitor of a lookup, taken over all slots of the array at once, ends
  with this extent.
-/

namespace BootImage

namespace Card

variable (card : Bytes)

/-! ### The fields of a table -/

/-- So many bytes of a card, from an offset on. -/
def bytesAt (offset length : Nat) : Bytes := (card.drop offset).take length

/-- The offset of the header, which is in the second block. -/
def headerOffset : Nat := 512

/-- The number of entries. -/
def entryCount : Nat := (word32 card (headerOffset + 80)).toNat

/-- The number of bytes from one entry to the next. -/
def entrySize : Nat := (word32 card (headerOffset + 84)).toNat

/-- The offset of the entry array. -/
def arrayOffset : Nat := (word64 card (headerOffset + 72)).toNat * 512

/-- The number of bytes of the entry array. -/
def arrayLength : Nat := entryCount card * entrySize card

/-- The number of blocks that the entry array is in. -/
def arrayBlocks : Nat := (arrayLength card + 511) / 512

/-- The entry array, without what may follow it in its last block. -/
def array : Bytes := bytesAt card (arrayOffset card) (arrayLength card)

/-- The offset of an entry. -/
def entryOffset (i : Nat) : Nat := arrayOffset card + i * entrySize card

/-- The type of an entry, as its bytes. -/
def entryType (i : Nat) : Bytes := bytesAt card (entryOffset card i) 16

/-- The first and the last block of an entry's partition. -/
def extent (i : Nat) : Extent :=
  ⟨word64 card (entryOffset card i + 32), word64 card (entryOffset card i + 40)⟩

/-! ### What can be wrong with it -/

/-- The header is that of a primary table. -/
@[mk_iff] structure HeaderSound : Prop where
  signature : bytesAt card headerOffset 8 = TableHeader.signature
  /-- The header is in the block that it says it is in. -/
  placed : word64 card (headerOffset + 24) = 1
  /-- Its checksum is that of its 92 bytes with the checksum field zeroed. -/
  intact : Crc32.checksum (bytesAt card headerOffset 16 ++ [0, 0, 0, 0] ++
    bytesAt card (headerOffset + 20) 72) = word32 card (headerOffset + 16)

instance : Decidable (HeaderSound card) := decidable_of_iff _ (headerSound_iff card).symm

/-- The entry array has an accepted layout. -/
@[mk_iff] structure LaidOut : Prop where
  size : entrySize card = 128 ∨ entrySize card = 256 ∨ entrySize card = 512
  length : arrayLength card ≤ 16384

instance : Decidable (LaidOut card) := decidable_of_iff _ (laidOut_iff card).symm

/-- The blocks of the entry array lie within the card. -/
def Complete : Prop :=
  arrayBlocks card = 0 ∨ arrayOffset card + arrayBlocks card * 512 ≤ card.length

instance : Decidable (Complete card) := inferInstanceAs (Decidable (_ ∨ _))

/-- The entry array has the checksum that the header states. -/
def ArrayIntact : Prop := Crc32.checksum (array card) = word32 card (headerOffset + 88)

instance : Decidable (ArrayIntact card) := inferInstanceAs (Decidable (_ = _))

/-- An entry is used, and is of a type. -/
def Matches (partitionType : Guid) (i : Nat) : Prop :=
  entryType card i ≠ List.replicate 16 0 ∧ entryType card i = partitionType.bytes

instance (partitionType : Guid) (i : Nat) : Decidable (Matches card partitionType i) :=
  inferInstanceAs (Decidable (_ ∧ _))

/-! ### What it says -/

/-- The first entry of a type. -/
def first? (partitionType : Guid) : Option Nat :=
  (List.range (entryCount card)).find? fun i => Matches card partitionType i

/-- The extent of the first partition of a type, or else the first thing that is wrong. -/
def lookup (partitionType : Guid) : Except PartitionError Extent :=
  if card.length < 1024 then .error .read
  else if ¬ HeaderSound card then .error .header
  else if ¬ (LaidOut card ∧ arrayOffset card < UInt64.size) then .error .entries
  else if ¬ Complete card then .error .read
  else if ¬ ArrayIntact card then .error .entries
  else match first? card partitionType with
    | some i => .ok (extent card i)
    | none => .error .notFound

/-- The table of a card is sound, and an extent is that of its first partition of a type. -/
structure Gives (partitionType : Guid) (found : Extent) : Prop where
  long : 1024 ≤ card.length
  header : HeaderSound card
  layout : LaidOut card
  complete : Complete card
  intact : ArrayIntact card
  entry : ∃ i < entryCount card, Matches card partitionType i ∧
    (∀ j < i, ¬ Matches card partitionType j) ∧ found = extent card i

variable {card}

/-- The first match is a match before which there is none. -/
theorem first?_eq_some {partitionType : Guid} {i : Nat} :
    first? card partitionType = some i ↔ i < entryCount card ∧
      Matches card partitionType i ∧ ∀ j < i, ¬ Matches card partitionType j := by
  rw [first?, List.find?_range_eq_some]
  simp only [decide_eq_true_eq, List.mem_range, Bool.not_eq_true', decide_eq_false_iff_not]
  tauto

/-- An array that lies within the card and has an entry starts at a 64-bit offset. -/
theorem Complete.arrayOffset_lt (h : Complete card) (hlayout : LaidOut card)
    (hcount : 0 < entryCount card) : arrayOffset card < card.length := by
  have hsize : 0 < entrySize card := by
    have := hlayout.size
    omega
  have hlength : 0 < arrayLength card := Nat.mul_pos hcount hsize
  have hblocks : 0 < arrayBlocks card := Nat.div_pos (by omega) (by decide)
  rcases h with hnone | hwithin
  · omega
  · omega

/-- **When a table gives an extent.** -/
theorem lookup_eq_ok {partitionType : Guid} {found : Extent} (hcard : card.length < UInt64.size) :
    lookup card partitionType = .ok found ↔ Gives card partitionType found := by
  constructor
  · intro h
    unfold lookup at h
    split_ifs at h with hlong hheader hlayout hcomplete hintact
    rcases hfirst : first? card partitionType with _ | i
    · rw [hfirst] at h
      cases h
    · rw [hfirst] at h
      cases h
      obtain ⟨hi, hmatches, hbefore⟩ := first?_eq_some.mp hfirst
      exact ⟨Nat.le_of_not_lt hlong, hheader, hlayout.1, hcomplete, hintact, i, hi, hmatches,
        hbefore, rfl⟩
  · rintro ⟨hlong, hheader, hlayout, hcomplete, hintact, i, hi, hmatches, hbefore, rfl⟩
    have hoffset : arrayOffset card < UInt64.size :=
      Nat.lt_trans (hcomplete.arrayOffset_lt hlayout (Nat.zero_lt_of_lt hi)) hcard
    have hfirst : first? card partitionType = some i :=
      first?_eq_some.mpr ⟨hi, hmatches, hbefore⟩
    simp [lookup, Nat.not_lt.mpr hlong, hheader, hlayout, hoffset, hcomplete, hintact, hfirst]

end Card

/-! ### The slots of an array -/

section slots

variable {slotSize : Nat}

/-- The slots of a string, each by its place. -/
theorem slots_eq_map (n : Nat) (bs : Bytes) :
    slots slotSize n bs = (List.range n).map fun i => (bs.drop (i * slotSize)).take slotSize := by
  induction n generalizing bs with
  | zero => rfl
  | succ n ih =>
    rw [slots, ih, List.range_succ_eq_map, List.map_cons, List.map_map]
    simp only [Nat.zero_mul, List.drop_zero, List.drop_drop, Function.comp_def, Nat.succ_mul]
    simp only [Nat.add_comm]

/-- Slots can be counted in two parts. -/
theorem slots_append (m n : Nat) (bs : Bytes) :
    slots slotSize (m + n) bs =
      slots slotSize m bs ++ slots slotSize n (bs.drop (m * slotSize)) := by
  induction m generalizing bs with
  | zero => simp [slots]
  | succ m ih =>
    rw [Nat.succ_add, slots, slots, ih, List.cons_append, List.drop_drop, Nat.succ_mul,
      Nat.add_comm (m * slotSize)]

/-- The slots that lie within a cut are those of the whole. -/
theorem slots_take {n k : Nat} (h : n * slotSize ≤ k) (bs : Bytes) :
    slots slotSize n (bs.take k) = slots slotSize n bs := by
  induction n generalizing k bs with
  | zero => rfl
  | succ n ih =>
    rw [Nat.succ_mul] at h
    rw [slots, slots, List.take_take, Nat.min_eq_left (by omega), List.drop_take, ih (by omega)]

end slots

/-! ### The entries of a card -/

/-- Two identifiers with the same bytes are the same. -/
theorem Guid.ext_iff {g g' : Guid} : g = g' ↔ g.bytes = g'.bytes := by
  cases g
  cases g'
  simp

/-- A visitor that keeps the first extent of a type ends with the first entry of the type. -/
theorem Extent.foldl_keepFirst (partitionType : Guid) (es : List PartitionEntry) :
    es.foldl (keepFirst partitionType) none =
      (es.find? fun e => e.isUsed ∧ e.partitionType = partitionType).map fun e =>
        ⟨e.firstLba, e.lastLba⟩ := by
  have hkept : ∀ (es : List PartitionEntry) (found : Extent),
      es.foldl (keepFirst partitionType) (some found) = some found := by
    intro es found
    induction es with
    | nil => rfl
    | cons e es ih => exact ih
  induction es with
  | nil => rfl
  | cons e es ih =>
    rw [List.foldl_cons, List.find?_cons, keepFirst]
    by_cases he : e.isUsed ∧ e.partitionType = partitionType
    · rw [if_pos he, hkept]
      simp [he]
    · rw [if_neg he, ih]
      simp [he]

/-- A word behind the bytes left out is found further on. -/
theorem word64_drop (bs : Bytes) (k pos : Nat) : word64 (bs.drop k) pos = word64 bs (k + pos) := by
  rw [word64, word64, List.drop_drop]

/-- So is a shorter one. -/
theorem word32_drop (bs : Bytes) (k pos : Nat) : word32 (bs.drop k) pos = word32 bs (k + pos) := by
  rw [word32, word32, List.drop_drop]

namespace Card

variable {card : Bytes} {i : Nat}

/-- The entry at a place of the array. -/
def entry (card : Bytes) (i : Nat) : PartitionEntry :=
  .ofSlot (bytesAt card (entryOffset card i) (entrySize card))

/-- An entry of a complete array lies within the card. -/
theorem Complete.entryOffset_le (h : Complete card) (hlayout : LaidOut card)
    (hi : i < entryCount card) : entryOffset card i + 128 ≤ card.length := by
  have hsize : 128 ≤ entrySize card := by
    have := hlayout.size
    omega
  have hnext : i * entrySize card + entrySize card ≤ arrayLength card := by
    rw [← Nat.succ_mul]
    exact Nat.mul_le_mul_right _ hi
  have hcovered : arrayLength card ≤ arrayBlocks card * 512 := by
    unfold arrayBlocks
    omega
  unfold entryOffset
  rcases h with hnone | hwithin
  · omega
  · omega

/-- The fields of an entry are the first 128 bytes of its slot. -/
theorem bytes_entry (hsize : 128 ≤ entrySize card)
    (hwithin : entryOffset card i + 128 ≤ card.length) :
    (entry card i).bytes = bytesAt card (entryOffset card i) 128 := by
  have hbytes : (entry card i).bytes = fit 128 ((bytesAt card (entryOffset card i)
    (entrySize card)).take 128) := rfl
  rw [hbytes, bytesAt, List.take_take, Nat.min_eq_left hsize]
  exact fit_of_length (length_window hwithin)

/-- The fields of an entry are where the card has them. -/
theorem bytes_partitionType_entry (hsize : 128 ≤ entrySize card)
    (hwithin : entryOffset card i + 128 ≤ card.length) :
    (entry card i).partitionType.bytes = entryType card i := by
  have hbytes : (entry card i).partitionType.bytes = fit 16 ((entry card i).bytes.take 16) := rfl
  rw [hbytes, bytes_entry hsize hwithin, bytesAt, List.take_take]
  apply fit_of_length
  rw [List.length_take, List.length_drop]
  omega

/-- Its extent is the one that the card gives. -/
theorem extent_entry (hsize : 128 ≤ entrySize card)
    (hwithin : entryOffset card i + 128 ≤ card.length) :
    (⟨(entry card i).firstLba, (entry card i).lastLba⟩ : Extent) = extent card i := by
  rw [PartitionEntry.firstLba, PartitionEntry.lastLba, bytes_entry hsize hwithin, bytesAt,
    word64_take (by decide), word64_take (by decide), word64_drop, word64_drop, extent]

/-- It is used and of the type exactly if the card says that it matches. -/
theorem matches_iff (hsize : 128 ≤ entrySize card)
    (hwithin : entryOffset card i + 128 ≤ card.length) (partitionType : Guid) :
    ((entry card i).isUsed ∧ (entry card i).partitionType = partitionType) ↔
      Matches card partitionType i := by
  have hzero : Guid.zero.bytes = List.replicate 16 0 := rfl
  rw [Matches, ← bytes_partitionType_entry hsize hwithin, ← hzero, Ne, ← Guid.ext_iff,
    ← Guid.ext_iff]
  simp [PartitionEntry.isUsed]

/-- **All slots of a sound array, visited in order, give the extent of the first partition.** -/
theorem foldl_keepFirst (hlayout : LaidOut card) (hcomplete : Complete card)
    (partitionType : Guid) :
    ((slots (entrySize card) (entryCount card) (card.drop (arrayOffset card))).map
        PartitionEntry.ofSlot).foldl (Extent.keepFirst partitionType) none =
      (first? card partitionType).map (extent card) := by
  have hsize : 128 ≤ entrySize card := by
    have := hlayout.size
    omega
  have hentries : (slots (entrySize card) (entryCount card) (card.drop (arrayOffset card))).map
      PartitionEntry.ofSlot = (List.range (entryCount card)).map (entry card) := by
    rw [slots_eq_map, List.map_map]
    simp only [Function.comp_def, List.drop_drop]
    rfl
  rw [hentries, Extent.foldl_keepFirst, List.find?_map, Option.map_map, first?]
  have hsame : ∀ j ∈ List.range (entryCount card),
      ((fun e : PartitionEntry => decide (e.isUsed ∧ e.partitionType = partitionType)) ∘
        entry card) j = decide (Matches card partitionType j) := by
    intro j hj
    have hwithin := hcomplete.entryOffset_le hlayout (List.mem_range.mp hj)
    exact decide_eq_decide.mpr (matches_iff hsize hwithin partitionType)
  rw [List.find?_congr hsame]
  rcases hfirst : (List.range (entryCount card)).find? _ with _ | j
  · rfl
  · have hj := List.mem_range.mp (List.mem_of_find?_eq_some hfirst)
    exact congrArg some (extent_entry hsize (hcomplete.entryOffset_le hlayout hj))

end Card

end BootImage
