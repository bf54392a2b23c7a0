import BootImage.Proofs.Card
import BootImage.Proofs.Independence

/-!
# Looking a partition up on a card whose content is known

A lookup reads the header, then the entry array one block at a time, and it has collected an extent
before it knows the checksum of the array. On a medium that keeps a content it comes to what the
content says as a whole (`Card.lookup`).

* `EntryArray.run_walk` — one block of the walk: it takes in the slots that are used of the block,
  and goes on with the others.
* `EntryArray.walk_of_within`, `EntryArray.walk_of_past` — the walk as a whole, by induction on the
  blocks that are left. What it takes in is one string, and what it visits are the slots of that
  string.
* `findPartition_of_unsound`, `findPartition_of_complete` — the lookup where the header is not
  accepted, and where the whole array can be read.
* `findPartition_eq` — the lookup, for media of which reads past the end need to fail only if there
  are any.
* `findPartition_of_gives` — so what a card gives is found.
* `findPartition_parses` — the lookup on a medium that ends where its content ends.
-/

namespace BootImage

open Attempt

variable {δ ω : Type} [Device δ] {medium : BlockMedium}

/-! ### Media that keep a content -/

namespace Device

/-- Whatever was read before, a read within a content succeeds and gives the bytes that are
there. -/
def Serves (medium : BlockMedium) (content : Bytes) (d : δ) : Prop :=
  ∀ d', Reaches d d' → ∀ offset buffer, offset + buffer.length ≤ content.length →
    (read d' medium offset buffer).fault = none ∧
      (read d' medium offset buffer).buffer = (content.drop offset).take buffer.length

/-- Whatever was read before, a read that goes past an end fails. -/
def EndsAt (medium : BlockMedium) (size : Nat) (d : δ) : Prop :=
  ∀ d', Reaches d d' → ∀ offset buffer, size < offset + buffer.length →
    (read d' medium offset buffer).fault ≠ none

variable {d d' : δ}

/-- Reads leave the content of a medium. -/
theorem Serves.reaches {content : Bytes} (h : Serves medium content d) (hr : Reaches d d') :
    Serves medium content d' := fun d'' hd' => h d'' (hr.trans hd')

/-- They leave its end, too. -/
theorem EndsAt.reaches {size : Nat} (h : EndsAt medium size d) (hr : Reaches d d') :
    EndsAt medium size d' := fun d'' hd' => h d'' (hr.trans hd')

/-- A read past the end has a fault. -/
theorem EndsAt.exists_fault {size offset : Nat} {buffer : Bytes} (h : EndsAt medium size d)
    (hpast : size < offset + buffer.length) :
    ∃ fault, (read d medium offset buffer).fault = some fault :=
  Option.ne_none_iff_exists'.mp (h d .refl offset buffer hpast)

/-- A fetch of bytes that are there. -/
theorem Serves.run_fetch {content : Bytes} (h : Serves medium content d) {offset : Nat}
    {buffer : Bytes} (hwithin : offset + buffer.length ≤ content.length) :
    (fetch medium offset buffer).run d =
      ⟨.ok ((content.drop offset).take buffer.length, none),
        [.read medium offset buffer.length], (read d medium offset buffer).device⟩ := by
  obtain ⟨hfault, hbuffer⟩ := h d .refl offset buffer hwithin
  rw [Device.run_fetch, hfault, hbuffer]

end Device

/-! ### The header -/

namespace Card

variable {card : Bytes}

/-- The header of a card's table. -/
def header (card : Bytes) : TableHeader := .ofBytes (card.drop headerOffset)

section fields

variable (hlong : 1024 ≤ card.length)

include hlong

/-- The bytes of the header are those of its block. -/
theorem bytes_header : (header card).bytes = (card.drop headerOffset).take TableHeader.size := by
  apply fit_of_le
  rw [List.length_drop]
  simp only [TableHeader.size, headerOffset]
  omega

/-- A word of the header is one of the card. -/
theorem word32_header {pos : Nat} (hpos : pos + 4 ≤ TableHeader.size) :
    word32 (header card).bytes pos = word32 card (headerOffset + pos) := by
  rw [bytes_header hlong, word32_take hpos, word32_drop]

/-- So is a longer one. -/
theorem word64_header {pos : Nat} (hpos : pos + 8 ≤ TableHeader.size) :
    word64 (header card).bytes pos = word64 card (headerOffset + pos) := by
  rw [bytes_header hlong, word64_take hpos, word64_drop]

/-- The header counts as many entries as the card has. -/
theorem toNat_entryCount : (header card).entryCount.toNat = entryCount card :=
  congrArg UInt32.toNat (word32_header hlong (by decide))

/-- It gives the size that they have on the card. -/
theorem toNat_entrySize : (header card).entrySize.toNat = entrySize card :=
  congrArg UInt32.toNat (word32_header hlong (by decide))

/-- It says where they start. -/
theorem toNat_entriesLba : (header card).entriesLba.toNat * blockSize = arrayOffset card := by
  have hword : (header card).entriesLba = word64 card (headerOffset + 72) :=
    word64_header hlong (by decide)
  rw [hword, arrayOffset, blockSize]

/-- It has their checksum. -/
theorem entriesChecksum_header :
    (header card).entriesChecksum = word32 card (headerOffset + 88) :=
  word32_header hlong (by decide)

/-- The bytes that it is checked by are those on the card, with the checksum zeroed. -/
theorem zeroed_header : (header card).zeroed =
    bytesAt card headerOffset 16 ++ [0, 0, 0, 0] ++ bytesAt card (headerOffset + 20) 72 := by
  have hfirst : min 16 TableHeader.size = 16 := rfl
  have hlast : TableHeader.size - 20 = 72 := rfl
  rw [TableHeader.zeroed, bytes_header hlong, List.take_take, List.drop_take, List.drop_drop,
    hfirst, hlast, bytesAt, bytesAt]

/-- It is sound if its signature, its own block and its checksum are right. -/
theorem headerSound_iff_header : HeaderSound card ↔
    (header card).bytes.take 8 = TableHeader.signature ∧ (header card).ownLba = 1 ∧
      Crc32.checksum (header card).zeroed = (header card).checksum := by
  have hsignature : (header card).bytes.take 8 = bytesAt card headerOffset 8 := by
    have hfirst : min 8 TableHeader.size = 8 := rfl
    rw [bytes_header hlong, List.take_take, hfirst, bytesAt]
  have hplaced : (header card).ownLba = word64 card (headerOffset + 24) :=
    word64_header hlong (by decide)
  have hchecksum : (header card).checksum = word32 card (headerOffset + 16) :=
    word32_header hlong (by decide)
  rw [headerSound_iff, hsignature, hplaced, hchecksum, zeroed_header hlong]

/-- The sizes of entries that can be read are 128, 256 and 512. -/
theorem hasEntryLayout_header : (header card).hasEntryLayout = true ↔
    entrySize card = 128 ∨ entrySize card = 256 ∨ entrySize card = 512 := by
  rw [← toNat_entrySize hlong]
  simp [TableHeader.hasEntryLayout, ← UInt32.toNat_inj, or_assoc]

/-- A header is accepted if it is sound. -/
theorem run_check {σ : Type} (s : σ) :
    ∃ t, (header card).check.run s = ⟨.ok (decide (HeaderSound card)), t, s⟩ := by
  simp only [headerSound_iff_header hlong]
  unfold TableHeader.check
  split_ifs with hsignature hplaced hchecksum
  · rw [decide_eq_false fun h => hsignature h.1]
    exact ⟨_, rfl⟩
  · rw [decide_eq_false fun h => hplaced h.2.1]
    exact ⟨_, rfl⟩
  · rw [decide_eq_false fun h => hchecksum h.2.2]
    exact ⟨_, rfl⟩
  · rw [decide_eq_true ⟨not_not.mp hsignature, not_not.mp hplaced, not_not.mp hchecksum⟩]
    exact ⟨_, rfl⟩

/-- The header is read if the medium serves it. -/
theorem run_read {d : δ} (hserves : Device.Serves medium card d) :
    ∃ t d', (TableHeader.read medium).run d = ⟨.ok (header card), t, d'⟩ ∧
      Device.Reaches d d' := by
  have hwithin : blockSize + (List.replicate blockSize (0 : UInt8)).length ≤ card.length := by
    rw [List.length_replicate]
    exact hlong
  have hblock : TableHeader.size ≤ ((card.drop blockSize).take blockSize).length := by
    rw [length_window hlong]
    decide
  have hcut : (cut ((card.drop blockSize).take blockSize) TableHeader.size : Attempt δ Bytes) =
      pure ((card.drop blockSize).take TableHeader.size) := by
    rw [cut_of_le hblock, List.take_take]
    rfl
  have hheader : TableHeader.ofBytes ((card.drop blockSize).take TableHeader.size) =
      header card := by
    have hbytes : fit TableHeader.size ((card.drop blockSize).take TableHeader.size) =
        (header card).bytes := by
      have hhead : blockSize + TableHeader.size ≤ 1024 := by decide
      rw [bytes_header hlong]
      exact fit_of_length (length_window (hhead.trans hlong))
    simp only [TableHeader.ofBytes, hbytes]
  refine ⟨[.read medium blockSize blockSize], _, ?_,
    .read medium blockSize (List.replicate blockSize 0) .refl⟩
  simp only [TableHeader.read, run_bind, hserves.run_fetch hwithin, List.length_replicate,
    continueWith_ok, hcut, run_pure, hheader, List.append_nil]

end fields

/-- The header cannot be read if the card ends before the end of its block. -/
theorem read_of_short {d : δ} (hends : Device.EndsAt medium card.length d)
    (hshort : card.length < 1024) :
    ((TableHeader.read medium).run d).result = .error (.failed (.partitionLookup .read)) := by
  have hpast : card.length < blockSize + (List.replicate blockSize (0 : UInt8)).length := by
    rw [List.length_replicate]
    exact hshort
  obtain ⟨fault, hfault⟩ := hends.exists_fault hpast
  simp [TableHeader.read, hfault]

end Card

/-! ### The walk -/

namespace EntryArray

variable {array : EntryArray} {visit : ω → PartitionEntry → ω} {card : Bytes}

/-- Slots fill their blocks, with nothing left over at the end of a block. -/
structure Fills (array : EntryArray) : Prop extends array.Fits where
  full : array.perBlock * array.entrySize = blockSize

/-- A block that is there is taken in, as far as its slots are used, and the walk goes on. -/
theorem run_walk (hfits : array.Fits) {s : δ × ω}
    (hserves : Device.Serves array.medium card s.1) {blocks remaining offset : Nat}
    (hwithin : offset + blockSize ≤ card.length) (hnext : offset + blockSize < UInt64.size)
    {register : UInt32} {buffer : Bytes} (hbuffer : buffer.length = blockSize) :
    (array.walk visit (blocks + 1) remaining offset register buffer).run s =
      continueWith
        ⟨.ok (), [.read array.medium offset blockSize],
          ((Device.read s.1 array.medium offset buffer).device,
            ((slots array.entrySize (array.used remaining)
              (card.drop offset)).map PartitionEntry.ofSlot).foldl visit s.2)⟩
        fun _ => array.walk visit blocks (remaining - array.used remaining) (offset + blockSize)
          (Crc32.update register
            ((card.drop offset).take (array.used remaining * array.entrySize)))
          ((card.drop offset).take blockSize) := by
  have hwithin' : offset + buffer.length ≤ card.length := by rwa [hbuffer]
  obtain ⟨hfault, hblock⟩ := hserves _ .refl offset buffer hwithin'
  rw [hbuffer] at hblock
  have hused : ((card.drop offset).take blockSize).take (array.used remaining * array.entrySize) =
      (card.drop offset).take (array.used remaining * array.entrySize) := by
    rw [List.take_take, Nat.min_eq_left (hfits.used_le remaining)]
  have hslots : slots array.entrySize (array.used remaining)
      ((card.drop offset).take (array.used remaining * array.entrySize)) =
      slots array.entrySize (array.used remaining) (card.drop offset) :=
    slots_take (Nat.le_refl _) _
  have hnext' : (nextBlock offset : Attempt (δ × ω) Nat) = pure (offset + blockSize) :=
    if_pos hnext
  rw [run_walk_succ hfits blocks remaining offset register hbuffer]
  simp only [continueWith_ok, hfault, hblock, hused, hslots, hnext', run_bind, run_modify, run_pure,
    List.nil_append]

/-- The slots that are left after a block, if there are any, start with the next block. -/
theorem Fills.next (hfills : array.Fills) (card : Bytes) (remaining offset : Nat) :
    remaining - array.used remaining = 0 ∨
      (card.drop offset).drop (array.used remaining * array.entrySize) =
        card.drop (offset + blockSize) := by
  unfold used
  by_cases hfull : array.perBlock ≤ remaining
  · right
    rw [Nat.min_eq_left hfull, hfills.full, List.drop_drop]
  · left
    omega

/-- **The walk over blocks that are there**, by induction on how many are left: it takes in the
bytes of all slots that are left, and visits their entries in order. -/
theorem walk_of_within (hfills : array.Fills) (blocks : Nat) {s : δ × ω}
    (hserves : Device.Serves array.medium card s.1) {remaining offset : Nat}
    (hwithin : blocks = 0 ∨ offset + blocks * blockSize ≤ card.length)
    (hoffsets : blocks = 0 ∨ offset + blocks * blockSize < UInt64.size)
    (hcovers : remaining * array.entrySize ≤ blocks * blockSize) {register : UInt32}
    {buffer : Bytes} (hbuffer : buffer.length = blockSize) :
    ((array.walk visit blocks remaining offset register buffer).run s).result =
        .ok (Crc32.update register ((card.drop offset).take (remaining * array.entrySize))) ∧
      ((array.walk visit blocks remaining offset register buffer).run s).state.2 =
        ((slots array.entrySize remaining (card.drop offset)).map PartitionEntry.ofSlot).foldl
          visit s.2 := by
  induction blocks generalizing s remaining offset register buffer with
  | zero =>
    have hnone : remaining = 0 := by
      have hentry : 128 ≤ array.entrySize := hfills.entry
      rcases Nat.eq_zero_or_pos remaining with hzero | hpos
      · exact hzero
      · have := Nat.mul_pos hpos (Nat.zero_lt_of_lt hentry)
        omega
    subst hnone
    simp [walk, slots]
  | succ blocks ih =>
    have hwithin' := hwithin.resolve_left (Nat.succ_ne_zero blocks)
    have hoffsets' := hoffsets.resolve_left (Nat.succ_ne_zero blocks)
    rw [Nat.succ_mul] at hwithin' hoffsets' hcovers
    have hhere : offset + blockSize ≤ card.length := by omega
    have hnextOffset : offset + blockSize < UInt64.size := by omega
    rw [run_walk hfills.toFits hserves hhere hnextOffset hbuffer, continueWith_ok]
    -- what is left fits in the blocks that are left
    generalize hcount : array.used remaining = count
    have hle : count ≤ remaining := hcount ▸ Nat.min_le_right _ _
    have hmin : min array.perBlock remaining = count := hcount
    have hrest : (remaining - count) * array.entrySize ≤ blocks * blockSize := by
      rcases Nat.le_total array.perBlock remaining with hfull | hlast
      · rw [← hmin, Nat.min_eq_left hfull, Nat.sub_mul, hfills.full]
        omega
      · rw [← hmin, Nat.min_eq_right hlast, Nat.sub_self, Nat.zero_mul]
        exact Nat.zero_le _
    have hlen : ((card.drop offset).take blockSize).length = blockSize := length_window hhere
    have hreach : Device.Reaches s.1 (Device.read s.1 array.medium offset buffer).device :=
      .read _ _ _ .refl
    have hthere : offset + blockSize + blocks * blockSize ≤ card.length := by omega
    have hthere' : offset + blockSize + blocks * blockSize < UInt64.size := by omega
    -- the slots of this block and the others are the slots of one string
    have hall : remaining = count + (remaining - count) := (Nat.add_sub_cancel' hle).symm
    have hnext := hfills.next card remaining offset
    rw [hcount] at hnext
    constructor
    · rw [(ih (hserves.reaches hreach) (.inr hthere) (.inr hthere') hrest hlen).1,
        ← Crc32.update_append]
      conv => rhs; rw [hall, Nat.add_mul, List.take_add]
      rcases hnext with hzero | hsame
      · rw [hzero, Nat.zero_mul, List.take_zero, List.take_zero]
      · rw [hsame]
    · rw [(ih (hserves.reaches hreach) (.inr hthere) (.inr hthere') hrest hlen).2]
      conv => rhs; rw [hall, slots_append, List.map_append, List.foldl_append]
      rcases hnext with hzero | hsame
      · rw [hzero, slots, slots]
      · rw [hsame]

/-- The walk ends with the read of a block that is not there. -/
theorem walk_of_past_here {s : δ × ω} (hends : Device.EndsAt array.medium card.length s.1)
    {blocks remaining offset : Nat} (hpast : card.length < offset + blockSize)
    {register : UInt32} {buffer : Bytes} (hbuffer : buffer.length = blockSize) :
    ((array.walk visit (blocks + 1) remaining offset register buffer).run s).result =
      .error (.failed (.partitionLookup .read)) := by
  rw [← hbuffer] at hpast
  obtain ⟨fault, hfault⟩ := hends.exists_fault hpast
  simp [walk, hfault]

/-- **The walk over blocks that are not all there** ends with the read of the first that is not. -/
theorem walk_of_past (hfits : array.Fits) (hcard : card.length < UInt64.size) (blocks : Nat)
    {s : δ × ω} (hserves : Device.Serves array.medium card s.1)
    (hends : Device.EndsAt array.medium card.length s.1) {remaining offset : Nat}
    (hblocks : blocks ≠ 0) (hpast : card.length < offset + blocks * blockSize)
    {register : UInt32} {buffer : Bytes} (hbuffer : buffer.length = blockSize) :
    ((array.walk visit blocks remaining offset register buffer).run s).result =
      .error (.failed (.partitionLookup .read)) := by
  induction blocks generalizing s remaining offset register buffer with
  | zero => exact absurd rfl hblocks
  | succ blocks ih =>
    by_cases hhere : offset + blockSize ≤ card.length
    · rw [run_walk hfits hserves hhere (Nat.lt_of_le_of_lt hhere hcard) hbuffer, continueWith_ok]
      rw [Nat.succ_mul] at hpast
      have hleft : blocks ≠ 0 := by
        rintro rfl
        omega
      have hlen : ((card.drop offset).take blockSize).length = blockSize := length_window hhere
      have hreach : Device.Reaches s.1 (Device.read s.1 array.medium offset buffer).device :=
        .read _ _ _ .refl
      exact ih (hserves.reaches hreach) (hends.reaches hreach) hleft (by omega) hlen
    · exact walk_of_past_here hends (Nat.lt_of_not_le hhere) hbuffer

end EntryArray

/-! ### The entry array of a card -/

/-- Slots of an accepted size fill their blocks. -/
theorem TableHeader.fills_array {h : TableHeader} (hlayout : h.hasEntryLayout = true)
    (medium : BlockMedium) : (h.array medium).Fills where
  toFits := fits_array hlayout medium
  full := by
    have hsize : h.entrySize = 128 ∨ h.entrySize = 256 ∨ h.entrySize = 512 := by
      simpa [hasEntryLayout, or_assoc] using hlayout
    change blockSize / h.entrySize.toNat * h.entrySize.toNat = blockSize
    rcases hsize with h' | h' | h' <;> rw [h'] <;> rfl

namespace Card

/-- The blocks of the entry array end before the last 64-bit offset. -/
def Addressable (card : Bytes) : Prop :=
  arrayBlocks card = 0 ∨ arrayOffset card + arrayBlocks card * blockSize < UInt64.size

/-- On a card whose size is a 64-bit number every block has a 64-bit offset. -/
theorem Complete.addressable {card : Bytes} (h : Complete card)
    (hcard : card.length < UInt64.size) : Addressable card :=
  h.imp_right fun hwithin => Nat.lt_of_le_of_lt hwithin hcard

variable {card : Bytes} {visit : ω → PartitionEntry → ω} (hlong : 1024 ≤ card.length)

include hlong

/-- The array has the length that the card says. -/
theorem arrayLength_header : (header card).arrayLength = arrayLength card := by
  rw [TableHeader.arrayLength, toNat_entryCount hlong, toNat_entrySize hlong, arrayLength]

/-- The walk over the entry array, with the numbers that the card has. -/
theorem walk_header : ((header card).walk medium visit : Attempt (δ × ω) UInt32) =
    ((header card).array medium).walk visit (arrayBlocks card) (entryCount card)
      (arrayOffset card) Crc32.start (List.replicate blockSize 0) := by
  rw [TableHeader.walk, arrayLength_header hlong, toNat_entryCount hlong, toNat_entriesLba hlong]
  rfl

/-- An array that is not laid out as it has to be is not read. -/
theorem visitEntries_of_not_laidOut (hnot : ¬ (LaidOut card ∧ arrayOffset card < UInt64.size))
    (s : δ × ω) :
    (((header card).visitEntries medium visit).run s).result =
      .error (.failed (.partitionLookup .entries)) := by
  rw [TableHeader.visitEntries_eq, arrayLength_header hlong, toNat_entriesLba hlong]
  split_ifs with hsize hlength hoffset
  · exact absurd ⟨⟨(hasEntryLayout_header hlong).mp hsize, hlength⟩, hoffset⟩ hnot
  · rfl
  · rfl
  · rfl

/-- An array that is laid out as it has to be is walked, and its checksum compared. -/
theorem run_visitEntries (hlayout : LaidOut card) (hoffset : arrayOffset card < UInt64.size)
    (s : δ × ω) :
    ((header card).visitEntries medium visit).run s =
      ((header card).walk medium visit >>= fun register =>
        if Crc32.finish register = word32 card (headerOffset + 88) then pure ()
        else failWith .entriesMismatch (.partitionLookup .entries)).run s := by
  have hsize := (hasEntryLayout_header hlong).mpr hlayout.size
  have hlength : arrayLength card ≤ entryArrayMax := hlayout.length
  rw [TableHeader.visitEntries_eq, arrayLength_header hlong, toNat_entriesLba hlong,
    entriesChecksum_header hlong, if_pos hsize, if_pos hlength, if_pos hoffset]

variable (visit) in
/-- An array whose blocks are there is taken in and visited in full. -/
theorem walk_of_complete (hlayout : LaidOut card) (hcomplete : Complete card)
    (hoffsets : Addressable card) {s : δ × ω} (hserves : Device.Serves medium card s.1) :
    (((header card).walk medium visit).run s).result =
        .ok (Crc32.update Crc32.start (array card)) ∧
      (((header card).walk medium visit).run s).state.2 =
        ((slots (entrySize card) (entryCount card) (card.drop (arrayOffset card))).map
          PartitionEntry.ofSlot).foldl visit s.2 := by
  have hcovers : entryCount card * entrySize card ≤ arrayBlocks card * blockSize := by
    show arrayLength card ≤ (arrayLength card + 511) / 512 * 512
    omega
  rw [walk_header hlong, array, bytesAt, arrayLength]
  rw [← toNat_entrySize hlong] at hcovers ⊢
  exact EntryArray.walk_of_within
    (TableHeader.fills_array ((hasEntryLayout_header hlong).mpr hlayout.size) medium)
    (arrayBlocks card) hserves hcomplete hoffsets hcovers (List.length_replicate ..)

variable (visit) in
/-- An array whose blocks are there is accepted if it is intact. -/
theorem visitEntries_of_complete (hlayout : LaidOut card)
    (hoffset : arrayOffset card < UInt64.size) (hcomplete : Complete card)
    (hoffsets : Addressable card) {s : δ × ω} (hserves : Device.Serves medium card s.1) :
    (((header card).visitEntries medium visit).run s).result =
        (if ArrayIntact card then .ok () else .error (.failed (.partitionLookup .entries))) ∧
      (((header card).visitEntries medium visit).run s).state.2 =
        ((slots (entrySize card) (entryCount card) (card.drop (arrayOffset card))).map
          PartitionEntry.ofSlot).foldl visit s.2 := by
  obtain ⟨hresult, hstate⟩ := walk_of_complete visit hlong hlayout hcomplete hoffsets hserves
  have hchecksum : Crc32.finish (Crc32.update Crc32.start (array card)) =
      Crc32.checksum (array card) := rfl
  rw [run_visitEntries hlong hlayout hoffset, run_bind_of_ok hresult, hchecksum]
  by_cases hintact : ArrayIntact card
  · have heq : Crc32.checksum (array card) = word32 card (headerOffset + 88) := hintact
    rw [if_pos hintact, if_pos heq]
    exact ⟨rfl, hstate⟩
  · have hne : ¬ Crc32.checksum (array card) = word32 card (headerOffset + 88) := hintact
    rw [if_neg hintact, if_neg hne]
    exact ⟨rfl, hstate⟩

/-- An array whose blocks are not all there cannot be read. -/
theorem visitEntries_of_not_complete (hlayout : LaidOut card)
    (hoffset : arrayOffset card < UInt64.size) (hcut : ¬ Complete card)
    (hcard : card.length < UInt64.size) {s : δ × ω} (hserves : Device.Serves medium card s.1)
    (hends : Device.EndsAt medium card.length s.1) :
    (((header card).visitEntries medium visit).run s).result =
      .error (.failed (.partitionLookup .read)) := by
  obtain ⟨hblocks, hpast⟩ := not_or.mp hcut
  have hwalk : (((header card).walk medium visit).run s).result =
      .error (.failed (.partitionLookup .read)) := by
    rw [walk_header hlong]
    exact EntryArray.walk_of_past
      (TableHeader.fits_array ((hasEntryLayout_header hlong).mpr hlayout.size) medium) hcard
      (arrayBlocks card) hserves hends hblocks (Nat.lt_of_not_le hpast) (List.length_replicate ..)
  rw [run_visitEntries hlong hlayout hoffset, run_bind_of_error hwalk]

end Card

/-! ### The lookup -/

section lookup

variable {card : Bytes} {d : δ} (partitionType : Guid)

/-- The result of a lookup, given what it has found. -/
def lookupResult (found : Except PartitionError Extent) : Except Stop Extent :=
  found.mapError fun cause => .failed (.partitionLookup cause)

/-- A lookup whose header is read and accepted goes on with the entries. -/
theorem findPartition_of_sound (hlong : 1024 ≤ card.length) (hsound : Card.HeaderSound card)
    (hserves : Device.Serves medium card d) :
    ∃ d', Device.Reaches d d' ∧ ((findPartition medium partitionType).run d).result =
      ((((Card.header card).visitEntries medium (Extent.keepFirst partitionType)).run
        (d', none)).result.bind fun _ =>
          match (((Card.header card).visitEntries medium (Extent.keepFirst partitionType)).run
            (d', none)).state.2 with
          | some extent => .ok extent
          | none => .error (.failed (.partitionLookup .notFound))) := by
  obtain ⟨t, d', hread, hreach⟩ := Card.run_read hlong hserves
  obtain ⟨t', hcheck⟩ := Card.run_check hlong d'
  refine ⟨d', hreach, ?_⟩
  simp only [findPartition, run_bind, hread, hcheck, continueWith_ok, hsound, decide_true, if_true,
    run_accumulating]
  rcases (((Card.header card).visitEntries medium (Extent.keepFirst partitionType)).run
    (d', none)) with ⟨_ | _, t, d'', _ | extent⟩ <;> rfl

/-- A lookup whose header is read and not accepted ends there. -/
theorem findPartition_of_unsound (hlong : 1024 ≤ card.length) (hunsound : ¬ Card.HeaderSound card)
    (hserves : Device.Serves medium card d) :
    ((findPartition medium partitionType).run d).result =
      .error (.failed (.partitionLookup .header)) := by
  obtain ⟨t, d', hread, -⟩ := Card.run_read hlong hserves
  obtain ⟨t', hcheck⟩ := Card.run_check hlong d'
  simp [findPartition, hread, hcheck, hunsound]

/-- A lookup whose entry array is there and can be addressed gives the first entry of the type, if
the array is intact. -/
theorem findPartition_of_complete (hlong : 1024 ≤ card.length) (hsound : Card.HeaderSound card)
    (hlayout : Card.LaidOut card) (hoffset : Card.arrayOffset card < UInt64.size)
    (hcomplete : Card.Complete card) (hoffsets : Card.Addressable card)
    (hserves : Device.Serves medium card d) :
    ((findPartition medium partitionType).run d).result =
      if Card.ArrayIntact card then
        match Card.first? card partitionType with
        | some i => .ok (Card.extent card i)
        | none => .error (.failed (.partitionLookup .notFound))
      else .error (.failed (.partitionLookup .entries)) := by
  obtain ⟨d', hreach, hfind⟩ := findPartition_of_sound partitionType hlong hsound hserves
  have hvisit := Card.visitEntries_of_complete (Extent.keepFirst partitionType) hlong hlayout
    hoffset hcomplete hoffsets (s := (d', none)) (hserves.reaches hreach)
  rw [Card.foldl_keepFirst hlayout hcomplete] at hvisit
  rw [hfind, hvisit.1, hvisit.2]
  by_cases hintact : Card.ArrayIntact card
  · rw [if_pos hintact, if_pos hintact]
    rcases Card.first? card partitionType with _ | i <;> rfl
  · rw [if_neg hintact, if_neg hintact]
    rfl

/-- **A lookup on a medium that serves a card comes to what the card says.** Reads past the end of
the card need to fail only if there is something to read there. -/
theorem findPartition_eq (hserves : Device.Serves medium card d)
    (hends : Card.lookup card partitionType = .error .read →
      Device.EndsAt medium card.length d) (hcard : card.length < UInt64.size) :
    ((findPartition medium partitionType).run d).result =
      lookupResult (Card.lookup card partitionType) := by
  by_cases hlong : card.length < 1024
  · have hlookup : Card.lookup card partitionType = .error .read := if_pos hlong
    rw [hlookup, findPartition, run_bind_of_error (Card.read_of_short (hends hlookup) hlong)]
    rfl
  have hlong' := Nat.le_of_not_lt hlong
  by_cases hsound : Card.HeaderSound card
  · by_cases hlayout : Card.LaidOut card ∧ Card.arrayOffset card < UInt64.size
    · by_cases hcomplete : Card.Complete card
      · rw [findPartition_of_complete partitionType hlong' hsound hlayout.1 hlayout.2 hcomplete
          (hcomplete.addressable hcard) hserves]
        by_cases hintact : Card.ArrayIntact card
        · rcases hfirst : Card.first? card partitionType with _ | i <;>
            simp [Card.lookup, hlong, hsound, hlayout, hcomplete, hintact, hfirst, lookupResult,
              Except.mapError]
        · simp [Card.lookup, hlong, hsound, hlayout, hcomplete, hintact, lookupResult,
            Except.mapError]
      · have hlookup : Card.lookup card partitionType = .error .read := by
          simp [Card.lookup, hlong, hsound, hlayout, hcomplete]
        obtain ⟨d', hreach, hfind⟩ := findPartition_of_sound partitionType hlong' hsound hserves
        rw [hfind, hlookup, Card.visitEntries_of_not_complete hlong' hlayout.1 hlayout.2 hcomplete
          hcard (hserves.reaches hreach) ((hends hlookup).reaches hreach)]
        rfl
    · have hlookup : Card.lookup card partitionType = .error .entries := by
        simp [Card.lookup, hlong, hsound, hlayout]
      obtain ⟨d', -, hfind⟩ := findPartition_of_sound partitionType hlong' hsound hserves
      rw [hfind, hlookup, Card.visitEntries_of_not_laidOut hlong' hlayout]
      rfl
  · have hlookup : Card.lookup card partitionType = .error .header := by
      simp [Card.lookup, hlong, hsound]
    rw [hlookup, findPartition_of_unsound partitionType hlong' hsound hserves]
    rfl

/-- A lookup finds what the card gives. -/
theorem findPartition_of_gives {partitionType : Guid} {found : Extent}
    (hserves : Device.Serves medium card d) (hcard : card.length < UInt64.size)
    (hgives : Card.Gives card partitionType found) :
    ((findPartition medium partitionType).run d).result = .ok found := by
  have hlookup := (Card.lookup_eq_ok hcard).mpr hgives
  have hnone : Card.lookup card partitionType = .error .read →
      Device.EndsAt medium card.length d := by
    intro hread
    cases hlookup.symm.trans hread
  rw [findPartition_eq partitionType hserves hnone hcard, hlookup]
  rfl

/-- **A lookup is a parse of the whole card.** On a medium that holds a card, and whose reads past
the end of the card fail, the result of a lookup is the one that the card as a whole determines: an
extent, or else the first thing that is wrong. And it is an extent exactly if the table is sound and
this is the extent of the first used entry of the type. -/
theorem findPartition_parses (hserves : Device.Serves medium card d)
    (hends : Device.EndsAt medium card.length d) (hcard : card.length < UInt64.size) :
    ((findPartition medium partitionType).run d).result =
        lookupResult (Card.lookup card partitionType) ∧
      ∀ found, ((findPartition medium partitionType).run d).result = .ok found ↔
        Card.Gives card partitionType found := by
  have hresult := findPartition_eq partitionType hserves (fun _ => hends) hcard
  refine ⟨hresult, fun found => ?_⟩
  rw [hresult, ← Card.lookup_eq_ok hcard]
  rcases Card.lookup card partitionType with cause | extent <;>
    simp [lookupResult, Except.mapError]

end lookup

namespace Bench

variable {m : Media} {content : Bytes}

/-- Media whose contents are known serve them. -/
theorem media_serves (h : m.content medium = some content) : Device.Serves medium content m := by
  intro m' hm' offset buffer hwithin
  have hread := media_answersBy m m' hm' medium offset buffer
  have hbytes : m.bytesAt medium offset buffer.length =
      .ok ((content.drop offset).take buffer.length) := by
    simp [Media.bytesAt, h, hwithin]
  rw [hbytes] at hread
  exact hread

/-- Media whose contents are known end where these end. -/
theorem media_endsAt (h : m.content medium = some content) :
    Device.EndsAt medium content.length m := by
  intro m' hm' offset buffer hpast
  have hread := media_answersBy m m' hm' medium offset buffer
  have hfault : m.bytesAt medium offset buffer.length = .error "OutOfRange" := by
    simp [Media.bytesAt, h, Nat.not_le.mpr hpast]
  rw [hfault] at hread
  have hfault' : (Device.read m' medium offset buffer).fault = some "OutOfRange" := hread
  rw [hfault']
  exact Option.some_ne_none _

/-- A used entry of the type that holds a boot image, for the blocks from 3 to 10. -/
def tableEntry : Bytes :=
  bootPartitionType.bytes ++ List.replicate 16 1 ++ toLE 8 3 ++ toLE 8 10 ++ List.replicate 80 0

/-- A card up to the checksum of its table's header. -/
def tableStart : Bytes :=
  List.replicate 512 0 ++ TableHeader.signature ++ toLE 4 0x10000 ++ toLE 4 92

/-- The fields of a header between its two checksums: it is in block 1, and its one entry of 128
bytes is in block 2. -/
def tableFields : Bytes :=
  List.replicate 4 0 ++ toLE 8 1 ++ List.replicate 40 0 ++ toLE 8 2 ++ toLE 4 1 ++ toLE 4 128

/-- The checksum of the header. -/
def tableChecksum : UInt32 :=
  Crc32.checksum (tableStart.drop 512 ++ [0, 0, 0, 0] ++
    (tableFields ++ toLE 4 (Crc32.checksum tableEntry).toNat))

/-- A card after its table's header: the entry array, and a partition that starts with an image. -/
def tableRest : Bytes :=
  List.replicate 420 0 ++ tableEntry ++ List.replicate 384 0 ++ (Pipeline.claiming 272).bytes

/-- A card with one partition. -/
def tableCard : Bytes :=
  tableStart ++ (toLE 4 tableChecksum.toNat ++ (tableFields ++
    (toLE 4 (Crc32.checksum tableEntry).toNat ++ tableRest)))

/-- The header of the card is sound. -/
theorem headerSound_tableCard : Card.HeaderSound tableCard where
  signature := by decide +kernel
  placed := by decide +kernel
  intact := by
    have hstored : word32 tableCard (Card.headerOffset + 16) = tableChecksum := by
      have hbefore : tableStart.length = Card.headerOffset + 16 := by decide +kernel
      rw [tableCard, ← hbefore]
      exact Header.word32_append _ _ _
    have hstart : Card.bytesAt tableCard Card.headerOffset 16 = tableStart.drop 512 := by
      decide +kernel
    have hrest : Card.bytesAt tableCard (Card.headerOffset + 20) 72 =
        tableFields ++ toLE 4 (Crc32.checksum tableEntry).toNat := by
      have hbefore : (tableStart ++ toLE 4 tableChecksum.toNat).length =
          Card.headerOffset + 20 := by decide +kernel
      have hcard : tableCard = tableStart ++ toLE 4 tableChecksum.toNat ++
          (tableFields ++ toLE 4 (Crc32.checksum tableEntry).toNat ++ tableRest) := by
        simp only [tableCard, List.append_assoc]
      rw [Card.bytesAt, hcard, ← hbefore, List.drop_left]
      exact List.take_left' (by decide +kernel)
    rw [hstored, hstart, hrest, tableChecksum]

/-- The checksum of its entries holds. -/
theorem arrayIntact_tableCard : Card.ArrayIntact tableCard := by
  have harray : Card.array tableCard = tableEntry := by decide +kernel
  have hstored : word32 tableCard (Card.headerOffset + 88) = Crc32.checksum tableEntry := by
    have hcard : tableCard = tableStart ++ toLE 4 tableChecksum.toNat ++ tableFields ++
        (toLE 4 (Crc32.checksum tableEntry).toNat ++ tableRest) := by
      simp only [tableCard, List.append_assoc]
    have hbefore : (tableStart ++ toLE 4 tableChecksum.toNat ++ tableFields).length =
        Card.headerOffset + 88 := by decide +kernel
    rw [hcard, ← hbefore]
    exact Header.word32_append _ _ _
  rw [Card.ArrayIntact, harray, hstored]

/-- It gives the extent of its one partition. -/
theorem gives_tableCard : Card.Gives tableCard bootPartitionType ⟨3, 10⟩ where
  long := by decide +kernel
  header := headerSound_tableCard
  layout := by decide +kernel
  complete := by decide +kernel
  intact := arrayIntact_tableCard
  entry := by
    have hcount : 0 < Card.entryCount tableCard := by decide +kernel
    have hmatches : Card.Matches tableCard bootPartitionType 0 := by decide +kernel
    exact ⟨0, hcount, hmatches, by simp, by decide +kernel⟩

/-- It is 1808 bytes long, and all of them have addresses. -/
theorem length_tableCard_lt : tableCard.length < UInt64.size := by
  have hlength : tableCard.length = 1808 := by decide +kernel
  rw [hlength]
  decide

/-- The partition of the card is found. -/
theorem findPartition_tableCard :
    ((findPartition .mmc bootPartitionType).run (Media.none.set .mmc tableCard)).result =
      .ok ⟨3, 10⟩ := by
  have hcontent : (Media.none.set .mmc tableCard).content .mmc = some tableCard := rfl
  obtain ⟨-, hgives⟩ := findPartition_parses bootPartitionType (media_serves hcontent)
    (media_endsAt hcontent) length_tableCard_lt
  exact (hgives ⟨3, 10⟩).mpr gives_tableCard

end Bench

end BootImage
