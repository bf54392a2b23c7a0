import BootImage.PartitionTable.Lookup
import BootImage.Proofs.BlockCopy

/-!
# What a partition lookup can do

A lookup reads blocks and logs, whatever the device answers, and none of its checked operations
goes out of range. That takes two facts about the entry array: a slot is long enough for an entry,
and the slots that are used of a block lie in the block (`EntryArray.Fits`).

* `EntryArray.run_walk_succ` — one block of a walk, without the checked operations.
* `EntryArray.walk_keeps` — by induction on the blocks that are left.
* `TableHeader.visitEntries_eq` — the checks that come before the walk, and the one after it.
* `findPartition_keeps` — the lookup as a whole.
-/

namespace BootImage

open Attempt

variable {δ ω : Type} [Device δ]

/-- Every slot cut from a string that has room for all of them has the slot's full size. -/
theorem length_of_mem_slots {slotSize n : Nat} {bs slot : Bytes} (hlen : n * slotSize ≤ bs.length)
    (hmem : slot ∈ slots slotSize n bs) : slot.length = slotSize := by
  induction n generalizing bs with
  | zero => cases hmem
  | succ n ih =>
    rw [Nat.succ_mul] at hlen
    rcases List.mem_cons.mp hmem with rfl | hmem
    · rw [List.length_take]
      omega
    · refine ih ?_ hmem
      rw [List.length_drop]
      omega

/-- The check of a table's header logs at most. -/
theorem TableHeader.check_keeps {σ : Type} {reached : σ → Prop} (h : TableHeader) {s : σ}
    (hs : reached s) : (h.check.run s).Keeps Event.OfAcquisition reached fun _ _ => True := by
  unfold TableHeader.check
  split_ifs <;> exact Ran.Keeps.ok (by simp) hs trivial

/-- The header is read with one read. -/
theorem TableHeader.read_keeps (medium : BlockMedium) {d₀ d : δ} (h : Device.Reaches d₀ d) :
    ((TableHeader.read medium).run d).Keeps Event.OfAcquisition (Device.Reaches d₀)
      fun _ _ => True := by
  unfold TableHeader.read
  refine (Device.fetch_keeps h medium blockSize _).bind ?_
  rintro ⟨block, _ | fault⟩ d' hd hlen
  · have hcut : (cut block TableHeader.size : Attempt δ Bytes) =
        pure (block.take TableHeader.size) := by
      apply cut_of_le
      rw [hlen, List.length_replicate]
      decide
    simp only [hcut, pure_bind]
    exact .ok (by simp) hd trivial
  · exact .failed (by simp) hd

/-- The entry at the start of a slot. -/
def PartitionEntry.ofSlot (slot : Bytes) : PartitionEntry := ofBytes (slot.take size)

omit [Device δ] in
/-- Handing entries to a visitor changes nothing but what the visitor collects. -/
theorem run_visitSlots (visit : ω → PartitionEntry → ω) {ss : List Bytes}
    (hsize : ∀ slot ∈ ss, PartitionEntry.size ≤ slot.length) (s : δ × ω) :
    (visitSlots visit ss).run s =
      ⟨.ok (), [], (s.1, (ss.map PartitionEntry.ofSlot).foldl visit s.2)⟩ := by
  induction ss generalizing s with
  | nil => rfl
  | cons slot ss ih =>
    have hcut : (cut slot PartitionEntry.size : Attempt (δ × ω) Bytes) =
        pure (slot.take PartitionEntry.size) := cut_of_le (hsize slot List.mem_cons_self)
    have hrest := ih fun slot' hmem => hsize slot' (List.mem_cons_of_mem _ hmem)
    simp only [visitSlots, hcut, pure_bind, run_bind, run_modify, continueWith_ok, hrest,
      List.map_cons, List.foldl_cons, List.nil_append]
    rfl

namespace EntryArray

/-- An entry fits its slot, and a block has room for the slots that are taken from it. -/
structure Fits (array : EntryArray) : Prop where
  entry : PartitionEntry.size ≤ array.entrySize
  block : array.perBlock * array.entrySize ≤ blockSize

/-- The number of slots that are used of a block. -/
def used (array : EntryArray) (remaining : Nat) : Nat := min array.perBlock remaining

variable {array : EntryArray} {visit : ω → PartitionEntry → ω}

/-- The bytes of the slots used of a block are within the block, however many remain. -/
theorem Fits.used_le (h : array.Fits) (remaining : Nat) :
    array.used remaining * array.entrySize ≤ blockSize :=
  Nat.le_trans (Nat.mul_le_mul_right _ (Nat.min_le_left _ _)) h.block

/-- **One block of a walk.** The slots that are used of it are visited and taken in, and the walk
goes on with those that remain. -/
theorem run_walk_succ (hfits : array.Fits) (blocks remaining offset : Nat) (register : UInt32)
    {buffer : Bytes} (hbuffer : buffer.length = blockSize) (s : δ × ω) :
    (array.walk visit (blocks + 1) remaining offset register buffer).run s =
      continueWith ⟨.ok (Device.read s.1 array.medium offset buffer),
        [.read array.medium offset blockSize],
        ((Device.read s.1 array.medium offset buffer).device, s.2)⟩ (fun answer =>
          match answer.fault with
          | some fault => failWith (.entriesUnreadable offset fault) (.partitionLookup .read)
          | none => do
            modify fun st => (st.1, ((slots array.entrySize (array.used remaining)
              (answer.buffer.take (array.used remaining * array.entrySize))).map
                PartitionEntry.ofSlot).foldl visit st.2)
            let next ← nextBlock offset
            array.walk visit blocks (remaining - array.used remaining) next
              (Crc32.update register
                (answer.buffer.take (array.used remaining * array.entrySize))) answer.buffer) := by
  have hblock := (Device.length_read s.1 array.medium offset buffer).trans hbuffer
  rw [walk, run_bind, run_on, Device.run_fetch, hbuffer]
  generalize Device.read s.1 array.medium offset buffer = answer at hblock
  obtain ⟨_ | fault, block, d⟩ := answer
  · -- The checked operations on this block do not go out of range, so they are plain values.
    have hused := hfits.used_le remaining
    have hcount : min array.perBlock remaining = array.used remaining := rfl
    have hword : (word (array.used remaining * array.entrySize) : Attempt (δ × ω) Nat) =
        pure (array.used remaining * array.entrySize) :=
      word_of_lt (Nat.lt_of_le_of_lt hused (by decide))
    have hcut : (cut block (array.used remaining * array.entrySize) : Attempt (δ × ω) Bytes) =
        pure (block.take (array.used remaining * array.entrySize)) :=
      cut_of_le (hused.trans_eq hblock.symm)
    have hdiff : (difference remaining (array.used remaining) : Attempt (δ × ω) Nat) =
        pure (remaining - array.used remaining) := difference_of_le (Nat.min_le_right _ _)
    have hslots : ∀ slot ∈ slots array.entrySize (array.used remaining)
        (block.take (array.used remaining * array.entrySize)),
        PartitionEntry.size ≤ slot.length := by
      intro slot hslot
      have hlen : array.used remaining * array.entrySize ≤
          (block.take (array.used remaining * array.entrySize)).length := by
        rw [List.length_take, hblock]
        omega
      rw [length_of_mem_slots hlen hslot]
      exact hfits.entry
    have hvisit := fun st : δ × ω => run_visitSlots visit hslots st
    simp only [continueWith_ok, hcount, hword, hcut, hdiff, pure_bind, run_bind, run_modify, hvisit]
  · rfl

/-- The walk over the blocks, by induction on how many are left. -/
theorem walk_keeps (hfits : array.Fits) (visit : ω → PartitionEntry → ω) (blocks : Nat)
    {remaining offset : Nat} {register : UInt32} {buffer : Bytes} {d₀ : δ} {s : δ × ω}
    (hs : Device.Reaches d₀ s.1) (hbuffer : buffer.length = blockSize) :
    ((array.walk visit blocks remaining offset register buffer).run s).Keeps Event.OfAcquisition
      (fun st => Device.Reaches d₀ st.1) fun _ _ => True := by
  induction blocks generalizing remaining offset register buffer s with
  | zero => exact .ok (by simp) hs trivial
  | succ blocks ih =>
    have hblock := (Device.length_read s.1 array.medium offset buffer).trans hbuffer
    have hread := hs.read array.medium offset buffer
    rw [run_walk_succ hfits blocks remaining offset register hbuffer]
    refine Ran.Keeps.next (by simp) ?_
    rcases (Device.read s.1 array.medium offset buffer).fault with _ | fault
    · refine Ran.Keeps.next (by simp) ?_
      unfold nextBlock
      split_ifs
      · exact ih hread hblock
      · exact .failed (by simp) hread
    · exact .failed (by simp) hread

end EntryArray

namespace TableHeader

/-- The number of bytes of the entry array. -/
def arrayLength (h : TableHeader) : Nat := h.entryCount.toNat * h.entrySize.toNat

/-- The length of the array has 64 bits, since its factors have 32. -/
theorem arrayLength_lt (h : TableHeader) : h.arrayLength < UInt64.size := by
  calc h.entryCount.toNat * h.entrySize.toNat
    _ < 2 ^ 32 * 2 ^ 32 := Nat.mul_lt_mul'' h.entryCount.toNat_lt h.entrySize.toNat_lt
    _ = UInt64.size := by decide

/-- The entry array, as it is walked. -/
def array (h : TableHeader) (medium : BlockMedium) : EntryArray :=
  ⟨medium, h.entrySize.toNat, blockSize / h.entrySize.toNat⟩

/-- The walk over all of the entry array. -/
def walk (h : TableHeader) (medium : BlockMedium) (visit : ω → PartitionEntry → ω) :
    Attempt (δ × ω) UInt32 :=
  (h.array medium).walk visit ((h.arrayLength + (blockSize - 1)) / blockSize) h.entryCount.toNat
    (h.entriesLba.toNat * blockSize) Crc32.start (List.replicate blockSize 0)

/-- An entry array of an accepted layout fits its blocks. -/
theorem fits_array {h : TableHeader} (hlayout : h.hasEntryLayout = true) (medium : BlockMedium) :
    (h.array medium).Fits := by
  have hsize : h.entrySize = 128 ∨ h.entrySize = 256 ∨ h.entrySize = 512 := by
    simpa [hasEntryLayout, or_assoc] using hlayout
  constructor
  · change PartitionEntry.size ≤ h.entrySize.toNat
    rcases hsize with h' | h' | h' <;> rw [h'] <;> decide
  · exact Nat.div_mul_le_self _ _

/-- **The checks on an entry array, in their order.** What is left of a visit after them is the walk
and the comparison of the checksums. -/
theorem visitEntries_eq (h : TableHeader) (medium : BlockMedium) (visit : ω → PartitionEntry → ω) :
    (h.visitEntries medium visit : Attempt (δ × ω) Unit) =
      if h.hasEntryLayout then
        if h.arrayLength ≤ entryArrayMax then
          if h.entriesLba.toNat * blockSize < UInt64.size then do
            let register ← h.walk medium visit
            if Crc32.finish register = h.entriesChecksum then pure ()
            else failWith .entriesMismatch (.partitionLookup .entries)
          else fail (.partitionLookup .entries)
        else failWith (.entryArrayTooLarge h.arrayLength) (.partitionLookup .entries)
      else failWith .entryLayout (.partitionLookup .entries) := by
  have hword : (word (h.entryCount.toNat * h.entrySize.toNat) : Attempt (δ × ω) Nat) =
      pure h.arrayLength := word_of_lt h.arrayLength_lt
  by_cases hlayout : h.hasEntryLayout = true
  · have hsize : h.entrySize.toNat ≠ 0 := by
      have hentry : 128 ≤ h.entrySize.toNat := (fits_array hlayout medium).entry
      omega
    have hquotient : (quotient blockSize h.entrySize.toNat : Attempt (δ × ω) Nat) =
        pure (blockSize / h.entrySize.toNat) := quotient_of_ne hsize
    simp only [visitEntries, hlayout, if_true, hword, hquotient, pure_bind]
    split_ifs
    · rfl
    · rfl
    · rfl
    · rfl
  · simp only [visitEntries, hlayout]
    rfl

/-- A visit of the entries reads and logs. -/
theorem visitEntries_keeps (h : TableHeader) (medium : BlockMedium)
    (visit : ω → PartitionEntry → ω) {d₀ : δ} {s : δ × ω} (hs : Device.Reaches d₀ s.1) :
    ((h.visitEntries medium visit).run s).Keeps Event.OfAcquisition
      (fun st => Device.Reaches d₀ st.1) fun _ _ => True := by
  rw [visitEntries_eq]
  split_ifs with hlayout hlength hoffset
  · refine (EntryArray.walk_keeps (fits_array hlayout medium) visit _ hs
      (List.length_replicate ..)).bind ?_
    intro register s' hs' _
    split_ifs
    · exact .ok (by simp) hs' trivial
    · exact .failed (by simp) hs'
  · exact .failed (by simp) hs
  · exact .failed (by simp) hs
  · exact .failed (by simp) hs

end TableHeader

/-- **A lookup reads and logs, whatever the device answers, and never goes out of range.** -/
theorem findPartition_keeps (medium : BlockMedium) (partitionType : Guid) {d₀ d : δ}
    (hd : Device.Reaches d₀ d) :
    ((findPartition medium partitionType).run d).Keeps Event.OfAcquisition (Device.Reaches d₀)
      fun _ _ => True := by
  unfold findPartition
  refine (TableHeader.read_keeps medium hd).bind ?_
  intro header d₁ hd₁ _
  refine (header.check_keeps hd₁).bind ?_
  intro accepted d₂ hd₂ _
  cases accepted with
  | false => exact .failed (by simp) hd₂
  | true =>
    refine (header.visitEntries_keeps medium _ (s := (d₂, none)) hd₂).accumulating.bind ?_
    rintro ⟨_, _ | extent⟩ d₃ hd₃ _
    · exact .failed (by simp) hd₃
    · exact .ok (by simp) hd₃ trivial

end BootImage
