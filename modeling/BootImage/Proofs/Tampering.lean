import BootImage.Proofs.Burst
import BootImage.Proofs.Fallback

/-!
# Corrupted partition tables

A lookup that found a partition has checked two checksums: that of the table's header, and that of
the entry array. A burst of at most four bytes within a part of the header breaks the first of them,
and one within the array breaks the second. By then the lookup may have collected an extent, from
the array before the burst or with the burst in it; it is thrown away.

* `EntryArray.walk_ok` — a walk that comes to its end has read all of its blocks, by induction on
  how many are left. `Card.readable_of_found` — so a lookup that finds a partition has read a table
  in full, and its entries are intact.
* `Card.not_headerSound_of_burst`, `Card.not_arrayIntact_of_burst` — what a burst breaks, and
  `Card.Readable.of_behind` — what a burst behind the header leaves as it was.
* `TableCopy.fallsBack` — a copy from a partition that is not found is the copy from the start of
  the card.
* `tampering_detected` — the three together.

Nothing is assumed of the number of bytes of a card. A card may be larger than there are 64-bit
offsets, and then the lookup succeeds only if the entry array lies below the last of them.
-/

namespace BootImage

open Attempt

variable {δ ω : Type} [Device δ] {medium : BlockMedium} {card card' : Bytes} {d d' : δ}

/-! ### What a lookup that succeeds has read -/

/-- **A walk that comes to its end has read all of its blocks**, by induction on how many are
left. -/
theorem EntryArray.walk_ok {array : EntryArray} {visit : ω → PartitionEntry → ω}
    (hfits : array.Fits) (blocks : Nat) {s : δ × ω}
    (hserves : Device.Serves array.medium card s.1)
    (hends : Device.EndsAt array.medium card.length s.1) {remaining offset : Nat}
    {register register' : UInt32} {buffer : Bytes} (hbuffer : buffer.length = blockSize)
    (hok : ((array.walk visit blocks remaining offset register buffer).run s).result =
      .ok register') :
    blocks = 0 ∨ offset + blocks * blockSize ≤ card.length ∧
      offset + blocks * blockSize < UInt64.size := by
  induction blocks generalizing s remaining offset register buffer with
  | zero => exact .inl rfl
  | succ blocks ih =>
    right
    rw [Nat.succ_mul]
    by_cases hhere : offset + blockSize ≤ card.length
    · by_cases hnext : offset + blockSize < UInt64.size
      · rw [run_walk hfits hserves hhere hnext hbuffer, continueWith_ok] at hok
        have hreach : Device.Reaches s.1 (Device.read s.1 array.medium offset buffer).device :=
          .read _ _ _ .refl
        have hlen : ((card.drop offset).take blockSize).length = blockSize := length_window hhere
        rcases ih (hserves.reaches hreach) (hends.reaches hreach) hlen hok with rfl | hrest
        · omega
        · omega
      · -- the block is read, but there is no offset for the next one
        have hwithin : offset + buffer.length ≤ card.length := by rwa [hbuffer]
        have hfault := (hserves s.1 .refl offset buffer hwithin).1
        rw [run_walk_succ hfits blocks remaining offset register hbuffer] at hok
        simp [hfault, nextBlock, hnext] at hok
    · rw [walk_of_past_here hends (Nat.lt_of_not_le hhere) hbuffer] at hok
      cases hok

namespace Card

/-- The table of a card has a sound header, and an entry array that can be read in full. -/
structure Readable (card : Bytes) : Prop where
  long : 1024 ≤ card.length
  header : HeaderSound card
  layout : LaidOut card
  offset : arrayOffset card < UInt64.size
  complete : Complete card
  addressable : Addressable card

/-- **A lookup that finds a partition has read a table in full, and its entries are intact.** -/
theorem readable_of_found {partitionType : Guid} {found : Extent}
    (hserves : Device.Serves medium card d) (hends : Device.EndsAt medium card.length d)
    (hfound : ((findPartition medium partitionType).run d).result = .ok found) :
    Readable card ∧ ArrayIntact card := by
  have hlong : 1024 ≤ card.length := by
    by_contra hshort
    rw [findPartition, run_bind_of_error (read_of_short hends (Nat.lt_of_not_le hshort))] at hfound
    cases hfound
  have hsound : HeaderSound card := by
    by_contra hunsound
    rw [findPartition_of_unsound partitionType hlong hunsound hserves] at hfound
    cases hfound
  obtain ⟨d', hreach, hfind⟩ := findPartition_of_sound partitionType hlong hsound hserves
  -- the visit of the entries came to its end
  obtain ⟨⟨⟩, hvisit⟩ : ∃ a, (((header card).visitEntries medium
      (Extent.keepFirst partitionType)).run (d', none)).result = .ok a := by
    rcases hvisit : (((header card).visitEntries medium
      (Extent.keepFirst partitionType)).run (d', none)).result with stop | a
    · rw [hvisit, hfound] at hfind
      cases hfind
    · exact ⟨a, rfl⟩
  have hlayout : LaidOut card ∧ arrayOffset card < UInt64.size := by
    by_contra hnot
    rw [visitEntries_of_not_laidOut hlong hnot] at hvisit
    cases hvisit
  rw [run_visitEntries hlong hlayout.1 hlayout.2] at hvisit
  obtain ⟨register, hwalk, -⟩ := result_bind_eq_ok.mp hvisit
  rw [walk_header hlong] at hwalk
  have hblocks := EntryArray.walk_ok
    (TableHeader.fits_array ((hasEntryLayout_header hlong).mpr hlayout.1.size) medium)
    (arrayBlocks card) (hserves.reaches hreach) (hends.reaches hreach) (List.length_replicate ..)
    hwalk
  have hreadable : Readable card := ⟨hlong, hsound, hlayout.1, hlayout.2,
    hblocks.imp_right And.left, hblocks.imp_right And.right⟩
  refine ⟨hreadable, ?_⟩
  by_contra hdamaged
  rw [findPartition_of_complete partitionType hlong hsound hlayout.1 hlayout.2
    hreadable.complete hreadable.addressable hserves, if_neg hdamaged] at hfound
  cases hfound

/-! ### Bursts in the header -/

/-- The window is within one part of the header: before its stored checksum, in it, or after it. -/
def WithinHeader (pos len : Nat) : Prop :=
  headerOffset ≤ pos ∧ pos + len ≤ headerOffset + 16 ∨
    headerOffset + 16 ≤ pos ∧ pos + len ≤ headerOffset + 20 ∨
    headerOffset + 20 ≤ pos ∧ pos + len ≤ headerOffset + TableHeader.size

variable {pos len : Nat}

/-- **A burst in one part of a sound header breaks it.** -/
theorem not_headerSound_of_burst (hlong : 1024 ≤ card.length) (hsound : HeaderSound card)
    (hburst : BurstAt pos len card card') (h4 : len ≤ 4) (hpart : WithinHeader pos len) :
    ¬ HeaderSound card' := by
  have hlong' : 1024 ≤ card'.length := hlong.trans_eq hburst.length_eq.symm
  have hsize : TableHeader.size = 92 := rfl
  unfold WithinHeader at hpart
  have hbytes : BurstAt (pos - headerOffset) len (header card).bytes (header card').bytes := by
    rw [bytes_header hlong, bytes_header hlong']
    exact hburst.cut (by omega) (by omega)
  have hroom : 16 + 4 ≤ (header card).bytes.length := by
    rw [(header card).length_bytes]
    decide
  have hpart' : pos - headerOffset + len ≤ 16 ∨
      16 ≤ pos - headerOffset ∧ pos - headerOffset + len ≤ 16 + 4 ∨
      16 + 4 ≤ pos - headerOffset := by omega
  have hintact := ((headerSound_iff_header hlong).mp hsound).2.2
  intro hsound'
  exact Crc32.breaks_of_burst hbytes hroom h4 hpart' hintact
    ((headerSound_iff_header hlong').mp hsound').2.2

/-! ### Bursts behind the header -/

section behind

variable (hburst : BurstAt pos len card card') (hbehind : 1024 ≤ pos)

include hburst hbehind

/-- What is behind the header does not change its words. -/
theorem word32_of_behind {place : Nat} (hplace : place + 4 ≤ 1024) :
    word32 card' place = word32 card place :=
  hburst.word32_eq (.inr (hplace.trans hbehind))

/-- Nor any other of its bytes. -/
theorem bytesAt_of_behind {offset length : Nat} (hplace : offset + length ≤ 1024) :
    bytesAt card' offset length = bytesAt card offset length :=
  hburst.cut_eq (.inl (hplace.trans hbehind))

/-- Nor its longer words. -/
theorem word64_of_behind {place : Nat} (hplace : place + 8 ≤ 1024) :
    word64 card' place = word64 card place :=
  congrArg (fun bytes => UInt64.ofNat (ofLE bytes)) (bytesAt_of_behind hburst hbehind hplace)

/-- So the number of entries is the same. -/
theorem entryCount_of_behind : entryCount card' = entryCount card :=
  congrArg UInt32.toNat (word32_of_behind hburst hbehind (by decide))

/-- So is their size. -/
theorem entrySize_of_behind : entrySize card' = entrySize card :=
  congrArg UInt32.toNat (word32_of_behind hburst hbehind (by decide))

/-- So is the place of their array. -/
theorem arrayOffset_of_behind : arrayOffset card' = arrayOffset card := by
  rw [arrayOffset, arrayOffset, word64_of_behind hburst hbehind (by decide)]

/-- So is the length of the array. -/
theorem arrayLength_of_behind : arrayLength card' = arrayLength card := by
  rw [arrayLength, arrayLength, entryCount_of_behind hburst hbehind,
    entrySize_of_behind hburst hbehind]

/-- So is the number of its blocks. -/
theorem arrayBlocks_of_behind : arrayBlocks card' = arrayBlocks card := by
  rw [arrayBlocks, arrayBlocks, arrayLength_of_behind hburst hbehind]

/-- The header is sound if it was. -/
theorem headerSound_of_behind (h : HeaderSound card) : HeaderSound card' where
  signature := by
    rw [bytesAt_of_behind hburst hbehind (by decide)]
    exact h.signature
  placed := by
    rw [word64_of_behind hburst hbehind (by decide)]
    exact h.placed
  intact := by
    rw [bytesAt_of_behind hburst hbehind (by decide), bytesAt_of_behind hburst hbehind (by decide),
      word32_of_behind hburst hbehind (by decide)]
    exact h.intact

/-- **A burst behind the header leaves the table one that can be read in full.** -/
theorem Readable.of_behind (h : Readable card) : Readable card' where
  long := h.long.trans_eq hburst.length_eq.symm
  header := headerSound_of_behind hburst hbehind h.header
  layout := by
    rw [laidOut_iff, entrySize_of_behind hburst hbehind, arrayLength_of_behind hburst hbehind]
    exact (laidOut_iff card).mp h.layout
  offset := by
    rw [arrayOffset_of_behind hburst hbehind]
    exact h.offset
  complete := by
    rw [Complete, arrayBlocks_of_behind hburst hbehind, arrayOffset_of_behind hburst hbehind,
      hburst.length_eq]
    exact h.complete
  addressable := by
    rw [Addressable, arrayBlocks_of_behind hburst hbehind, arrayOffset_of_behind hburst hbehind]
    exact h.addressable

/-- **A burst in an intact entry array breaks it.** -/
theorem not_arrayIntact_of_burst (hintact : ArrayIntact card) (h4 : len ≤ 4)
    (hfirst : arrayOffset card ≤ pos) (hlast : pos + len ≤ arrayOffset card + arrayLength card) :
    ¬ ArrayIntact card' := by
  have harray : BurstAt (pos - arrayOffset card) len (array card) (array card') := by
    rw [array, array, arrayOffset_of_behind hburst hbehind, arrayLength_of_behind hburst hbehind]
    exact hburst.cut hfirst hlast
  have hstored : word32 card' (headerOffset + 88) = word32 card (headerOffset + 88) :=
    word32_of_behind hburst hbehind (by decide)
  unfold ArrayIntact at hintact ⊢
  rw [hstored, ← hintact]
  exact Crc32.checksum_ne_of_burst harray h4

end behind

end Card

/-! ### Copies from a partition that is not found -/

/-- A read leaves the device as it was. -/
def Device.Steady (d : δ) : Prop := ∀ medium offset buffer, (read d medium offset buffer).device = d

/-- A steady device does not change. -/
theorem Device.Steady.reaches (h : Device.Steady d) (hr : Device.Reaches d d') : d' = d := by
  induction hr with
  | refl => rfl
  | read medium offset buffer _ ih => rw [ih, h]

namespace TableCopy

section copy

variable (c : TableCopy) (w : Workspace δ)

/-- The copy from the start of the card, once the lookup has been made. -/
def fallback : Ran (Workspace δ) Nat :=
  (BlockCopy.acquire ⟨c.medium, 0⟩).run { w with device := (c.lookedUp w).state }

/-- A copy from a partition falls back, since the lookup failed for this cause. -/
structure FallsBack (cause : Error) : Prop where
  /-- It is the lookup, a message about it, and the copy from the start of the card. -/
  copies : c.acquire.run w = ⟨(c.fallback w).result,
    (c.lookedUp w).trace ++ .logged (.lookupFailed cause) :: (c.fallback w).trace,
    (c.fallback w).state⟩
  /-- The lookup does not matter to that copy unless it matters to the device. -/
  steady : Device.Steady w.device →
    c.fallback w = (BlockCopy.acquire ⟨c.medium, 0⟩).run w

end copy

/-- **A copy from a partition that is not found is the copy from the start of the card.** -/
theorem fallsBack {c : TableCopy} {w : Workspace δ} {cause : Error}
    (hfailed : (c.lookedUp w).result = .error (.failed cause)) : c.FallsBack w cause where
  copies := by
    have hfollowing : c.following w = ⟨c.medium, 0⟩ := by
      apply following_of_findsNoStart
      intro extent hfound
      cases hfailed.symm.trans hfound
    have hreport : report (c.lookedUp w).result = [.logged (.lookupFailed cause)] := by
      rw [hfailed]
      rfl
    rw [run_acquire, hfollowing, hreport]
    rfl
  steady := by
    intro hsteady
    have hreach := (findPartition_keeps c.medium c.partitionType (.refl (d := w.device))).state
    have hstate : (c.lookedUp w).state = w.device := hsteady.reaches hreach
    rw [fallback, hstate]

end TableCopy

/-! ### Tampering -/

/-- Whatever type is looked for on a card, the lookup fails for this cause, and a copy from a
partition of the type is the copy from the start of the card. -/
structure FindsNothing (medium : BlockMedium) (d : δ) (cause : PartitionError) : Prop where
  lookup : ∀ partitionType, ((findPartition medium partitionType).run d).result =
    .error (.failed (.partitionLookup cause))
  copy : ∀ partitionType (w : Workspace δ), w.device = d →
    (TableCopy.mk medium partitionType).FallsBack w (.partitionLookup cause)

/-- If lookups of all types fail alike, nothing is found. -/
theorem findsNothing_of_lookup {cause : PartitionError}
    (hlookup : ∀ partitionType, ((findPartition medium partitionType).run d).result =
      .error (.failed (.partitionLookup cause))) : FindsNothing medium d cause where
  lookup := hlookup
  copy := by
    rintro partitionType w rfl
    exact TableCopy.fallsBack (hlookup partitionType)

/-- **A corrupted partition table is always caught.** Let a partition be found on a card, with the
entry array behind the header's block, and let another card differ from it by a burst of at most
four bytes. If the burst lies within one part of the header, every lookup on the other card says
that the header is wrong. If it lies within the entry array, every lookup says that the entries
are. In either case every copy from a partition is the copy from the start of the card. -/
theorem tampering_detected {partitionType : Guid} {found : Extent} {pos len : Nat}
    (hserves : Device.Serves medium card d) (hends : Device.EndsAt medium card.length d)
    (hfound : ((findPartition medium partitionType).run d).result = .ok found)
    (hoffset : 2 * blockSize ≤ Card.arrayOffset card)
    (hserves' : Device.Serves medium card' d')
    (hburst : BurstAt pos len card card') (h4 : len ≤ 4) :
    (Card.WithinHeader pos len → FindsNothing medium d' .header) ∧
      (Card.arrayOffset card ≤ pos → pos + len ≤ Card.arrayOffset card + Card.arrayLength card →
        FindsNothing medium d' .entries) := by
  obtain ⟨hreadable, hintact⟩ := Card.readable_of_found hserves hends hfound
  constructor
  · intro hpart
    have hunsound := Card.not_headerSound_of_burst hreadable.long hreadable.header hburst h4 hpart
    have hlong' := hreadable.long.trans_eq hburst.length_eq.symm
    exact findsNothing_of_lookup fun soughtType =>
      findPartition_of_unsound soughtType hlong' hunsound hserves'
  · intro hfirst hlast
    have hbehind : 1024 ≤ pos := hoffset.trans hfirst
    have hreadable' := hreadable.of_behind hburst hbehind
    have hdamaged := Card.not_arrayIntact_of_burst hburst hbehind hintact h4 hfirst hlast
    refine findsNothing_of_lookup fun soughtType => ?_
    rw [findPartition_of_complete soughtType hreadable'.long hreadable'.header hreadable'.layout
      hreadable'.offset hreadable'.complete hreadable'.addressable hserves', if_neg hdamaged]

namespace Bench

/-- The card up to a field of its header that means nothing. -/
def beforeReserved : Bytes := tableStart ++ toLE 4 tableChecksum.toNat

/-- The rest of it, after the first byte of that field. -/
def afterReserved : Bytes :=
  tableFields.drop 1 ++ (toLE 4 (Crc32.checksum tableEntry).toNat ++ tableRest)

/-- The card with another byte in that field. -/
def restampedCard : Bytes := beforeReserved ++ ([1] ++ afterReserved)

/-- The card up to the first block of its entry. -/
def beforeBlock : Bytes :=
  tableStart ++ toLE 4 tableChecksum.toNat ++ tableFields ++
    toLE 4 (Crc32.checksum tableEntry).toNat ++ List.replicate 420 0 ++ bootPartitionType.bytes ++
    List.replicate 16 1

/-- The rest of it, after the lowest byte of that block. -/
def afterBlock : Bytes :=
  List.replicate 7 0 ++ toLE 8 10 ++ List.replicate 80 0 ++ List.replicate 384 0 ++
    (Pipeline.claiming 272).bytes

/-- The card whose entry says that its partition starts one block later. -/
def redirectedCard : Bytes := beforeBlock ++ ([4] ++ afterBlock)

/-- One byte in the reserved part of the header differs. -/
theorem burst_restampedCard : BurstAt 532 1 tableCard restampedCard := by
  have hpos : beforeReserved.length = 532 := by decide +kernel
  have hfields : tableFields = [0] ++ tableFields.drop 1 := by decide
  have hcard : tableCard = beforeReserved ++ ([0] ++ afterReserved) := by
    rw [tableCard, hfields]
    simp only [beforeReserved, afterReserved, List.append_assoc]
  have hsame : ([1] : Bytes).length = ([0] : Bytes).length := rfl
  have hne : ([1] : Bytes) ≠ [0] := by decide
  rw [hcard, ← hpos]
  exact .of_append beforeReserved hsame hne afterReserved

/-- One byte of the number of the partition's first block differs. -/
theorem burst_redirectedCard : BurstAt 1056 1 tableCard redirectedCard := by
  have hpos : beforeBlock.length = 1056 := by decide +kernel
  have hblock : toLE 8 3 = [3] ++ List.replicate 7 0 := by decide
  have hcard : tableCard = beforeBlock ++ ([3] ++ afterBlock) := by
    simp only [tableCard, tableRest, tableEntry, beforeBlock, afterBlock, hblock,
      List.append_assoc]
  have hsame : ([4] : Bytes).length = ([3] : Bytes).length := rfl
  have hne : ([4] : Bytes) ≠ [3] := by decide
  rw [hcard, ← hpos]
  exact .of_append beforeBlock hsame hne afterBlock

/-- A change of a byte that means nothing is caught, and so is a change of an entry that is still of
the type that is looked for. -/
theorem altered_cards_detected : Card.Gives tableCard bootPartitionType ⟨3, 10⟩ ∧
    FindsNothing .mmc (Media.none.set .mmc restampedCard) .header ∧
      FindsNothing .mmc (Media.none.set .mmc redirectedCard) .entries := by
  have hserves (card : Bytes) : Device.Serves .mmc card (Media.none.set .mmc card) :=
    media_serves rfl
  have hends : Device.EndsAt .mmc tableCard.length (Media.none.set .mmc tableCard) :=
    media_endsAt rfl
  have hcard := length_tableCard_lt
  have hfound := findPartition_of_gives (hserves tableCard) hcard gives_tableCard
  have hoffset : 2 * blockSize ≤ Card.arrayOffset tableCard := by decide +kernel
  refine ⟨gives_tableCard, ?_, ?_⟩
  · exact (tampering_detected (hserves tableCard) hends hfound hoffset (hserves restampedCard)
      burst_restampedCard (by decide)).1 (.inr (.inr (by decide)))
  · exact (tampering_detected (hserves tableCard) hends hfound hoffset (hserves redirectedCard)
      burst_redirectedCard (by decide)).2 (by decide +kernel) (by decide +kernel)

end Bench

end BootImage
