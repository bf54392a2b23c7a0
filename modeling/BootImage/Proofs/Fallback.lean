import BootImage.Proofs.CopyAnswers
import BootImage.Proofs.Lookup

/-!
# A lookup that finds nothing does not end an acquisition

A copy from a partition is a lookup and then, whatever came of it, a copy from a block medium. The
lookup only decides where that copy starts: where the partition starts, or at the start of the card
if there is none or if it starts at no 64-bit offset.

* `TableCopy.run_acquire` — the two parts one after the other, with the message between them. The
  copy goes on from the device that the lookup left, with scratch header and target as they were.
* `TableCopy.offset_following` — where the copy starts.
* `TableCopy.acquire_falls_back` — what this comes to. On a medium that answers a read as it did
  before (`Device.Stable`) a failed lookup leaves no trace in result, scratch header and target.
-/

namespace BootImage

open Attempt

variable {δ : Type} [Device δ]

/-! ### The two parts -/

namespace TableCopy

variable (c : TableCopy) (w : Workspace δ)

/-- The lookup of a copy from a partition. -/
def lookedUp : Ran δ Extent := (findPartition c.medium c.partitionType).run w.device

/-- The workspace that the lookup leaves: only its device has changed. -/
def afterLookup : Workspace δ := { w with device := (c.lookedUp w).state }

/-- The copy that the lookup leads to. -/
def following : BlockCopy :=
  ⟨c.medium, match (c.lookedUp w).result with
    | .ok extent => offsetOf extent.first
    | .error _ => 0⟩

/-- What is logged of a lookup. -/
def report : Except Stop Extent → List Event
  | .ok extent => [.logged (.partitionFound extent.first extent.last)]
  | .error (.failed cause) => [.logged (.lookupFailed cause)]
  | .error _ => []

/-- **A copy from a partition is the lookup, a message about it, and the copy that it leads to.** -/
theorem run_acquire : c.acquire.run w =
    ⟨((c.following w).acquire.run (c.afterLookup w)).result,
      (c.lookedUp w).trace ++ (report (c.lookedUp w).result ++
        ((c.following w).acquire.run (c.afterLookup w)).trace),
      ((c.following w).acquire.run (c.afterLookup w)).state⟩ := by
  have hkeeps := findPartition_keeps c.medium c.partitionType (.refl (d := w.device))
  have hon : (Workspace.onDevice (findPartition c.medium c.partitionType)).run w =
      ⟨(c.lookedUp w).result, (c.lookedUp w).trace, c.afterLookup w⟩ := rfl
  rcases hresult : (c.lookedUp w).result with stop | extent
  · obtain ⟨cause, rfl⟩ := hkeeps.fails stop hresult
    rw [hresult] at hon
    have hzero : offsetOf 0 = 0 := by decide
    simp only [acquire, run_bind, run_caught_of_failed hon, firstLba, run_log, continueWith_ok,
      run_pure, hzero, following, hresult, report, List.append_nil]
  · rw [hresult] at hon
    simp only [acquire, run_bind, run_caught_of_ok hon, firstLba, run_log, continueWith_ok,
      run_pure, following, hresult, report, List.append_nil]

/-- The lookup finds no partition, or one that starts at no 64-bit offset. -/
def FindsNoStart : Prop :=
  ∀ extent, (c.lookedUp w).result = .ok extent → UInt64.size ≤ extent.first.toNat * blockSize

variable {c w}

/-- The offset of a block that a card has is that of the block. -/
theorem toNat_offsetOf {lba : UInt64} (h : lba.toNat * blockSize < UInt64.size) :
    (offsetOf lba).toNat = lba.toNat * blockSize := by
  rw [offsetOf, if_pos h]
  exact UInt64.toNat_ofNat_of_lt' h

/-- The copy starts where the partition starts. -/
theorem offset_following {extent : Extent} (hfound : (c.lookedUp w).result = .ok extent)
    (hoffset : extent.first.toNat * blockSize < UInt64.size) :
    (c.following w).offset.toNat = extent.first.toNat * blockSize := by
  have hfollowing : c.following w = ⟨c.medium, offsetOf extent.first⟩ := by
    rw [following, hfound]
  rw [hfollowing]
  exact toNat_offsetOf hoffset

/-- Without a partition, or with one that starts too far behind, the copy starts with the card. -/
theorem following_of_findsNoStart (h : c.FindsNoStart w) : c.following w = ⟨c.medium, 0⟩ := by
  rcases hresult : (c.lookedUp w).result with stop | extent
  · rw [following, hresult]
  · have hzero : offsetOf extent.first = 0 := if_neg (Nat.not_lt.mpr (h extent hresult))
    simp only [following, hresult, hzero]

end TableCopy

/-! ### Stable media -/

/-- Whatever was read before, a read of a medium is answered as it is now. The answer may depend on
what is in the buffer, and a read that fails may leave anything there. -/
def Device.Stable (medium : BlockMedium) (d : δ) : Prop :=
  ∀ d', Reaches d d' → ∀ offset buffer,
    (read d' medium offset buffer).fault = (read d medium offset buffer).fault ∧
      (read d' medium offset buffer).buffer = (read d medium offset buffer).buffer

/-- Reads from two states of a device whose medium is stable are answered alike. -/
theorem Device.Stable.like {medium : BlockMedium} {d d₁ d₂ : δ} (h : Stable medium d)
    (h₁ : Reaches d d₁) (h₂ : Reaches d d₂) (offset : Nat) (buffer : Bytes) :
    (read d₁ medium offset buffer).Like (read d₂ medium offset buffer) := by
  obtain ⟨hfault₁, hbuffer₁⟩ := h d₁ h₁ offset buffer
  obtain ⟨hfault₂, hbuffer₂⟩ := h d₂ h₂ offset buffer
  exact ⟨by rw [hfault₁, hfault₂], hbuffer₁.trans hbuffer₂.symm⟩

/-- Copies from a stable medium come to the same before and after other reads. -/
theorem BlockCopy.sameOutcome_of_stable {c : BlockCopy} {w w' : Workspace δ}
    (hstable : Device.Stable c.medium w.device) (hreach : Device.Reaches w.device w'.device)
    (hw : w'.SameRegions w) : SameOutcome (c.acquire.run w') (c.acquire.run w) := by
  have hheader : (c.headerAnswer w').Like (c.headerAnswer w) := by
    rw [headerAnswer, headerAnswer, hw.scratch]
    exact hstable.like hreach .refl _ _
  refine sameOutcome hw hheader fun _ => ?_
  rw [imageAnswer, imageAnswer, claimed_like hw hheader, hw.target]
  exact hstable.like (hreach.read _ _ _) (.read _ _ _ .refl) _ _

/-! ### The copy as a whole -/

/-- **A lookup that finds nothing does not end an acquisition.** A copy from a partition is the
lookup, a message about it, and a copy from a block medium on the device that the lookup left, with
scratch header and target untouched. That copy starts where the partition starts, if there is one
and this is a 64-bit offset, and at the start of the card in every other case. So the result is
never a failed lookup; and on a stable medium, in every such other case, result, scratch header and
target are those of a copy from the start of the card. -/
theorem TableCopy.acquire_falls_back (c : TableCopy) (w : Workspace δ) :
    c.acquire.run w = ⟨((c.following w).acquire.run (c.afterLookup w)).result,
        (c.lookedUp w).trace ++ (report (c.lookedUp w).result ++
          ((c.following w).acquire.run (c.afterLookup w)).trace),
        ((c.following w).acquire.run (c.afterLookup w)).state⟩ ∧
      (∀ extent, (c.lookedUp w).result = .ok extent →
        extent.first.toNat * blockSize < UInt64.size →
          (c.following w).medium = c.medium ∧
            (c.following w).offset.toNat = extent.first.toNat * blockSize) ∧
      (c.FindsNoStart w → c.following w = ⟨c.medium, 0⟩) ∧
      (∀ cause, (c.acquire.run w).result ≠ .error (.failed (.partitionLookup cause))) ∧
      (Device.Stable c.medium w.device → c.FindsNoStart w →
        (c.acquire.run w).result = ((BlockCopy.mk c.medium 0).acquire.run w).result ∧
          (c.acquire.run w).state.scratch =
            ((BlockCopy.mk c.medium 0).acquire.run w).state.scratch ∧
          (c.acquire.run w).state.target =
            ((BlockCopy.mk c.medium 0).acquire.run w).state.target) := by
  have hrun := c.run_acquire w
  refine ⟨hrun, ?_, following_of_findsNoStart, ?_, ?_⟩
  · intro extent hfound hoffset
    exact ⟨rfl, offset_following hfound hoffset⟩
  · intro cause
    rw [hrun]
    exact BlockCopy.ne_partitionLookup _ _ cause
  · intro hstable hnone
    have hreach : Device.Reaches w.device (c.afterLookup w).device :=
      (findPartition_keeps c.medium c.partitionType .refl).state
    have hsame := BlockCopy.sameOutcome_of_stable (c := ⟨c.medium, 0⟩) (w := w) hstable hreach
      ⟨rfl, rfl⟩
    rw [hrun, following_of_findsNoStart hnone]
    exact ⟨hsame.result, hsame.scratch, hsame.target⟩

namespace Bench

/-- Media whose contents are known are stable. -/
theorem media_stable (m : Media) (medium : BlockMedium) : Device.Stable medium m := by
  intro m' hm' offset buffer
  rw [media_of_reaches hm']
  exact ⟨rfl, rfl⟩

/-- A copy from the boot partition of a card. -/
def fromPartition : TableCopy := ⟨.mmc, bootPartitionType⟩

/-- A workspace with a card. -/
def withCard (card : Bytes) : Workspace Media :=
  ⟨Media.none.set .mmc card, Header.zero, List.replicate 300 0xEE⟩

/-- A card without a partition table, that starts with an image. -/
def bareCard : Bytes := (Pipeline.claiming 272).bytes

/-- The copy from a card with a partition starts where the partition starts. A card without a table
is copied from its start. -/
theorem copies_from_cards :
    (fromPartition.following (withCard tableCard)).offset.toNat = 1536 ∧
      fromPartition.FindsNoStart (withCard bareCard) ∧
      (fromPartition.acquire.run (withCard bareCard)).result =
        ((BlockCopy.mk .mmc 0).acquire.run (withCard bareCard)).result ∧
      (fromPartition.acquire.run (withCard bareCard)).state.target =
        ((BlockCopy.mk .mmc 0).acquire.run (withCard bareCard)).state.target := by
  have hfound : (fromPartition.lookedUp (withCard tableCard)).result = .ok ⟨3, 10⟩ :=
    findPartition_of_gives (media_serves rfl) length_tableCard_lt gives_tableCard
  have hshort : bareCard.length < 1024 := by
    rw [bareCard, Header.length_bytes]
    decide
  have hnone : fromPartition.FindsNoStart (withCard bareCard) := by
    intro extent hextent
    have hends : Device.EndsAt .mmc bareCard.length (withCard bareCard).device := media_endsAt rfl
    have hunread := Card.read_of_short hends hshort
    rw [TableCopy.lookedUp, findPartition] at hextent
    cases hextent.symm.trans (congrArg Ran.result (run_bind_of_error hunread))
  obtain ⟨-, hstart, -, -, -⟩ :=
    TableCopy.acquire_falls_back fromPartition (withCard tableCard)
  obtain ⟨-, -, -, -, hsame⟩ := TableCopy.acquire_falls_back fromPartition (withCard bareCard)
  obtain ⟨hresult, -, htarget⟩ := hsame (media_stable _ _) hnone
  have hmedium : fromPartition.medium = .mmc := rfl
  rw [hmedium] at hresult htarget
  have hoffset : (3 : UInt64).toNat * blockSize = 1536 := by decide
  exact ⟨(hstart ⟨3, 10⟩ hfound (by decide)).2.trans hoffset, hnone, hresult, htarget⟩

end Bench

end BootImage
