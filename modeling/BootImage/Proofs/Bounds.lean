import BootImage.Proofs.Outcome
import BootImage.Proofs.Utf8

/-!
# Nothing goes out of range

Regions have ends and words have sizes. Whatever could go past them is one of the checked
operations, which stop out of range where they would not fit. From a state where a step does not
stop so it is in range (`Attempt.InRange`).

* `Ran.Keeps.inRange` — a step that keeps a contract is in range.
* `inRange_bind`, `inRange_caught` — a larger step is in range exactly if the steps in it that it
  gets to are. So no step out of range is hidden in a larger one, not even where failures are
  caught.
* `always_in_range` — an attempt, an acquisition and the bytes of its result, a validation, the
  checksum of an image and a lookup are in range from every state. The lengths that they cut by come
  from headers, partition tables and decompressors, which can say anything.
-/

namespace BootImage

open Attempt

variable {σ α β ω : Type}

namespace Attempt

/-- From this state the step does not go out of range. -/
def InRange (x : Attempt σ α) (s : σ) : Prop := (x.run s).result ≠ .error .outOfRange

/-- A cut is in range if it ends within its region. -/
@[simp] theorem inRange_cut {region : Bytes} {n : Nat} {s : σ} :
    (cut region n).InRange s ↔ n ≤ region.length := by
  unfold InRange cut
  split_ifs with h <;> simp [h]

/-- A composition is in range if its first part is, and its second part is from where the first part
ends. -/
theorem inRange_bind {x : Attempt σ α} {f : α → Attempt σ β} {s : σ} :
    (x >>= f).InRange s ↔
      x.InRange s ∧ ∀ a, (x.run s).result = .ok a → (f a).InRange (x.run s).state := by
  unfold InRange
  rcases hres : (x.run s).result with stop | a
  · simp [run_bind_of_error hres]
  · simp [run_bind_of_ok hres]

/-- Catching failures does not hide a step out of range. -/
@[simp] theorem inRange_caught {x : Attempt σ α} {s : σ} : (caught x).InRange s ↔ x.InRange s := by
  unfold InRange
  rcases hres : (x.run s).result with (cause | _ | _) | a <;>
    simp_all [caught, run]

end Attempt

/-- A step that keeps a contract is in range. -/
theorem Ran.Keeps.inRange {x : Attempt σ α} {s : σ} {events : Event → Prop} {reached : σ → Prop}
    {post : α → σ → Prop} (h : (x.run s).Keeps events reached post) : x.InRange s := by
  intro hout
  obtain ⟨cause, hcause⟩ := h.fails _ hout
  cases hcause

/-! ### The parts of an attempt -/

section parts

variable {δ ζ ℓ : Type} [Device δ] [Decompressor ζ] [Launcher ℓ]

/-- A call of `boot` is in range. It catches the failures of its attempt, and the attempt is in
range. -/
theorem Pipeline.boot_inRange (p : Pipeline δ ζ ℓ) : boot.InRange p := by
  refine inRange_bind.mpr ⟨by simp [InRange], fun _ _ => ?_⟩
  refine inRange_bind.mpr ⟨inRange_caught.mpr (attempt_inRange p), ?_⟩
  rintro (cause | _) _
  · simp [InRange, advance, Except.map]
  · simp [InRange]

/-- An acquisition is in range, and so is the cut of the image that it says it acquired. -/
theorem Source.acquire_inRange (source : Source) (w : Workspace δ) :
    (source.acquire >>= fun location => get >>= fun w' => location.image w'.target).InRange w := by
  have hkeeps := source.acquire_keeps w
  refine inRange_bind.mpr ⟨hkeeps.inRange, ?_⟩
  intro location hlocation
  refine inRange_bind.mpr ⟨by simp [InRange], ?_⟩
  intro w' hw'
  cases hw'
  have hfits := (hkeeps.value location hlocation).fits
  simp [InRange, Location.image_of_fits hfits]

/-- The checksum of an image covers no more than there is of it, whatever a header claims. -/
theorem Header.imageChecksum_inRange (h : Header) (crc : Checksum) (image : Bytes) (s : σ) :
    (h.imageChecksum crc image).InRange s := by
  have hsum (s : σ) :
      (cut image (min h.length.toNat image.length) >>= checksumWith crc).InRange s :=
    inRange_bind.mpr ⟨inRange_cut.mpr (Nat.min_le_right _ _), by simp [InRange]⟩
  simp only [Header.imageChecksum]
  split_ifs
  · exact inRange_bind.mpr ⟨by simp [InRange], fun _ _ => hsum _⟩
  · exact hsum s

/-- **Nothing goes out of range, whatever the input.** Whatever a pipeline was built with and left
with, whatever its device and its decompressor answer, whatever an image and its header are: no cut
ends after the end of its region, no region is overwritten with a source of another length, no
result is too large for its word or below zero, and nothing is divided by zero. The set name of any
header lies within its field. -/
theorem always_in_range (p : Pipeline δ ζ ℓ) (source : Source) (w : Workspace δ) (crc : Checksum)
    (image : Bytes) (wasUnpacked : Bool) (header : Header) (medium : BlockMedium)
    (partitionType : Guid) (table : TableHeader) (visit : ω → PartitionEntry → ω) (d : δ)
    (collected : ω) (s : σ) :
    Pipeline.boot.InRange p ∧
      (source.acquire >>= fun location =>
        get >>= fun w' => location.image w'.target).InRange w ∧
      (Pipeline.validate crc image wasUnpacked).InRange s ∧
      (header.imageChecksum crc image).InRange s ∧
      (findPartition medium partitionType).InRange d ∧
      (table.visitEntries medium visit).InRange (d, collected) ∧
      header.setNameBytes <+: header.name := by
  refine ⟨Pipeline.boot_inRange p, source.acquire_inRange w, ?_, ?_, ?_, ?_, ?_⟩
  · exact (validate_keeps crc image wasUnpacked s).inRange
  · exact header.imageChecksum_inRange crc image s
  · exact (findPartition_keeps medium partitionType .refl).inRange
  · exact (table.visitEntries_keeps medium visit .refl).inRange
  · exact header.setNameBytes_prefix.trans (List.takeWhile_prefix _)

end parts

end BootImage
