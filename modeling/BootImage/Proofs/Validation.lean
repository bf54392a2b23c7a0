import BootImage.Pipeline.Boot
import BootImage.Proofs.Contract

/-!
# What validation decides

An image is valid if it has room for a header, has the plain magic word, and its stored checksum is
that of the header's bytes with the checksum field zeroed (`Valid`). All three are said of the
image's bytes, so validity is a property of a byte string and of the checksum primitive.

* `Header.bytes_zeroed` — the header that the check computes on has the bytes that `Valid` speaks
  of.
* `validation` — every validation takes one of four courses, each given with its result, its trace
  and its state, which it never changes.
* `validate_eq_ok` — validation succeeds exactly for valid images, and gives the header at their
  start.
-/

namespace BootImage

open Attempt

/-! ### The fields of a header as bytes of its image -/

/-- The word at a place before the end of a cut is that of the whole. -/
theorem word32_take {bs : Bytes} {n pos : Nat} (h : pos + 4 ≤ n) :
    word32 (bs.take n) pos = word32 bs pos := by
  rw [word32, word32, List.drop_take, List.take_take, Nat.min_eq_left (by omega)]

/-- Leaving out the end does not change a word before it. -/
theorem word64_take {bs : Bytes} {n pos : Nat} (h : pos + 8 ≤ n) :
    word64 (bs.take n) pos = word64 bs pos := by
  rw [word64, word64, List.drop_take, List.take_take, Nat.min_eq_left (by omega)]

/-- The bytes of an image that the checksum of its header covers: the header with the checksum
field zeroed. -/
def checkedBytes (image : Bytes) : Bytes :=
  image.take 4 ++ List.replicate 4 0 ++ (image.take Header.size).drop 8

/-- The part of an image that its header claims, as far as it is there. -/
def claimedPart (image : Bytes) : Bytes := image.take (min (word64 image 8).toNat image.length)

namespace Header

/-- A header with the checksum field zeroed. -/
def zeroed (h : Header) : Header := { h with checksum := 0 }

/-- A checksum written into a header is four of its bytes, and the others stay as they are. -/
theorem bytes_with_checksum (h : Header) (c : UInt32) :
    ({ h with checksum := c } : Header).bytes =
      h.bytes.take 4 ++ toLE 4 c.toNat ++ h.bytes.drop 8 := by
  have h4 : h.bytes.take 4 = toLE 4 h.magic.toNat := by
    rw [bytes, List.append_assoc, List.append_assoc]
    exact List.take_left' (length_toLE 4 _)
  have h8 : h.bytes.drop 8 = toLE 8 h.length.toNat ++ h.name := by
    rw [bytes, List.append_assoc]
    exact List.drop_left' (by simp)
  rw [h4, h8, bytes]
  simp only [List.append_assoc]

/-- The header at the start of an image does not depend on what comes after it. -/
theorem ofBytes_append {image : Bytes} (hlong : size ≤ image.length) (rest : Bytes) :
    ofBytes (image ++ rest) = ofBytes image := by
  have hlong' : size ≤ (image ++ rest).length := by
    rw [List.length_append]
    omega
  have hfit : fit size (image ++ rest) = fit size image := by
    rw [fit_of_le hlong, fit_of_le hlong', List.take_append_of_le_length hlong]
  simp only [ofBytes, hfit]

variable {image : Bytes} (hlen : size ≤ image.length)

include hlen

/-- The magic word comes first in a header. -/
theorem magic_ofBytes : (ofBytes image).magic = word32 image 0 := by
  rw [← word32_take (show 0 + 4 ≤ size by decide), ← fit_of_le hlen]
  rfl

/-- The checksum comes after it. -/
theorem checksum_ofBytes : (ofBytes image).checksum = word32 image 4 := by
  rw [← word32_take (show 4 + 4 ≤ size by decide), ← fit_of_le hlen]
  rfl

/-- The claimed length comes third. -/
theorem length_ofBytes : (ofBytes image).length = word64 image 8 := by
  rw [← word64_take (show 8 + 8 ≤ size by decide), ← fit_of_le hlen]
  rfl

/-- The zeroed header at the start of an image has the bytes that its checksum covers. -/
theorem bytes_zeroed : (ofBytes image).zeroed.bytes = checkedBytes image := by
  have htake : (image.take size).take 4 = image.take 4 := by
    rw [List.take_take]
    rfl
  rw [zeroed, bytes_with_checksum, bytes_ofBytes, fit_of_le hlen, htake]
  rfl

end Header

/-! ### Validity -/

/-- The events of a validation: checksums, and messages that do not say of a change of stage. -/
def Event.OfValidation : Event → Prop
  | logged message => ∀ old new, message ≠ .stage old new
  | checksum _ _ => True
  | _ => False

/-- Messages about changes of stage are the ones left out. -/
@[simp] theorem Event.ofValidation_logged (message : Message) :
    (logged message).OfValidation ↔ ∀ old new, message ≠ .stage old new := Iff.rfl

/-- Checksums are among the events of a validation. -/
@[simp] theorem Event.ofValidation_checksum (input : Bytes) (value : UInt32) :
    (checksum input value).OfValidation := trivial

/-- An image that may be launched. -/
structure Valid (crc : Checksum) (image : Bytes) : Prop where
  /-- It has room for a header. -/
  long : Header.size ≤ image.length
  /-- Its magic word is the plain one. -/
  plain : word32 image 0 = Header.plainMagic
  /-- Its stored checksum is that of the bytes that it covers. -/
  intact : crc (checkedBytes image) = word32 image 4

/-- The check computes the checksum once, and leaves the header as it was. -/
theorem Header.run_checkChecksum (crc : Checksum) (h : Header) :
    (checkChecksum crc).run h =
      ⟨.ok (crc h.zeroed.bytes == h.checksum),
        .checksum h.zeroed.bytes (crc h.zeroed.bytes) ::
          (if crc h.zeroed.bytes = h.checksum then []
            else [.logged (.headerMismatch (crc h.zeroed.bytes) h.checksum)]), h⟩ := by
  have hrun : (checkChecksum crc).run h =
      continueWith ⟨.ok (crc h.zeroed.bytes), [.checksum h.zeroed.bytes (crc h.zeroed.bytes)],
        h.zeroed⟩ fun calculated => do
          if calculated = h.checksum then pure () else log (.headerMismatch calculated h.checksum)
          modify fun h' => { h' with checksum := h.checksum }
          return calculated == h.checksum := rfl
  rw [hrun, continueWith_ok]
  by_cases hcrc : crc h.zeroed.bytes = h.checksum
  · simp only [hcrc, if_true, run_bind, run_modify, continueWith_ok, run_pure]
    rfl
  · simp only [hcrc, if_false, run_bind, run_log, run_modify, continueWith_ok, run_pure]
    rfl

section validate

variable {σ : Type} (crc : Checksum) (image : Bytes) (wasUnpacked : Bool) (s : σ)

/-- The checksum of a header, as it is computed for the check. -/
def headerChecksum : Event := .checksum (checkedBytes image) (crc (checkedBytes image))

/-- What is said of an image that fails the check: the two checksums, and for the log that of the
whole image, as far as it is there. -/
def failureReport : List Event :=
  [.logged (.headerMismatch (crc (checkedBytes image)) (word32 image 4)),
    .logged (.imageFailed wasUnpacked)] ++
  (if image.length < (word64 image 8).toNat then
    [.logged (.shortImage (word64 image 8).toNat image.length)] else []) ++
  [.checksum (claimedPart image) (crc (claimedPart image)),
    .logged (.imageChecksum (crc (claimedPart image)))]

/-- The courses that a validation can take. -/
inductive Validation : Ran σ Header → Prop
  /-- The image is too short for a header. -/
  | headerless (hlen : image.length < Header.size) :
      Validation ⟨.error (.failed .acquisition), [], s⟩
  /-- The magic word is another than the plain one. -/
  | notPlain (hlen : Header.size ≤ image.length) (hmagic : word32 image 0 ≠ Header.plainMagic) :
      Validation ⟨.error (.failed (.magicMismatch (word32 image 0))),
        [.logged (.invalidMagic (word32 image 0))], s⟩
  /-- The checksum does not hold. -/
  | damaged (hlen : Header.size ≤ image.length) (hmagic : word32 image 0 = Header.plainMagic)
      (hcrc : crc (checkedBytes image) ≠ word32 image 4) :
      Validation ⟨.error (.failed .integrity),
        headerChecksum crc image :: failureReport crc image wasUnpacked, s⟩
  /-- The image is valid. -/
  | passed (hvalid : Valid crc image) :
      Validation ⟨.ok (Header.ofBytes image),
        [headerChecksum crc image, .logged (.imagePassed wasUnpacked)], s⟩

/-- The checksum of the whole image covers what the header claims, as far as it is there. -/
theorem Header.run_imageChecksum (h : Header) (hlength : h.length = word64 image 8) :
    (h.imageChecksum crc image).run s =
      ⟨.ok (crc (claimedPart image)),
        (if image.length < (word64 image 8).toNat then
          [.logged (.shortImage (word64 image 8).toNat image.length)] else []) ++
        [.checksum (claimedPart image) (crc (claimedPart image))], s⟩ := by
  have hcut : (cut image (min (word64 image 8).toNat image.length) : Attempt σ Bytes) =
      pure (claimedPart image) := cut_of_le (Nat.min_le_right _ _)
  have hshort : min (word64 image 8).toNat image.length < (word64 image 8).toNat ↔
      image.length < (word64 image 8).toNat := by omega
  unfold imageChecksum
  simp only [hlength, hcut, hshort, pure_bind]
  split_ifs <;> simp

/-- **Every validation takes one of the four courses.** -/
theorem validation : Validation crc image wasUnpacked s
    ((Pipeline.validate crc image wasUnpacked).run s) := by
  by_cases hlen : Header.size ≤ image.length
  · have hread : Header.read image = .ok (Header.ofBytes image) := if_pos hlen
    by_cases hmagic : word32 image 0 = Header.plainMagic
    · by_cases hcrc : crc (checkedBytes image) = word32 image 4
      · have h : Validation crc image wasUnpacked s _ := .passed ⟨hlen, hmagic, hcrc⟩
        simpa [Pipeline.validate, hread, Header.magic_ofBytes hlen, hmagic,
          Header.run_checkChecksum, Header.bytes_zeroed hlen, Header.checksum_ofBytes hlen, hcrc,
          headerChecksum, Except.map] using h
      · have h : Validation crc image wasUnpacked s _ := .damaged hlen hmagic hcrc
        have hlength := Header.length_ofBytes hlen
        simpa [Pipeline.validate, hread, Header.magic_ofBytes hlen, hmagic,
          Header.run_checkChecksum, Header.bytes_zeroed hlen, Header.checksum_ofBytes hlen, hcrc,
          headerChecksum, Header.run_imageChecksum crc image _ _ hlength, failureReport,
          Except.map] using h
    · have h : Validation crc image wasUnpacked s _ := .notPlain hlen hmagic
      simpa [Pipeline.validate, hread, Header.magic_ofBytes hlen, hmagic] using h
  · have hread : Header.read image = .error .acquisition := if_neg hlen
    have h : Validation crc image wasUnpacked s _ := .headerless (Nat.lt_of_not_le hlen)
    simpa [Pipeline.validate, hread] using h

/-- **Validation succeeds exactly for valid images**, and gives the header at their start. -/
theorem validate_eq_ok {header : Header} :
    ((Pipeline.validate crc image wasUnpacked).run s).result = .ok header ↔
      Valid crc image ∧ header = Header.ofBytes image := by
  rcases hrun : (Pipeline.validate crc image wasUnpacked).run s with ⟨result, t, s'⟩
  have h := validation crc image wasUnpacked s
  rw [hrun] at h
  constructor
  · rintro rfl
    cases h with
    | passed hvalid => exact ⟨hvalid, rfl⟩
  · rintro ⟨hvalid, rfl⟩
    cases h with
    | headerless hlen => exact absurd hvalid.long (Nat.not_le_of_lt hlen)
    | notPlain hlen hmagic => exact absurd hvalid.plain hmagic
    | damaged hlen hmagic hcrc => exact absurd hvalid.intact hcrc
    | passed _ => rfl

/-- Validation logs and computes checksums, and changes no state. -/
theorem validate_keeps : ((Pipeline.validate crc image wasUnpacked).run s).Keeps Event.OfValidation
    (· = s) fun header _ => Valid crc image ∧ header = Header.ofBytes image := by
  rcases hrun : (Pipeline.validate crc image wasUnpacked).run s with ⟨result, t, s'⟩
  have h := validation crc image wasUnpacked s
  rw [hrun] at h
  cases h with
  | headerless hlen => exact .failed (by simp) rfl
  | notPlain hlen hmagic => exact .failed (by simp) rfl
  | damaged hlen hmagic hcrc =>
    refine .failed ?_ rfl
    unfold headerChecksum failureReport
    split_ifs
    · simp
    · simp
  | passed hvalid => exact .ok (by simp [headerChecksum]) rfl ⟨hvalid, rfl⟩

end validate

end BootImage
