import BootImage.Proofs.Corruption
import BootImage.Proofs.Strategies

/-!
# The checksum of the header decides, and that of the image does not

An image states one checksum, in its header, and that covers the header. A second one is computed of
the whole image, for the log, once the first has failed. So what comes after the header of an image
has no say in what becomes of it, unless the launcher looks at it.

* `getElem?_checkedBytes` — the bytes that the first checksum is computed of.
* `checksums_of_prepared` — the calls of the checksum primitive are those of the validation.
* `SameFront` — images of one length with one header. They are valid alike, and what is registered
  of them is of one length (`Outcome.ofImage_sameFront`).
* `header_alone_gates` — the calls that an attempt makes (`Pipeline.ChecksumCalls`), and two
  attempts whose images differ after the header.
-/

namespace BootImage

open Attempt

/-! ### The bytes that are checked -/

section checked

variable {image : Bytes} (hlong : Header.size ≤ image.length)

include hlong

/-- The bytes that are checked are as many as a header has. -/
theorem length_checkedBytes : (checkedBytes image).length = Header.size := by
  have hsize : Header.size = 272 := rfl
  simp only [checkedBytes, List.length_append, List.length_take, List.length_replicate,
    List.length_drop]
  omega

/-- They are those of the header, with zeros for the stored checksum. -/
theorem getElem?_checkedBytes {i : Nat} (hi : i < Header.size) :
    (checkedBytes image)[i]? = if 4 ≤ i ∧ i < 8 then some 0 else image[i]? := by
  have hroom : 4 + 4 ≤ (image.take Header.size).length := by
    rw [List.length_take_of_le hlong]
    decide
  rw [checkedBytes_eq_zeroedAt, getElem?_zeroedAt hroom, List.getElem?_take_of_lt hi]

end checked

/-! ### Images with the same front -/

/-- Images of one length that start with the same bytes, as many as a header has. -/
structure SameFront (image image' : Bytes) : Prop where
  length : image.length = image'.length
  front : image.take Header.size = image'.take Header.size

namespace SameFront

variable {image image' : Bytes} (h : SameFront image image')

include h

/-- Images with the same front have the same words in their headers. -/
theorem word32_eq {pos : Nat} (hpos : pos + 4 ≤ Header.size) :
    word32 image pos = word32 image' pos := by
  rw [← word32_take hpos, h.front, word32_take hpos]

/-- That goes for longer words too. -/
theorem word64_eq {pos : Nat} (hpos : pos + 8 ≤ Header.size) :
    word64 image pos = word64 image' pos := by
  rw [← word64_take hpos, h.front, word64_take hpos]

/-- What is checked is in front. -/
theorem checkedBytes_eq : checkedBytes image = checkedBytes image' := by
  rw [checkedBytes_eq_zeroedAt, checkedBytes_eq_zeroedAt, h.front]

/-- One is valid exactly if the other one is. -/
theorem valid_iff (crc : Checksum) : Valid crc image ↔ Valid crc image' := by
  have hmagic : word32 image 0 = word32 image' 0 := h.word32_eq (by decide)
  have hstored : word32 image 4 = word32 image' 4 := h.word32_eq (by decide)
  constructor
  · rintro ⟨hlong, hplain, hintact⟩
    exact ⟨h.length ▸ hlong, hmagic ▸ hplain, hstored ▸ h.checkedBytes_eq ▸ hintact⟩
  · rintro ⟨hlong, hplain, hintact⟩
    exact ⟨h.length ▸ hlong, hmagic ▸ hplain, hstored ▸ h.checkedBytes_eq ▸ hintact⟩

/-- What the images claim have the same front, too. -/
theorem claimedPart : SameFront (claimedPart image) (claimedPart image') := by
  have hclaim : word64 image 8 = word64 image' 8 := h.word64_eq (by decide)
  have hcut : ∀ (n : Nat) (bs : Bytes),
      (bs.take n).take Header.size = (bs.take Header.size).take n := by
    intro n bs
    rw [List.take_take, List.take_take, Nat.min_comm]
  unfold BootImage.claimedPart
  rw [hclaim, h.length]
  constructor
  · rw [List.length_take, List.length_take, h.length]
  · rw [hcut, hcut, h.front]

end SameFront

/-- What a launcher replies by a flow does not depend on what comes after the header of the image
that it is handed. -/
def Launcher.IgnoresRest {ℓ : Type} [Launcher ℓ] (l : ℓ) (flow : BootFlow) : Prop :=
  ∀ image image', SameFront image image' → (flow.handOver l image).1 = (flow.handOver l image').1

/-- Outcomes with the same answer, the same final stage and registered images of the same
lengths. -/
structure Outcome.Like (o o' : Outcome) : Prop where
  answer : o.answer = o'.answer
  stage : o.stage = o'.stage
  lengths : o.registered.map List.length = o'.registered.map List.length

/-- What becomes of images with the same front is alike. -/
theorem Outcome.ofImage_sameFront {ℓ : Type} [Launcher ℓ] {image image' : Bytes}
    (h : SameFront image image') {launcher : ℓ} {flow : BootFlow}
    (hignores : Launcher.IgnoresRest launcher flow) (crc : Checksum) :
    Outcome.Like (ofImage crc launcher flow image) (ofImage crc launcher flow image') := by
  unfold ofImage
  by_cases hvalid : Valid crc image
  · rw [if_pos hvalid, if_pos ((h.valid_iff crc).mp hvalid),
      hignores _ _ h.claimedPart]
    have hlength := congrArg (fun n => [n]) h.claimedPart.length
    rcases (flow.handOver launcher (claimedPart image')).1 with _ | fault | _
    · exact ⟨rfl, rfl, hlength⟩
    · exact ⟨rfl, rfl, hlength⟩
    · exact ⟨rfl, rfl, hlength⟩
  · rw [if_neg hvalid, if_neg fun hvalid' => hvalid ((h.valid_iff crc).mpr hvalid')]
    exact ⟨rfl, rfl, rfl⟩

/-! ### The calls of the checksum -/

namespace Pipeline

variable {δ ζ ℓ : Type} [Device δ] [Decompressor ζ] [Launcher ℓ] {p : Pipeline δ ζ ℓ}

/-- A preparation computes no checksum. -/
theorem checksums_prepared (p : Pipeline δ ζ ℓ) :
    p.prepared.trace.filterMap Event.checksum? = [] := by
  refine (prepare_keeps p).filterMap_eq_nil ?_
  rintro e ⟨input, value⟩ hchecksum
  rw [Event.checksum?_eq_some.mp hchecksum]
  exact id

/-- Without a candidate no checksum is computed, and with one those of its check. -/
theorem checksums_of_unprepared {stop : Stop} (hprep : p.prepared.result = .error stop) :
    (boot.run p).trace.filterMap Event.checksum? = [] := by
  rw [filterMap_boot_of_unprepared (fun _ => rfl) hprep, checksums_prepared]

/-- With a candidate the checksums of an attempt are those of its check. -/
theorem checksums_of_prepared {c : Candidate} (hprep : p.prepared.result = .ok c) :
    (boot.run p).trace.filterMap Event.checksum? =
      (p.checked c).trace.filterMap Event.checksum? := by
  rw [filterMap_boot_of_prepared (fun _ => rfl) (fun _ _ => rfl) (fun _ => rfl) hprep,
    checksums_prepared, List.nil_append]

/-- A candidate that gets to the check of its header: it has room for a header and the plain magic
word. -/
structure Candidate.Checkable (c : Candidate) : Prop where
  long : Header.size ≤ c.image.length
  plain : word32 c.image 0 = Header.plainMagic

/-- What the checksum primitive is called on in an attempt, given the attempt's run. -/
structure ChecksumCalls (p : Pipeline δ ζ ℓ) (ran : Ran (Pipeline δ ζ ℓ) Bool) : Prop where
  /-- An attempt that fails before the check of a header makes no call. -/
  unchecked : (∀ c, p.Delivers c → ¬ c.Checkable) →
    ran.result = .ok false ∧ ran.trace.filterMap Event.checksum? = []
  /-- The bytes that a header is checked by are its own with the stored checksum zeroed. -/
  covered : ∀ c, p.Delivers c → c.Checkable → (checkedBytes c.image).length = 272 ∧
    ∀ i < 272, (checkedBytes c.image)[i]? = if 4 ≤ i ∧ i < 8 then some 0 else c.image[i]?
  /-- If their checksum is the stored one, the image is registered, and there is no other call. -/
  passed : ∀ c, p.Delivers c → c.Checkable → p.crc (checkedBytes c.image) = word32 c.image 4 →
    ran.trace.filterMap Event.registered? = [claimedPart c.image] ∧
      ran.trace.filterMap Event.checksum? =
        [(checkedBytes c.image, p.crc (checkedBytes c.image))]
  /-- If it is not, the attempt fails, after one more call, on what the image claims as it is. -/
  failed : ∀ c, p.Delivers c → c.Checkable → p.crc (checkedBytes c.image) ≠ word32 c.image 4 →
    FailsFor ran .integrity ∧
      ran.trace.filterMap Event.checksum? =
        [(checkedBytes c.image, p.crc (checkedBytes c.image)),
          (c.image.take (min (word64 c.image 8).toNat c.image.length),
            p.crc (c.image.take (min (word64 c.image 8).toNat c.image.length)))]

/-- The calls of an attempt are as they should be. -/
theorem checksumCalls_boot (p : Pipeline δ ζ ℓ) : p.ChecksumCalls (boot.run p) := by
  constructor
  case unchecked =>
    intro hnone
    rcases hprep : p.prepared.result with stop | c
    · exact ⟨(boot_of_no_reply (not_gets_of_unprepared hprep)).1, checksums_of_unprepared hprep⟩
    · have hnot := hnone c (prepare_eq_ok.mp hprep)
      have hvalid : ¬ Valid p.crc c.image := fun hvalid => hnot ⟨hvalid.long, hvalid.plain⟩
      refine ⟨(boot_of_no_reply (not_gets_of_not_valid hprep hvalid)).1, ?_⟩
      rw [checksums_of_prepared hprep]
      by_cases hlong : Header.size ≤ c.image.length
      · rw [checked_of_not_plain hlong fun hplain => hnot ⟨hlong, hplain⟩]
        rfl
      · rw [checked_of_short (Nat.lt_of_not_le hlong)]
        rfl
  case covered =>
    intro c _ hcheckable
    exact ⟨length_checkedBytes hcheckable.long, fun i => getElem?_checkedBytes hcheckable.long⟩
  case passed =>
    intro c hc hcheckable hcrc
    have hvalid : Valid p.crc c.image := ⟨hcheckable.long, hcheckable.plain, hcrc⟩
    have hprep := prepare_eq_ok.mpr hc
    have hregistered := congrArg Outcome.registered (outcome_of_prepared hprep)
    rw [Outcome.ofImage, if_pos hvalid] at hregistered
    refine ⟨hregistered.trans ?_, ?_⟩
    · cases (p.config.bootFlow.handOver p.launcher (claimedPart c.image)).1 <;> rfl
    · rw [checksums_of_prepared hprep, checked_of_valid hvalid]
      rfl
  case failed =>
    intro c hc hcheckable hcrc
    have hprep := prepare_eq_ok.mpr hc
    have hchecked := checked_of_damaged (p := p) hcheckable.long hcheckable.plain hcrc
    refine ⟨failsFor_of_not_checked hprep (by rw [hchecked]), ?_⟩
    rw [checksums_of_prepared hprep, hchecked, failureReport]
    split_ifs
    · rfl
    · rfl

/-- **The checksum of the header decides, and that of the image does not.** An attempt computes no
checksum before that of its image's header, and a second one, of the image, only once the first has
failed. Two attempts whose images have one length and one header, with any media, decompressors and
strategies, come to the same, and register as many bytes, if the launcher does not look further. -/
theorem header_alone_gates (p : Pipeline δ ζ ℓ) : p.ChecksumCalls (boot.run p) ∧
    ∀ {δ' ζ' : Type} [Device δ'] [Decompressor ζ'] (q : Pipeline δ' ζ' ℓ) (c c' : Candidate),
      p.Peers q → p.Delivers c → q.Delivers c' → SameFront c.image c'.image →
        Launcher.IgnoresRest p.launcher p.config.bootFlow →
          Outcome.Like (boot.run p).outcome (boot.run q).outcome := by
  refine ⟨checksumCalls_boot p, ?_⟩
  intro δ' ζ' _ _ q c c' hpeers hc hc' hfront hignores
  rw [outcome_of_prepared (prepare_eq_ok.mpr hc), outcome_of_prepared (prepare_eq_ok.mpr hc'),
    ← hpeers.crc, ← hpeers.launcher, ← hpeers.bootFlow]
  exact Outcome.ofImage_sameFront hfront hignores p.crc

/-- An image with one byte after its header, which it claims. -/
def tailed (last : UInt8) : Bytes := (claiming 273).bytes ++ [last]

/-- A board with nothing but such an image, linked. Every checksum is zero. -/
def tailedBoard (last : UInt8) : Pipeline Bench.Media Bench.Unpacker Bench.BenchLauncher :=
  ((new .none (.custom false) { BootConfig.default with payload := true } []).withPayload
    (tailed last)).withCrc (Bench.constantChecksum 0)

/-- The candidate of this board. -/
def tailedCandidate (last : UInt8) : Candidate :=
  ⟨.resident .payload (tailed last), tailed last, false⟩

/-- The board delivers its image as it is. -/
theorem delivers_tailedBoard (last : UInt8) :
    (tailedBoard last).Delivers (tailedCandidate last) := by
  have hheader : Header.size ≤ (claiming 273).bytes.length :=
    Nat.le_of_eq (Header.length_bytes _).symm
  have hlen : Header.size ≤ (tailed last).length := by
    rw [tailed, List.length_append]
    exact Nat.le_add_right_of_le hheader
  have hread : Header.ofBytes (tailed last) = claiming 273 := by
    rw [tailed, Header.ofBytes_append hheader, Header.ofBytes_bytes]
  have hmagic : word32 (tailed last) 0 = Header.plainMagic := by
    rw [← Header.magic_ofBytes hlen, hread]
    rfl
  have hrecognized : (Header.ofBytes (tailed last)).recognized = true := by
    rw [hread]
    rfl
  have huses : (tailedBoard last).Uses (.linked (tailed last)) := ⟨.payload, rfl, rfl⟩
  have hne : word32 (tailed last) 0 ≠ Header.compressedMagic := by
    rw [hmagic]
    decide
  exact .plain (acquires_linked huses hlen hrecognized) hne

/-- Two such boards differ in nothing but their images. -/
theorem peers_tailedBoard (last last' : UInt8) : (tailedBoard last).Peers (tailedBoard last') := by
  have hcrc : ∀ b, (tailedBoard b).crc = Bench.constantChecksum 0 := fun _ => rfl
  have hlauncher : ∀ b, (tailedBoard b).launcher = .custom false := fun _ => rfl
  have hflow : ∀ b, (tailedBoard b).config.bootFlow = BootConfig.default.bootFlow := fun _ => rfl
  exact ⟨by rw [hcrc, hcrc], by rw [hlauncher, hlauncher], by rw [hflow, hflow]⟩

/-- The last byte of the image is another one, and nobody notices. -/
theorem tailed_alike : tailed 1 ≠ tailed 2 ∧
    Outcome.Like (boot.run (tailedBoard 1)).outcome (boot.run (tailedBoard 2)).outcome ∧
    (boot.run (tailedBoard 1)).outcome = ⟨.ok true, .registered, [tailed 1]⟩ := by
  have hfront : SameFront (tailed 1) (tailed 2) := by
    have hheader : (claiming 273).bytes.length = Header.size := Header.length_bytes _
    constructor
    · simp [tailed]
    · rw [tailed, tailed, List.take_left' hheader, List.take_left' hheader]
  have hignores : Launcher.IgnoresRest (tailedBoard 1).launcher
      (tailedBoard 1).config.bootFlow := fun _ _ _ => rfl
  refine ⟨by decide +kernel, ?_, by decide +kernel⟩
  exact (header_alone_gates (tailedBoard 1)).2 (tailedBoard 2) (tailedCandidate 1)
    (tailedCandidate 2) (peers_tailedBoard 1 2) (delivers_tailedBoard 1) (delivers_tailedBoard 2)
    hfront hignores

end Pipeline

end BootImage
