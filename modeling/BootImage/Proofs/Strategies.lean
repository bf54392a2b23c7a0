import BootImage.Proofs.Offering

/-!
# The strategies agree

What a boot comes to, apart from how it reads and where it puts things, is its answer, its final
stage and the bytes that it registers (`Outcome`). For an image that claims just itself this is a
matter of the image, the checksum, the launcher and, if the image is compressed, the decompressor:
it is the same whichever strategy has the image to offer.

* `outcome_of_prepared` — the outcome is decided by the candidate's bytes.
* `outcome_of_unrecognized`, `outcome_of_plain`, `outcome_of_compressed` — the outcome for an
  offered image, by its magic word.
* `strategies_agree` — two boards that are offered the same image, each by a strategy of its own,
  have the same outcome. A plain image is registered as it is, whatever comes after it.
-/

namespace BootImage

open Attempt

/-- The bytes of an event that registers an image. -/
def Event.registered? : Event → Option Bytes
  | register _ image => some image
  | _ => none

/-- What a boot comes to. -/
structure Outcome where
  answer : Except Stop Bool
  stage : Stage
  /-- The images that were registered, in order. -/
  registered : List Bytes
  deriving DecidableEq

/-- What is seen of a call of `boot` without looking at its reads or at the places of images. -/
def Ran.outcome {δ ζ ℓ : Type} (ran : Ran (Pipeline δ ζ ℓ) Bool) : Outcome :=
  ⟨ran.result, ran.state.stage, ran.trace.filterMap Event.registered?⟩

instance (crc : Checksum) (image : Bytes) : Decidable (Valid crc image) :=
  decidable_of_iff (Header.size ≤ image.length ∧ word32 image 0 = Header.plainMagic ∧
    crc (checkedBytes image) = word32 image 4)
    ⟨fun h => ⟨h.1, h.2.1, h.2.2⟩, fun h => ⟨h.long, h.plain, h.intact⟩⟩

namespace Outcome

/-- The attempt failed before it got to the launcher. -/
def failed : Outcome := ⟨.ok false, .failed, []⟩

/-- The launcher has replied to an image. -/
def replied (image : Bytes) : LaunchReply → Outcome
  | .returned => ⟨.ok true, .registered, [image]⟩
  | .refused _ => ⟨.ok false, .failed, [image]⟩
  | .departed => ⟨.error .departed, .registered, [image]⟩

variable {ℓ : Type} [Launcher ℓ]

/-- What becomes of an image that is neither acquired nor unpacked any more: if it is valid, its
claimed part is registered and the launcher replies. -/
def ofImage (crc : Checksum) (launcher : ℓ) (flow : BootFlow) (image : Bytes) : Outcome :=
  if Valid crc image then
    replied (claimedPart image) (flow.handOver launcher (claimedPart image)).1
  else failed

/-- What becomes of an image that is there only if it could be unpacked. -/
def ofImage? (crc : Checksum) (launcher : ℓ) (flow : BootFlow) : Option Bytes → Outcome
  | some image => ofImage crc launcher flow image
  | none => failed

end Outcome

/-- What a decompressor makes of an image, if its claim is accepted. -/
def Behaviour.unpack? (b : Behaviour) (image : Bytes) (room : Nat) : Option Bytes :=
  match b.written image room with
  | some n => if 1 ≤ n ∧ n ≤ room then some (b.unpacked image room) else none
  | none => none

namespace Pipeline

variable {δ ζ ℓ : Type} [Device δ] [Decompressor ζ] [Launcher ℓ] {p : Pipeline δ ζ ℓ}

/-! ### Outcomes -/

/-- What is registered is among the calls of the launcher. -/
theorem filterMap_registered (t : List Event) :
    t.filterMap Event.registered? = (t.filter Event.isLaunch).filterMap Event.registered? := by
  rw [List.filterMap_filter]
  congr 1
  funext e
  cases e <;> rfl

/-- An attempt without a reply has failed, and registered nothing. -/
theorem outcome_of_no_reply (hnone : ∀ reply, ¬ p.Gets reply) : (boot.run p).outcome = .failed := by
  obtain ⟨hresult, hstage, hcalls⟩ := boot_of_no_reply hnone
  rw [Ran.outcome, filterMap_registered, hresult, hstage, hcalls]
  rfl

/-- **The bytes of the candidate decide the outcome.** -/
theorem outcome_of_prepared {c : Candidate} (hprep : p.prepared.result = .ok c) :
    (boot.run p).outcome = .ofImage p.crc p.launcher p.config.bootFlow c.image := by
  unfold Outcome.ofImage
  by_cases hvalid : Valid p.crc c.image
  · have hgets : p.Gets (p.started c.image).1 := ⟨c, prepare_eq_ok.mp hprep, hvalid, rfl⟩
    have hregistered : (boot.run p).trace.filterMap Event.registered? = [claimedPart c.image] := by
      have htaken := takenOver_of_passes (passes_of_valid hprep hvalid)
      rw [filterMap_registered, htaken.calls, handed_ofBytes hvalid.long]
      rfl
    have hreply : (p.config.bootFlow.handOver p.launcher (claimedPart c.image)).1 =
        (p.started c.image).1 := rfl
    rw [if_pos hvalid, Ran.outcome, hregistered, hreply]
    rcases boot_cases p with ⟨hresult, hstage, h⟩ | ⟨hresult, hstage, h⟩ | ⟨hresult, hstage, h⟩
    · rw [hresult, hstage, hgets.unique h]
      rfl
    · rw [hresult, hstage, hgets.unique h]
      rfl
    · obtain ⟨fault, hfault⟩ := h _ hgets
      rw [hresult, hstage, hfault]
      rfl
  · rw [if_neg hvalid]
    exact outcome_of_no_reply (not_gets_of_not_valid hprep hvalid)

/-! ### Offered images -/

/-- The strategy of the selected medium has an image to offer, and the target has room for it. -/
structure Offers (p : Pipeline δ ζ ℓ) (image : Bytes) (source : Source) : Prop where
  uses : p.Uses source
  offers : source.Offers p.device image
  room : image.length ≤ p.target.length

/-- A pipeline can do with a compressed image what depends on nothing else: nothing follows the
image where it is, there is room to move it, and the decompressor, if there is one, answers by what
it is asked. -/
structure Ready (p : Pipeline δ ζ ℓ) (b : Behaviour) (image : Bytes) (source : Source) : Prop where
  surplus : source.surplus image = []
  staging : ∃ region, p.staging = some region ∧ image.length ≤ region.length
  decompressor : ∀ z, p.decompressor = some z → Decompressor.AnswersBy b z

omit [Launcher ℓ] in
/-- A decompressor that answers by what it is asked does not look at the rest of the target. -/
theorem unpackedImage_of_answersBy {b : Behaviour} {z : ζ} (hanswers : Decompressor.AnswersBy b z)
    {source : Source} {location : Location} {image : Bytes}
    (hacquired : p.acquired source location = image) :
    (p.unpackedImage source location z).written = b.written image p.target.length ∧
      ∀ n ≤ p.target.length, (p.unpackedImage source location z).written = some n →
        (p.unpackedImage source location z).output.take n =
          b.unpacked image p.target.length := by
  have hroom : (p.acquisition source).state.target.length = p.target.length :=
    (source.acquire_keeps p.toWorkspace).state.length_target
  rw [← hacquired, ← hroom]
  exact hanswers z .refl (p.acquired source location) (p.acquisition source).state.target

section offered

variable {image : Bytes} {source : Source} (hwhole : Whole image) (hoffers : p.Offers image source)

include hwhole hoffers

/-- Without an accepted magic word an offered image is not acquired. -/
theorem outcome_of_unrecognized (hmagic : (Header.ofBytes image).recognized = false) :
    (boot.run p).outcome = .failed := by
  obtain ⟨cause, hresult⟩ := hoffers.offers.acquire_of_unrecognized hwhole hmagic
  have hacq : (p.acquisition source).result = .error (.failed cause) := hresult
  have hprep : p.prepared.result = .error (.failed cause) := by
    rw [prepared, run_prepare_of_uses hoffers.uses, hacq, continueWith_error]
  exact outcome_of_no_reply (not_gets_of_unprepared hprep)

omit [Decompressor ζ] [Launcher ℓ] in
/-- With one it is, with the surplus of the strategy. -/
theorem acquires_of_offers (hmagic : (Header.ofBytes image).recognized = true) :
    ∃ location, p.Acquires source location ∧
      p.acquired source location = image ++ source.surplus image := by
  obtain ⟨location, hresult, hbytes⟩ :=
    hoffers.offers.acquire_of_recognized hwhole hoffers.room hmagic
  have hacquired : p.acquired source location = image ++ source.surplus image := hbytes
  refine ⟨location, ⟨hoffers.uses, hresult, ?_⟩, hacquired⟩
  have := hwhole.long
  rw [hacquired, List.length_append]
  omega

/-- The outcome for a plain image depends on nothing that follows it. -/
theorem outcome_of_plain (hmagic : word32 image 0 = Header.plainMagic) :
    (boot.run p).outcome = .ofImage p.crc p.launcher p.config.bootFlow image := by
  have hrecognized : (Header.ofBytes image).recognized = true := by
    rw [Header.recognized, Header.magic_ofBytes hwhole.long, hmagic]
    rfl
  obtain ⟨location, hacquires, hacquired⟩ := acquires_of_offers hwhole hoffers hrecognized
  have hne : word32 (p.acquired source location) 0 ≠ Header.compressedMagic := by
    rw [hacquired, hwhole.word32_append _ (by decide), hmagic]
    decide
  have hprep := prepare_eq_ok.mpr (.plain hacquires hne)
  rw [outcome_of_prepared hprep]
  simp only [Outcome.ofImage, hacquired, hwhole.valid_append, hwhole.claimedPart_append,
    hwhole.claimedPart_eq]

omit [Launcher ℓ] in
/-- A compressed image is acquired as it is, and can be moved out of the way of what is unpacked. -/
theorem movable_of_ready {b : Behaviour} (hready : p.Ready b image source)
    (hmagic : (Header.ofBytes image).recognized = true) :
    ∃ location, p.Acquires source location ∧ p.acquired source location = image ∧
      location.Movable p.staging := by
  obtain ⟨location, hacquires, hacquired⟩ := acquires_of_offers hwhole hoffers hmagic
  rw [hready.surplus, List.append_nil] at hacquired
  refine ⟨location, hacquires, hacquired, ?_⟩
  cases location with
  | resident place blob => trivial
  | inTarget length =>
    have hlength := length_acquired_of_inTarget source hacquires.succeeds
    rw [hacquired] at hlength
    obtain ⟨region, hstaging, hroom⟩ := hready.staging
    exact ⟨region, hstaging, hlength ▸ hroom⟩

/-- The outcome for a compressed image is that of what it unpacks to. -/
theorem outcome_of_compressed {b : Behaviour} (hready : p.Ready b image source)
    (hmagic : word32 image 0 = Header.compressedMagic) :
    (boot.run p).outcome = .ofImage? p.crc p.launcher p.config.bootFlow
      (if p.decompressor.isSome then b.unpack? image p.target.length else none) := by
  have hrecognized : (Header.ofBytes image).recognized = true := by
    rw [Header.recognized, Header.magic_ofBytes hwhole.long, hmagic]
    rfl
  obtain ⟨location, hacquires, hacquired, hmovable⟩ := movable_of_ready hwhole hoffers hready
    hrecognized
  have hcompressed : word32 (p.acquired source location) 0 = Header.compressedMagic := by
    rw [hacquired, hmagic]
  rcases hz : p.decompressor with _ | z
  · have hprep : p.prepared.result = .error (.failed .decompression) := by
      rw [prepared, run_prepare_of_no_decompressor hacquires hcompressed hmovable hz]
    exact outcome_of_no_reply (not_gets_of_unprepared hprep)
  · have hcan : p.CanUnpack source location z := ⟨hacquires, hcompressed, hmovable, hz⟩
    have hroom : p.room source = p.target.length :=
      (source.acquire_keeps p.toWorkspace).state.length_target
    obtain ⟨hwritten, hunpacked⟩ := unpackedImage_of_answersBy (hready.decompressor z hz) hacquired
    rw [Option.isSome_some, if_pos rfl, Behaviour.unpack?]
    by_cases haccepted : ∃ n, b.written image p.target.length = some n ∧
        Unpacking.Accepts p.target.length n
    · obtain ⟨n, hclaim, haccept⟩ := haccepted
      have haccept' : 1 ≤ n ∧ n ≤ p.target.length := haccept
      have hprep := prepare_eq_ok.mpr (.unpacked hcan (hwritten.trans hclaim) (hroom ▸ haccept))
      rw [outcome_of_prepared hprep, hunpacked n haccept.2 (hwritten.trans hclaim)]
      simp only [hclaim, if_pos haccept', Outcome.ofImage?]
    · have hrefused : ∀ n, (p.unpackedImage source location z).written = some n →
          ¬ Unpacking.Accepts (p.room source) n := by
        intro n hclaim haccept
        exact haccepted ⟨n, hwritten.symm.trans hclaim, hroom ▸ haccept⟩
      have hprep : p.prepared.result = .error (.failed .decompression) := by
        rw [prepared, run_prepare_of_refused hcan hrefused]
      rw [outcome_of_no_reply (not_gets_of_unprepared hprep)]
      rcases hclaim : b.written image p.target.length with _ | n
      · rfl
      · have hnot : ¬ (1 ≤ n ∧ n ≤ p.target.length) := fun h => haccepted ⟨n, hclaim, h⟩
        simp only [if_neg hnot, Outcome.ofImage?]

end offered

/-! ### Two boards -/

section boards

variable {δ' ζ' : Type} [Device δ'] [Decompressor ζ'] {q : Pipeline δ' ζ' ℓ}

/-- Two boards with the same checksum, the same launcher and the same way to start an image. -/
structure Peers (p : Pipeline δ ζ ℓ) (q : Pipeline δ' ζ' ℓ) : Prop where
  crc : p.crc = q.crc
  launcher : p.launcher = q.launcher
  bootFlow : p.config.bootFlow = q.config.bootFlow

/-- Two boards that do the same with a compressed image: each can do with it what depends on nothing
else, their targets are of one length, and both have a decompressor or neither has. -/
structure UnpackAlike (b : Behaviour) (p : Pipeline δ ζ ℓ) (q : Pipeline δ' ζ' ℓ) (image : Bytes)
    (source source' : Source) : Prop where
  left : p.Ready b image source
  right : q.Ready b image source'
  length_target : p.target.length = q.target.length
  decompressor : p.decompressor.isSome = q.decompressor.isSome

/-- **The strategies agree.** Let two boards be offered the same image, each by any strategy, with a
target that has room for it. The image claims just itself. Then their boots have the same answer,
the same final stage and the same registered images; for a compressed image this takes that the two
boards unpack alike. Of a plain image exactly the image is registered if it is valid, and nothing
otherwise, whatever comes after it. -/
theorem strategies_agree {image : Bytes} {source source' : Source} (hwhole : Whole image)
    (hp : p.Offers image source) (hq : q.Offers image source') (hpeers : p.Peers q)
    (hunpack : word32 image 0 = Header.compressedMagic →
      ∃ b, UnpackAlike b p q image source source') :
    (boot.run p).outcome = (boot.run q).outcome ∧
      (word32 image 0 = Header.plainMagic →
        (boot.run p).outcome.registered = if Valid p.crc image then [image] else []) := by
  constructor
  · by_cases hplain : word32 image 0 = Header.plainMagic
    · rw [outcome_of_plain hwhole hp hplain, outcome_of_plain hwhole hq hplain, hpeers.crc,
        hpeers.launcher, hpeers.bootFlow]
    · by_cases hcompressed : word32 image 0 = Header.compressedMagic
      · obtain ⟨b, halike⟩ := hunpack hcompressed
        rw [outcome_of_compressed hwhole hp halike.left hcompressed,
          outcome_of_compressed hwhole hq halike.right hcompressed, hpeers.crc, hpeers.launcher,
          hpeers.bootFlow, halike.length_target, halike.decompressor]
      · have hneither : (Header.ofBytes image).recognized = false := by
          rw [Header.recognized, Header.magic_ofBytes hwhole.long]
          simp [hplain, hcompressed]
        rw [outcome_of_unrecognized hwhole hp hneither, outcome_of_unrecognized hwhole hq hneither]
  · intro hplain
    rw [outcome_of_plain hwhole hp hplain, Outcome.ofImage, hwhole.claimedPart_eq]
    split_ifs
    · cases (p.config.bootFlow.handOver p.launcher image).1 <;> rfl
    · rfl

end boards

end Pipeline

namespace Bench

/-- A board that takes its image from where the configuration says first. It has a decompressor that
takes the header off, and every checksum is zero. -/
def boardWith (media : Media) (config : BootConfig) : Pipeline Media Unpacker BenchLauncher :=
  (((Pipeline.new media (.custom false) config (List.replicate 600 0xFF)).withDecompressor
    stripping).withStaging (List.replicate 600 0)).withCrc (constantChecksum 0)

/-- A board whose linked bytes start with an image. -/
def linkedBoard (blob : Bytes) : Pipeline Media Unpacker BenchLauncher :=
  (boardWith Media.none { BootConfig.default with payload := true }).withPayload blob

/-- A board with a card whose partition starts with an image. -/
def cardBoard : Pipeline Media Unpacker BenchLauncher :=
  boardWith (Media.none.set .mmc tableCard)
    { BootConfig.default with mmc := some ⟨true, bootPartitionType⟩ }

/-- A compressed image: its header, and after that the image that it unpacks to. -/
def packed : Bytes :=
  { Pipeline.claiming 544 with magic := Header.compressedMagic }.bytes ++
    (Pipeline.claiming 272).bytes

/-- A board with a flash that starts with the compressed image. -/
def packedBoard : Pipeline Media Unpacker BenchLauncher :=
  boardWith (Media.none.set .spiFlash (some packed))
    { BootConfig.default with spiFlash := some ⟨0⟩ }

/-- A linked image is offered, whatever comes after it. -/
theorem offers_linkedBoard (image rest : Bytes) (hroom : image.length ≤ 600) :
    (linkedBoard (image ++ rest)).Offers image (.linked (image ++ rest)) where
  uses := ⟨.payload, rfl, rfl⟩
  offers := .linked rest
  room := by
    show image.length ≤ (List.replicate 600 (0xFF : UInt8)).length
    rwa [List.length_replicate]

/-- The card offers the image at the start of its partition. -/
theorem offers_cardBoard : cardBoard.Offers (Pipeline.claiming 272).bytes
    (.partitioned ⟨.mmc, bootPartitionType⟩) where
  uses := ⟨.mmc, rfl, rfl⟩
  offers := by
    exact .partitioned ⟨.mmc, bootPartitionType⟩ (media_serves rfl) length_tableCard_lt
      gives_tableCard (by decide +kernel)
  room := by decide +kernel

/-- The flash offers its image. -/
theorem offers_packedBoard : packedBoard.Offers packed (.copied ⟨.spiFlash, 0⟩) where
  uses := ⟨.spiFlash, rfl, rfl⟩
  offers := .copied ⟨.spiFlash, 0⟩ (media_serves rfl) List.prefix_rfl
  room := by decide +kernel

/-- The boards can unpack what they are offered. -/
theorem ready_boardWith {p : Pipeline Media Unpacker BenchLauncher} {image : Bytes}
    {source : Source} (hdecompressor : p.decompressor = some stripping)
    (hstaging : p.staging = some (List.replicate 600 0)) (hsurplus : source.surplus image = [])
    (hroom : image.length ≤ 600) : p.Ready (behaviour Media.none stripping) image source where
  surplus := hsurplus
  staging := by
    refine ⟨_, hstaging, ?_⟩
    rwa [List.length_replicate]
  decompressor := by
    intro z hz
    cases hdecompressor.symm.trans hz
    exact unpacker_answersBy Media.none rfl

/-- A plain image boots alike from linked bytes and from a partition, and it is registered without
the byte that follows it; and a compressed one boots alike from linked bytes and from a flash. -/
theorem boards_agree :
    (Pipeline.boot.run (linkedBoard ((Pipeline.claiming 272).bytes ++ [1]))).outcome =
        (Pipeline.boot.run cardBoard).outcome ∧
      (Pipeline.boot.run (linkedBoard ((Pipeline.claiming 272).bytes ++ [1]))).outcome.registered =
        [(Pipeline.claiming 272).bytes] ∧
      (Pipeline.boot.run (linkedBoard (packed ++ []))).outcome =
        (Pipeline.boot.run packedBoard).outcome := by
  have hwhole : Whole (Pipeline.claiming 272).bytes := ⟨by decide +kernel, by decide +kernel⟩
  have hplain : word32 (Pipeline.claiming 272).bytes 0 = Header.plainMagic := by decide +kernel
  have hvalid : Valid (constantChecksum 0) (Pipeline.claiming 272).bytes := by decide +kernel
  obtain ⟨hagree, hregistered⟩ := Pipeline.strategies_agree hwhole
    (offers_linkedBoard _ [1] (by decide +kernel)) offers_cardBoard ⟨rfl, rfl, rfl⟩
    (fun h => absurd (hplain.symm.trans h) (by decide))
  have hwhole' : Whole packed := ⟨by decide +kernel, by decide +kernel⟩
  have hroom : packed.length ≤ 600 := by decide +kernel
  have halike : Pipeline.UnpackAlike (behaviour Media.none stripping) (linkedBoard (packed ++ []))
      packedBoard packed (.linked (packed ++ [])) (.copied ⟨.spiFlash, 0⟩) :=
    ⟨ready_boardWith rfl rfl (by rw [Source.surplus, List.drop_left]) hroom,
      ready_boardWith rfl rfl rfl hroom, rfl, rfl⟩
  have hagree' := Pipeline.strategies_agree hwhole' (offers_linkedBoard packed [] hroom)
    offers_packedBoard ⟨rfl, rfl, rfl⟩ (fun _ => ⟨_, halike⟩)
  exact ⟨hagree, (hregistered hplain).trans (if_pos hvalid), hagree'.1⟩

end Bench

end BootImage
