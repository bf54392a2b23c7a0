import BootImage.Proofs.Registration

/-!
# When the decompressor is called, and what for

The target is where an image is copied to and also where it is unpacked to, and the magic word that
an image is judged by is that of its second read. Whatever the media hold, an attempt calls the
decompressor for one reason only (`Pipeline.CanUnpack`), at most once, with all of the acquired
image and with the whole target to write to.

* `prepared_of_canUnpack` — what a preparation is that calls the decompressor, whatever comes of the
  call.
* `unpacks_prepared_of_none`, `staging_prepared_of_none` — what one is that does not call it, and
  one that moves nothing, read off the courses of a preparation.
* `boot_gates_unpacking` — an attempt as a whole (`Pipeline.GatesUnpacking`). An unpacked image that
  is compressed again is refused for its magic word, but only if it is long enough to have one read
  (`cut_short_unread`).
-/

namespace BootImage

open Attempt

namespace Pipeline

variable {δ ζ ℓ : Type} [Device δ] [Decompressor ζ] [Launcher ℓ] {p : Pipeline δ ζ ℓ}

/-! ### Preparations -/

section preparations

variable {source : Source} {location : Location} {z : ζ}

omit [Decompressor ζ] [Launcher ℓ] in
/-- The decompressor has the whole target for room, which an acquisition leaves as long as it was.
-/
theorem room_eq (p : Pipeline δ ζ ℓ) (source : Source) : p.room source = p.target.length :=
  (source.acquire_keeps p.toWorkspace).state.length_target

omit [Decompressor ζ] [Launcher ℓ] in
/-- A resident image is all of the region that it is in. -/
theorem region_of_resident {place : Place} {image : Bytes}
    (hacq : p.Acquires source (.resident place image)) :
    place ≠ .target ∧ p.region place = image := by
  have hyields := (source.acquire_keeps p.toWorkspace).value _ hacq.succeeds
  obtain ⟨medium, -, hsource⟩ := hacq.uses
  cases hyields with
  | linked image =>
    obtain ⟨_, hpayload, ⟨⟩⟩ | ⟨_, -, ⟨⟩⟩ | ⟨_, ⟨⟩⟩ | ⟨_, ⟨⟩⟩ := sourceFor_cases hsource
    exact ⟨nofun, congrArg (Option.getD · []) hpayload⟩
  | mapped window =>
    obtain ⟨_, -, ⟨⟩⟩ | ⟨_, hwindow, ⟨⟩⟩ | ⟨_, ⟨⟩⟩ | ⟨_, ⟨⟩⟩ := sourceFor_cases hsource
    exact ⟨nofun, congrArg (Option.getD · []) hwindow⟩

omit [Decompressor ζ] [Launcher ℓ] in
/-- It is not copied to the target. -/
theorem target_of_resident {place : Place} {image : Bytes}
    (hacq : p.Acquires source (.resident place image)) :
    (p.acquisition source).state.target = p.target := by
  have hyields := (source.acquire_keeps p.toWorkspace).value _ hacq.succeeds
  have hsame : p.toWorkspace = (p.acquisition source).state := by
    cases hyields with
    | linked => exact (Source.acquireLinked_keeps image (Eq.refl p.toWorkspace)).state
    | mapped => exact (Source.acquireMapped_keeps image (Eq.refl p.toWorkspace)).state
  exact (congrArg Workspace.target hsame).symm

omit [Launcher ℓ] in
/-- **A preparation that can unpack its image calls the decompressor once**, and leaves what that
wrote, whether its claim is accepted or not. -/
theorem prepared_of_canUnpack (hcan : p.CanUnpack source location z) :
    p.prepared.trace.filterMap Event.unpack? = [(p.acquired source location, p.room source)] ∧
      p.prepared.state.target = (p.unpackedImage source location z).output ∧
      p.prepared.state.staging = location.moved (p.acquired source location) p.staging := by
  have hcall : (p.arrival source ++ p.unpackCall source location).filterMap Event.unpack? =
      [(p.acquired source location, p.room source)] := by
    rw [List.filterMap_append, unpacks_arrival]
    rfl
  by_cases hclaim : ∃ n, (p.unpackedImage source location z).written = some n ∧
      Unpacking.Accepts (p.room source) n
  · obtain ⟨n, hclaim, haccept⟩ := hclaim
    rw [prepared, run_prepare_of_unpacked hcan hclaim haccept, List.filterMap_append, hcall]
    exact ⟨rfl, rfl, rfl⟩
  · have hrefused : ∀ n, (p.unpackedImage source location z).written = some n →
        ¬ Unpacking.Accepts (p.room source) n := fun n hn haccept => hclaim ⟨n, hn, haccept⟩
    rw [prepared, run_prepare_of_refused hcan hrefused, List.filterMap_append, hcall]
    exact ⟨rfl, rfl, rfl⟩

omit [Launcher ℓ] in
/-- A preparation that cannot unpack its image, or has none, does not call the decompressor. -/
theorem unpacks_prepared_of_none (hnone : ∀ source location z, ¬ p.CanUnpack source location z) :
    p.prepared.trace.filterMap Event.unpack? = [] := by
  have hcourse := preparation_prepared p
  generalize p.prepared = ran at hcourse ⊢
  cases hcourse with
  | noMedium hsel => rfl
  | unavailable hsel hsource => rfl
  | unacquired huses hacq => exact unpacks_acquisition p _
  | headerless huses hacq hlen => exact unpacks_arrival p _
  | plain hacq hmagic => exact unpacks_arrival p _
  | noStaging hacq hmagic hmove =>
    rw [List.filterMap_append, unpacks_arrival]
    rfl
  | noDecompressor hacq hmagic hmove hz =>
    rw [List.filterMap_append, unpacks_arrival]
    rfl
  | refused hcan hclaim => exact absurd hcan (hnone _ _ _)
  | unpacked hcan hclaim haccept => exact absurd hcan (hnone _ _ _)

/-- A copied image is compressed, and the staging region has room for it. -/
structure Stages (p : Pipeline δ ζ ℓ) (source : Source) (length : Nat) : Prop
    extends p.Acquires source (.inTarget length) where
  compressed : word32 (p.acquired source (.inTarget length)) 0 = Header.compressedMagic
  movable : (Location.inTarget length).Movable p.staging

omit [Launcher ℓ] in
/-- Such an image is moved, whether there is a decompressor or not. -/
theorem staging_prepared_of_stages {length : Nat} (hstages : p.Stages source length) :
    p.prepared.state.staging =
      (Location.inTarget length).moved (p.acquired source (.inTarget length)) p.staging := by
  rcases hz : p.decompressor with _ | z
  · rw [prepared, run_prepare_of_no_decompressor hstages.toAcquires hstages.compressed
      hstages.movable hz]
    rfl
  · exact (prepared_of_canUnpack
      ⟨hstages.toAcquires, hstages.compressed, hstages.movable, hz⟩).2.2

omit [Launcher ℓ] in
/-- Nothing else is. -/
theorem staging_prepared_of_none (hnone : ∀ source length, ¬ p.Stages source length) :
    p.prepared.state.staging = p.staging := by
  have hmoved : ∀ {source location}, p.Acquires source location →
      word32 (p.acquired source location) 0 = Header.compressedMagic →
      location.Movable p.staging →
      location.moved (p.acquired source location) p.staging = p.staging := by
    intro source location hacq hmagic hmove
    cases location with
    | resident place image => rfl
    | inTarget length => exact absurd ⟨hacq, hmagic, hmove⟩ (hnone source length)
  have hcourse := preparation_prepared p
  generalize p.prepared = ran at hcourse ⊢
  cases hcourse with
  | noMedium hsel => rfl
  | unavailable hsel hsource => rfl
  | unacquired huses hacq => rfl
  | headerless huses hacq hlen => rfl
  | plain hacq hmagic => rfl
  | noStaging hacq hmagic hmove => rfl
  | noDecompressor hacq hmagic hmove hz => exact hmoved hacq hmagic hmove
  | refused hcan hclaim => exact hmoved hcan.toAcquires hcan.compressed hcan.movable
  | unpacked hcan hclaim haccept => exact hmoved hcan.toAcquires hcan.compressed hcan.movable

end preparations

/-! ### Attempts -/

/-- The calls of the decompressor in an attempt are those in its preparation. -/
theorem unpacks_boot (p : Pipeline δ ζ ℓ) : (boot.run p).trace.filterMap Event.unpack? =
    p.prepared.trace.filterMap Event.unpack? := by
  rcases hprep : p.prepared.result with stop | c
  · exact filterMap_boot_of_unprepared (fun _ => rfl) hprep
  · have hchecked : (p.checked c).trace.filterMap Event.unpack? = [] :=
      unpacks_of_keeps (checked_keeps p c) fun _ _ => id
    rw [filterMap_boot_of_prepared (fun _ => rfl) (fun _ _ => rfl) (fun _ => rfl) hprep, hchecked,
      List.append_nil]

/-- What a call of the decompressor comes to, which is made with this image and answered so. -/
structure CallsOnce (p : Pipeline δ ζ ℓ) (ran : Ran (Pipeline δ ζ ℓ) Bool) (image : Bytes)
    (answer : UnpackAnswer ζ) : Prop where
  /-- It is the only call, and all of the target is there to write to. -/
  call : ran.trace.filterMap Event.unpack? = [(image, p.target.length)]
  /-- What it wrote is in the target, whatever it says about that. -/
  target : ran.state.target = answer.output
  /-- Without a claim, with one of no bytes, and with one of more than the target has, the attempt
  fails. -/
  refused : (∀ n, answer.written = some n → n = 0 ∨ p.target.length < n) →
    FailsFor ran .decompression
  /-- An unpacked image that is compressed again, and long enough for a header, is refused for its
  magic word. It is not unpacked again, which is what `call` says. -/
  again : ∀ n, answer.written = some n → n ≤ p.target.length → Header.size ≤ n →
    word32 (answer.output.take n) 0 = Header.compressedMagic →
      FailsFor ran (.magicMismatch Header.compressedMagic)
  /-- One without room for a header is refused for that, whatever its first bytes are. -/
  short : ∀ n, answer.written = some n → 0 < n → n ≤ p.target.length → n < Header.size →
    FailsFor ran .acquisition

/-- When an attempt calls the decompressor and what it does to the target and to the staging region,
given the attempt's run. -/
structure GatesUnpacking (p : Pipeline δ ζ ℓ) (ran : Ran (Pipeline δ ζ ℓ) Bool) : Prop where
  /-- There is one call if an image is acquired that is long enough for a header and compressed, it
  is resident or there is room to move it, and there is a decompressor. -/
  called : ∀ source location z, p.CanUnpack source location z →
    p.CallsOnce ran (p.acquired source location)
      (Decompressor.unpack z (p.acquired source location) (p.acquisition source).state.target)
  /-- There is none otherwise. -/
  notCalled : (∀ source location z, ¬ p.CanUnpack source location z) →
    ran.trace.filterMap Event.unpack? = []
  /-- The bytes of a resident image are all those of the region that it is in. -/
  resident : ∀ source place image, p.Acquires source (.resident place image) →
    place ≠ .target ∧ p.acquired source (.resident place image) = p.region place
  /-- Those of a copied image are those that were copied to the start of the target. -/
  copied : ∀ source length, p.Acquires source (.inTarget length) →
    p.acquired source (.inTarget length) = (p.acquisition source).state.target.take length ∧
      (p.acquired source (.inTarget length)).length = length
  /-- A copied image that is compressed and has room in the staging region is moved to its start. -/
  staged : ∀ source length region, p.Acquires source (.inTarget length) →
    word32 (p.acquired source (.inTarget length)) 0 = Header.compressedMagic →
    p.staging = some region → length ≤ region.length →
      ran.state.staging = some (p.acquired source (.inTarget length) ++ region.drop length)
  /-- Otherwise the staging region is as it was. -/
  notStaged : (∀ source length, p.Acquires source (.inTarget length) →
      word32 (p.acquired source (.inTarget length)) 0 = Header.compressedMagic →
      ∀ region, p.staging = some region → region.length < length) →
    ran.state.staging = p.staging
  /-- An image that is not compressed is not unpacked and not moved. -/
  plain : ∀ source location, p.Acquires source location →
    word32 (p.acquired source location) 0 ≠ Header.compressedMagic →
      ran.trace.filterMap Event.unpack? = [] ∧ ran.state.staging = p.staging
  /-- If it is resident, the target is as it was, too. -/
  plainResident : ∀ source place image, p.Acquires source (.resident place image) →
    word32 image 0 ≠ Header.compressedMagic → ran.state.target = p.target

section boot

variable {source : Source} {location : Location} {z : ζ}

/-- An attempt that can unpack its image makes one call. -/
theorem callsOnce_of_canUnpack (hcan : p.CanUnpack source location z) :
    p.CallsOnce (boot.run p) (p.acquired source location)
      (Decompressor.unpack z (p.acquired source location)
        (p.acquisition source).state.target) := by
  obtain ⟨hunpacks, htarget, -⟩ := prepared_of_canUnpack hcan
  obtain ⟨launcher, stage, hstate⟩ := state_boot p
  have hroom := p.room_eq source
  have hanswer : Decompressor.unpack z (p.acquired source location)
      (p.acquisition source).state.target = p.unpackedImage source location z := rfl
  rw [hanswer]
  -- a claim that is accepted makes the first bytes of the target the candidate
  have hcandidate : ∀ n, (p.unpackedImage source location z).written = some n → 0 < n →
      n ≤ p.target.length → p.prepared.result =
        .ok ⟨.inTarget n, (p.unpackedImage source location z).output.take n, true⟩ := by
    intro n hclaim hpos hn
    rw [prepared, run_prepare_of_unpacked hcan hclaim ⟨hpos, hroom ▸ hn⟩]
  have hlength : ∀ n, n ≤ p.target.length →
      ((p.unpackedImage source location z).output.take n).length = n := by
    intro n hn
    apply List.length_take_of_le
    rwa [length_output_unpackedImage, hroom]
  constructor
  case call => rw [unpacks_boot, hunpacks, hroom]
  case target => rw [hstate, htarget]
  case refused =>
    intro hclaim
    apply failsFor_of_unprepared
    rw [prepared, run_prepare_of_refused hcan]
    rintro n hn ⟨hpos, hle⟩
    rw [hroom] at hle
    rcases hclaim n hn with hzero | hover <;> omega
  case again =>
    intro n hclaim hn hlong hmagic
    have hlong' : Header.size ≤ ((p.unpackedImage source location z).output.take n).length := by
      rwa [hlength n hn]
    have hne : word32 ((p.unpackedImage source location z).output.take n) 0 ≠
        Header.plainMagic := by
      rw [hmagic]
      decide
    have hpos : 0 < n := Nat.lt_of_lt_of_le (by decide) hlong
    refine failsFor_of_not_checked (hcandidate n hclaim hpos hn) ?_
    rw [checked_of_not_plain hlong' hne, hmagic]
  case short =>
    intro n hclaim hpos hn hshort
    refine failsFor_of_not_checked (hcandidate n hclaim hpos hn) ?_
    rw [checked_of_short]
    rwa [hlength n hn]

/-- **When the decompressor is called, and what for**, in an attempt with any device, any
decompressor and any regions. -/
theorem boot_gates_unpacking (p : Pipeline δ ζ ℓ) : p.GatesUnpacking (boot.run p) := by
  obtain ⟨launcher, stage, hstate⟩ := state_boot p
  constructor
  case called => exact fun source location z hcan => callsOnce_of_canUnpack hcan
  case notCalled =>
    intro hnone
    rw [unpacks_boot, unpacks_prepared_of_none hnone]
  case resident =>
    intro source place image hacq
    obtain ⟨hplace, hregion⟩ := region_of_resident hacq
    exact ⟨hplace, hregion.symm⟩
  case copied =>
    intro source length hacq
    exact ⟨rfl, length_acquired_of_inTarget source hacq.succeeds⟩
  case staged =>
    intro source length region hacq hmagic hstaging hroom
    rw [hstate]
    have hmoved := staging_prepared_of_stages ⟨hacq, hmagic, region, hstaging, hroom⟩
    rwa [hstaging] at hmoved
  case notStaged =>
    intro hnone
    rw [hstate]
    apply staging_prepared_of_none
    rintro source length ⟨hacq, hmagic, region, hstaging, hroom⟩
    exact absurd hroom (Nat.not_le_of_lt (hnone source length hacq hmagic region hstaging))
  case plain =>
    intro source location hacq hmagic
    rw [unpacks_boot, hstate, prepared, run_prepare_of_plain hacq hmagic]
    exact ⟨unpacks_arrival p source, rfl⟩
  case plainResident =>
    intro source place image hacq hmagic
    rw [hstate, prepared, run_prepare_of_plain hacq hmagic]
    exact target_of_resident hacq

end boot

/-- A compressed image that is nothing but its header. -/
def compressedHeader : Header := { claiming 272 with magic := Header.compressedMagic }

/-- A decompressor that makes such an image of every image, but for the last byte. -/
def cutting : Bench.Unpacker := ⟨compressedHeader.bytes.take 271, none, none, false⟩

/-- A board with this decompressor, and with the image linked. -/
def cuttingBoard : Pipeline Bench.Media Bench.Unpacker Bench.BenchLauncher :=
  ((new .none (.custom false) { BootConfig.default with payload := true }
    (List.replicate 300 0)).withDecompressor cutting).withPayload compressedHeader.bytes

/-- **Not every unpacked image with the magic word of a compressed one is refused for that.** Here
it is one byte short of a header, and the attempt ends before its magic word is looked at. -/
theorem cut_short_unread :
    cuttingBoard.CanUnpack (.linked compressedHeader.bytes)
        (.resident .payload compressedHeader.bytes) cutting ∧
      (Decompressor.unpack cutting compressedHeader.bytes cuttingBoard.target).written = some 271 ∧
      word32 ((Decompressor.unpack cutting compressedHeader.bytes
        cuttingBoard.target).output.take 271) 0 = Header.compressedMagic ∧
      FailsFor (boot.run cuttingBoard) .acquisition ∧
      ¬ FailsFor (boot.run cuttingBoard) (.magicMismatch Header.compressedMagic) := by
  have hlen : Header.size ≤ compressedHeader.bytes.length :=
    Nat.le_of_eq compressedHeader.length_bytes.symm
  have hrecognized : (Header.ofBytes compressedHeader.bytes).recognized = true := by
    rw [Header.ofBytes_bytes]
    rfl
  have hmagic : word32 compressedHeader.bytes 0 = Header.compressedMagic := by
    rw [← Header.magic_ofBytes hlen, Header.ofBytes_bytes]
    rfl
  have huses : cuttingBoard.Uses (.linked compressedHeader.bytes) := ⟨.payload, rfl, rfl⟩
  have hcan : cuttingBoard.CanUnpack (.linked compressedHeader.bytes)
      (.resident .payload compressedHeader.bytes) cutting :=
    ⟨acquires_linked huses hlen hrecognized, hmagic, trivial, rfl⟩
  have hwritten : (Decompressor.unpack cutting compressedHeader.bytes
      cuttingBoard.target).written = some 271 := by decide +kernel
  have hacquired : cuttingBoard.acquired (.linked compressedHeader.bytes)
      (.resident .payload compressedHeader.bytes) = compressedHeader.bytes := rfl
  have htarget : (cuttingBoard.acquisition (.linked compressedHeader.bytes)).state.target =
      cuttingBoard.target := target_of_resident hcan.toAcquires
  have hcalls := callsOnce_of_canUnpack hcan
  rw [hacquired, htarget] at hcalls
  have hunread : FailsFor (boot.run cuttingBoard) .acquisition :=
    hcalls.short 271 hwritten (by decide) (by decide +kernel) (by decide)
  refine ⟨hcan, hwritten, by decide +kernel, hunread, ?_⟩
  intro hmismatch
  rw [failsFor_boot_iff] at hunread hmismatch
  rw [hunread] at hmismatch
  cases hmismatch

end Pipeline

end BootImage
