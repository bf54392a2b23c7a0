import BootImage.Proofs.Acquisition
import BootImage.Proofs.Validation

/-!
# How an attempt gets to the image that it validates

An attempt falls into two parts (`attempt_eq`): it prepares a candidate, which is an image at its
final location, unpacked if need be (`Pipeline.prepare`), and it validates the candidate, registers
it and starts it (`Pipeline.check`, `Pipeline.enlist`, `Pipeline.launch`). This file is about the
first part.

* `preparation` — every preparation takes one of nine courses, each given with its result, its
  trace and the state it leaves, up to what the acquisition in it left. Later statements about what
  an attempt reads, unpacks or writes are read off these courses.
* `run_prepare_of_plain`, `run_prepare_of_unpacked` — the two courses that give a candidate, as
  runs. `run_prepare_of_refused` and the two after it are those in which a compressed image gives
  none.
-/

namespace BootImage

open Attempt

/-! ### Moving and unpacking -/

namespace Location

/-- Whether the decompressor may read the image at a location while it writes to the target: a
resident image is read where it is, and one in the target needs room in the staging region. -/
def Movable (staging : Option Bytes) : Location → Prop
  | resident _ _ => True
  | inTarget length => ∃ region, staging = some region ∧ length ≤ region.length

/-- The staging region once an image has been moved there. -/
def moved (image : Bytes) (staging : Option Bytes) : Location → Option Bytes
  | resident _ _ => staging
  | inTarget length => staging.map fun region => image ++ region.drop length

end Location

/-- Whether a claim about an unpacked image is accepted: at least one byte, and no more than there
is room for. -/
def Unpacking.Accepts (room n : Nat) : Prop := 1 ≤ n ∧ n ≤ room

/-- What is said of a claim that is not accepted. -/
def Unpacking.complaint (room : Nat) : Option Nat → Message
  | none | some 0 => .unpackFailed
  | some (n + 1) => .unpackOverrun (n + 1) room

/-- A length that is accepted is logged. -/
theorem Unpacking.run_accept {σ : Type} {room n : Nat} (h : Accepts room n) (s : σ) :
    (accept room (some n)).run s = ⟨.ok n, [.logged (.unpacked n)], s⟩ := by
  obtain ⟨m, rfl⟩ : ∃ m, n = m + 1 := ⟨n - 1, by have := h.1; omega⟩
  have hroom : ¬ room < m + 1 := Nat.not_lt_of_le h.2
  simp [accept, hroom, Except.map]

/-- Any other answer is complained of, and fails. -/
theorem Unpacking.run_accept_of_not {σ : Type} {room : Nat} {claim : Option Nat}
    (h : ∀ n, claim = some n → ¬ Accepts room n) (s : σ) :
    (accept room claim).run s =
      ⟨.error (.failed .decompression), [.logged (complaint room claim)], s⟩ := by
  rcases claim with _ | _ | n
  · rfl
  · rfl
  · have hroom : room < n + 1 := by
      have hn := h (n + 1) rfl
      unfold Accepts at hn
      omega
    simp [accept, hroom, complaint]

namespace Pipeline

variable {δ ζ ℓ : Type}

section unpack

variable {location : Location} {p : Pipeline δ ζ ℓ}

/-- The bytes of a location that fits are there to be had. -/
theorem run_imageAt (hfits : location.Fits p.target) :
    (imageAt location : Attempt (Pipeline δ ζ ℓ) Bytes).run p =
      ⟨.ok (location.bytes p.target), [], p⟩ := by
  rw [imageAt, run_bind, run_get, continueWith_ok, Location.image_of_fits hfits]
  rfl

/-- The compressed bytes are those of the location, and a copied image is moved out of the way. -/
theorem run_compressedInput (hfits : location.Fits p.target) (hmove : location.Movable p.staging) :
    (compressedInput location : Attempt (Pipeline δ ζ ℓ) Bytes).run p =
      ⟨.ok (location.bytes p.target), [],
        { p with staging := location.moved (location.bytes p.target) p.staging }⟩ := by
  cases location with
  | resident place image => rfl
  | inTarget length =>
    obtain ⟨region, hstaging, hroom⟩ := hmove
    have hcut : (cut p.target length : Attempt (Pipeline δ ζ ℓ) Bytes) =
        pure (p.target.take length) := cut_of_le hfits
    have hlen : (p.target.take length).length = (region.take length).length := by
      rw [List.length_take_of_le hfits, List.length_take_of_le hroom]
    have hmoved : (overwrite (region.take length) (p.target.take length) :
        Attempt (Pipeline δ ζ ℓ) Bytes) = pure (p.target.take length) := overwrite_of_length hlen
    have hfilter : (some region).filter (length ≤ ·.length) = some region := by
      simp [Option.filter, hroom]
    rw [compressedInput, moveToStaging, run_bind, run_get, continueWith_ok, hstaging, hfilter]
    simp only [hcut, hmoved, pure_bind]
    rfl

/-- An image in the target that the staging region has no room for is not moved. -/
theorem run_compressedInput_of_not_movable {length : Nat}
    (hmove : ¬ (Location.inTarget length).Movable p.staging) :
    (compressedInput (.inTarget length) : Attempt (Pipeline δ ζ ℓ) Bytes).run p =
      ⟨.error (.failed .decompression), [.logged (.noStaging length)], p⟩ := by
  have hfilter : p.staging.filter (length ≤ ·.length) = none := by
    rw [Option.filter_eq_none_iff]
    intro region hstaging hroom
    exact hmove ⟨region, hstaging, by simpa using hroom⟩
  rw [compressedInput, moveToStaging, run_bind, run_get, continueWith_ok, hfilter]
  rfl

variable [Decompressor ζ]

/-- The decompressor's answer to an input, with the target as its output region. -/
def unpackAnswer (p : Pipeline δ ζ ℓ) (z : ζ) (input : Bytes) : UnpackAnswer ζ :=
  Decompressor.unpack z input p.target

/-- The state that a call of the decompressor leaves. -/
def afterUnpack (p : Pipeline δ ζ ℓ) (z : ζ) (input : Bytes) : Pipeline δ ζ ℓ :=
  { p with
    decompressor := some (p.unpackAnswer z input).decompressor
    target := (p.unpackAnswer z input).output }

/-- Without a decompressor unpacking fails. -/
theorem run_unpacking_of_none (input : Bytes) (hz : p.decompressor = none) :
    (onUnpacking (Unpacking.run input) : Attempt (Pipeline δ ζ ℓ) Nat).run p =
      ⟨.error (.failed .decompression), [.logged .noDecompressor], p⟩ := by
  obtain ⟨⟨device, scratch, target⟩, launcher, crc, config, payload, window, decompressor, staging,
    selected, stage⟩ := p
  subst hz
  rfl

/-- A configured decompressor is called once, and its claim decides. -/
theorem run_unpacking_of_some {z : ζ} {input : Bytes} (hz : p.decompressor = some z)
    {result : Except Stop Nat} {t : List Event}
    (hclaim : ∀ u : Unpacking ζ, (Unpacking.accept p.target.length
      (p.unpackAnswer z input).written).run u = ⟨result, t, u⟩) :
    (onUnpacking (Unpacking.run input) : Attempt (Pipeline δ ζ ℓ) Nat).run p =
      ⟨result, [.logged .unpacking, .unpack input p.target.length] ++ t,
        p.afterUnpack z input⟩ := by
  have hcall : ∀ u : Unpacking ζ, (Unpacking.call z input).run u =
      ⟨.ok (Decompressor.unpack z input u.output).written, [.unpack input u.output.length],
        ⟨some (Decompressor.unpack z input u.output).decompressor,
          (Decompressor.unpack z input u.output).output⟩⟩ := fun _ => rfl
  rw [onUnpacking, run_on, Unpacking.run, run_bind, run_get, continueWith_ok]
  simp only [hz, run_bind, run_log, continueWith_ok, hcall]
  unfold unpackAnswer at hclaim
  rw [hclaim]
  rfl

end unpack

variable [Device δ] [Decompressor ζ]

/-! ### The two parts of an attempt -/

/-- An image at its final location, and whether it was unpacked to get there. -/
structure Candidate where
  location : Location
  image : Bytes
  wasUnpacked : Bool

/-- Makes a candidate of an acquired image, which is unpacked if it is compressed. -/
def deliver (acquired : Location) : Attempt (Pipeline δ ζ ℓ) Candidate := do
  advance .acquired
  let raw ← imageAt acquired
  let header ← ofExcept (Header.read raw)
  let compressed := header.kind == some .compressed
  let location ← if compressed then unpack acquired else pure acquired
  let image ← imageAt location
  return ⟨location, image, compressed⟩

/-- The first part of an attempt: an image is acquired and made a candidate. -/
def prepare : Attempt (Pipeline δ ζ ℓ) Candidate := do
  modify fun p => { p with stage := .notStarted }
  let source ← selectedSource
  let acquired ← onWorkspace source.acquire
  deliver acquired

/-- The validation of a candidate. -/
def check (c : Candidate) : Attempt (Pipeline δ ζ ℓ) Header := do
  let p ← get
  validate p.crc c.image c.wasUnpacked

/-- The registration of a validated candidate. -/
def enlist [Launcher ℓ] (c : Candidate) (header : Header) : Attempt (Pipeline δ ζ ℓ) Unit := do
  advance .validated
  log (.bootSet header.setName)
  register header c.location.place c.image

/-- **The parts of an attempt in a row are the attempt.** -/
theorem attempt_eq [Launcher ℓ] : (attempt : Attempt (Pipeline δ ζ ℓ) Unit) =
    prepare >>= fun c => check c >>= fun header => enlist c header >>= fun _ => launch := by
  simp only [attempt, prepare, deliver, check, enlist, bind_assoc, pure_bind]
  refine bind_congr fun _ => bind_congr fun source => bind_congr fun acquired =>
    bind_congr fun _ => bind_congr fun raw => bind_congr fun header => ?_
  split_ifs
  · simp only [bind_assoc, pure_bind]
  · simp only [bind_assoc, pure_bind]

/-! ### The courses of a preparation -/

/-- The pipeline at the start of an attempt. -/
def restarted (p : Pipeline δ ζ ℓ) : Pipeline δ ζ ℓ := { p with stage := .notStarted }

/-- The acquisition of an attempt with a strategy. -/
def acquisition (p : Pipeline δ ζ ℓ) (source : Source) : Ran (Workspace δ) Location :=
  source.acquire.run p.toWorkspace

/-- The pipeline once an acquisition has ended. -/
def afterAcquisition (p : Pipeline δ ζ ℓ) (source : Source) (stage : Stage) : Pipeline δ ζ ℓ :=
  { p with toWorkspace := (p.acquisition source).state, stage := stage }

/-- The bytes of an acquired image. -/
def acquired (p : Pipeline δ ζ ℓ) (source : Source) (location : Location) : Bytes :=
  location.bytes (p.acquisition source).state.target

/-- The strategy is that of the selected medium. -/
def Uses (p : Pipeline δ ζ ℓ) (source : Source) : Prop :=
  ∃ medium, p.selected = some medium ∧ p.sourceFor medium = some source

/-- A medium is selected, there is a strategy for it, and it gives an image at a location, which is
long enough for a header. -/
structure Acquires (p : Pipeline δ ζ ℓ) (source : Source) (location : Location) : Prop where
  uses : p.Uses source
  succeeds : (p.acquisition source).result = .ok location
  long : Header.size ≤ (p.acquired source location).length

/-- An acquired image is compressed, there is room to move it, and there is a decompressor. -/
structure CanUnpack (p : Pipeline δ ζ ℓ) (source : Source) (location : Location) (z : ζ) :
    Prop extends p.Acquires source location where
  compressed : word32 (p.acquired source location) 0 = Header.compressedMagic
  movable : location.Movable p.staging
  configured : p.decompressor = some z

/-- The pipeline with the acquired image moved out of the way. -/
def afterMove (p : Pipeline δ ζ ℓ) (source : Source) (location : Location) : Pipeline δ ζ ℓ :=
  { p.afterAcquisition source .acquired with
    staging := location.moved (p.acquired source location) p.staging }

/-- The room that a decompressor has for its output. -/
def room (p : Pipeline δ ζ ℓ) (source : Source) : Nat := (p.acquisition source).state.target.length

/-- The events up to the stage at which an image is acquired. -/
def arrival (p : Pipeline δ ζ ℓ) (source : Source) : List Event :=
  (p.acquisition source).trace ++ [.logged (.stage .notStarted .acquired)]

/-- The events of a call of the decompressor. -/
def unpackCall (p : Pipeline δ ζ ℓ) (source : Source) (location : Location) : List Event :=
  [.logged .unpacking, .unpack (p.acquired source location) (p.room source)]

/-- What the decompressor answers to the acquired image. -/
def unpackedImage (p : Pipeline δ ζ ℓ) (source : Source) (location : Location) (z : ζ) :
    UnpackAnswer ζ :=
  (p.afterMove source location).unpackAnswer z (p.acquired source location)

/-- The pipeline with the unpacked image in the target. -/
def delivered (p : Pipeline δ ζ ℓ) (source : Source) (location : Location) (z : ζ) :
    Pipeline δ ζ ℓ :=
  { (p.afterMove source location).afterUnpack z (p.acquired source location) with
    stage := .decompressed }

/-- The courses that a preparation can take. -/
inductive Preparation (p : Pipeline δ ζ ℓ) : Ran (Pipeline δ ζ ℓ) Candidate → Prop
  /-- No medium is selected. -/
  | noMedium (hsel : p.selected = none) :
      Preparation p ⟨.error (.failed .noBootMedium), [], p.restarted⟩
  /-- There is no strategy for the selected medium. -/
  | unavailable {medium : BootMedium} (hsel : p.selected = some medium)
      (hsource : p.sourceFor medium = none) :
      Preparation p ⟨.error (.failed (.mediumUnavailable medium)), [],
        p.restarted⟩
  /-- The acquisition stopped. -/
  | unacquired {source : Source} {stop : Stop} (huses : p.Uses source)
      (hacq : (p.acquisition source).result = .error stop) :
      Preparation p ⟨.error stop, (p.acquisition source).trace,
        p.afterAcquisition source .notStarted⟩
  /-- The acquired image is too short for a header. -/
  | headerless {source : Source} {location : Location} (huses : p.Uses source)
      (hacq : (p.acquisition source).result = .ok location)
      (hlen : (p.acquired source location).length < Header.size) :
      Preparation p ⟨.error (.failed .acquisition), p.arrival source,
        p.afterAcquisition source .acquired⟩
  /-- The acquired image is not compressed, and is the candidate. -/
  | plain {source : Source} {location : Location} (hacq : p.Acquires source location)
      (hmagic : word32 (p.acquired source location) 0 ≠ Header.compressedMagic) :
      Preparation p ⟨.ok ⟨location, p.acquired source location, false⟩, p.arrival source,
        p.afterAcquisition source .acquired⟩
  /-- A compressed image cannot be moved out of the target. -/
  | noStaging {source : Source} {length : Nat} (hacq : p.Acquires source (.inTarget length))
      (hmagic : word32 (p.acquired source (.inTarget length)) 0 = Header.compressedMagic)
      (hmove : ¬ (Location.inTarget length).Movable p.staging) :
      Preparation p ⟨.error (.failed .decompression),
        p.arrival source ++ [.logged (.noStaging length)], p.afterAcquisition source .acquired⟩
  /-- There is no decompressor for a compressed image. -/
  | noDecompressor {source : Source} {location : Location} (hacq : p.Acquires source location)
      (hmagic : word32 (p.acquired source location) 0 = Header.compressedMagic)
      (hmove : location.Movable p.staging) (hz : p.decompressor = none) :
      Preparation p ⟨.error (.failed .decompression), p.arrival source ++ [.logged .noDecompressor],
        p.afterMove source location⟩
  /-- The decompressor's claim is not accepted. -/
  | refused {source : Source} {location : Location} {z : ζ} (hcan : p.CanUnpack source location z)
      (hclaim : ∀ n, (p.unpackedImage source location z).written = some n →
        ¬ Unpacking.Accepts (p.room source) n) :
      Preparation p ⟨.error (.failed .decompression),
        p.arrival source ++ p.unpackCall source location ++
          [.logged (Unpacking.complaint (p.room source)
            (p.unpackedImage source location z).written)],
        (p.afterMove source location).afterUnpack z (p.acquired source location)⟩
  /-- The unpacked image is the candidate. -/
  | unpacked {source : Source} {location : Location} {z : ζ} {n : Nat}
      (hcan : p.CanUnpack source location z)
      (hclaim : (p.unpackedImage source location z).written = some n)
      (haccept : Unpacking.Accepts (p.room source) n) :
      Preparation p ⟨.ok ⟨.inTarget n, (p.unpackedImage source location z).output.take n, true⟩,
        p.arrival source ++ p.unpackCall source location ++
          [.logged (.unpacked n), .logged (.stage .acquired .decompressed)],
        p.delivered source location z⟩

section uses

variable {p : Pipeline δ ζ ℓ} {source : Source} {medium : BootMedium}

omit [Device δ] [Decompressor ζ] in
/-- The strategy for a medium does not depend on the stage. -/
@[simp] theorem sourceFor_restarted (p : Pipeline δ ζ ℓ) (medium : BootMedium) :
    p.restarted.sourceFor medium = p.sourceFor medium := by
  cases medium <;> rfl

omit [Device δ] [Decompressor ζ] in
/-- A medium that has a strategy is given it. -/
theorem run_requireSource (hsource : p.sourceFor medium = some source) :
    (requireSource medium).run p = ⟨.ok source, [], p⟩ := by
  rw [requireSource, run_bind, run_get, continueWith_ok, hsource]
  rfl

omit [Device δ] [Decompressor ζ] in
/-- One without a strategy is unavailable. -/
theorem run_requireSource_of_none (hsource : p.sourceFor medium = none) :
    (requireSource medium).run p = ⟨.error (.failed (.mediumUnavailable medium)), [], p⟩ := by
  rw [requireSource, run_bind, run_get, continueWith_ok, hsource]
  rfl

omit [Device δ] [Decompressor ζ] in
/-- The strategy is that of the selected medium. -/
theorem run_selectedSource (hsel : p.selected = some medium) :
    (selectedSource : Attempt (Pipeline δ ζ ℓ) Source).run p = (requireSource medium).run p := by
  rw [selectedSource, run_bind, run_get, continueWith_ok, hsel]
  rfl

omit [Device δ] [Decompressor ζ] in
/-- Without a selected medium there is none. -/
theorem run_selectedSource_of_none (hsel : p.selected = none) :
    (selectedSource : Attempt (Pipeline δ ζ ℓ) Source).run p.restarted =
      ⟨.error (.failed .noBootMedium), [], p.restarted⟩ := by
  have hsel' : p.restarted.selected = none := hsel
  rw [selectedSource, run_bind, run_get, continueWith_ok, hsel']
  rfl

/-- A preparation asks for the strategy first. -/
theorem run_prepare (p : Pipeline δ ζ ℓ) :
    (prepare : Attempt (Pipeline δ ζ ℓ) Candidate).run p =
      continueWith (selectedSource.run p.restarted) fun source =>
        onWorkspace source.acquire >>= deliver := rfl

/-- A preparation with a strategy is its acquisition, and what is made of the image. -/
theorem run_prepare_of_uses (huses : p.Uses source) :
    (prepare : Attempt (Pipeline δ ζ ℓ) Candidate).run p =
      continueWith ⟨(p.acquisition source).result, (p.acquisition source).trace,
        p.afterAcquisition source .notStarted⟩ deliver := by
  obtain ⟨medium, hsel, hsource⟩ := huses
  rw [run_prepare, run_selectedSource (p := p.restarted) hsel, run_requireSource, continueWith_ok]
  · rfl
  · rw [sourceFor_restarted, hsource]

end uses

/-- Whether an image is compressed is told by its magic word. -/
theorem kind_eq_compressed {image : Bytes} (hlen : Header.size ≤ image.length) :
    (Header.ofBytes image).kind = some .compressed ↔
      word32 image 0 = Header.compressedMagic := by
  have hne : Header.plainMagic ≠ Header.compressedMagic := by decide
  rw [Header.kind, Header.magic_ofBytes hlen]
  split_ifs with hplain hcompressed
  · simp [hplain, hne]
  · simp [hcompressed]
  · simp [hcompressed]

section deliver

variable {p : Pipeline δ ζ ℓ} {source : Source} {location : Location}

omit [Decompressor ζ] in
/-- What was acquired fits the target. -/
theorem fits_of_succeeds (hacq : (p.acquisition source).result = .ok location) :
    location.Fits (p.acquisition source).state.target :=
  ((source.acquire_keeps p.toWorkspace).value location hacq).fits

omit [Decompressor ζ] in
/-- A linked image that is used is acquired, if it is long enough for a header and its magic word is
accepted. -/
theorem acquires_linked {image : Bytes} (huses : p.Uses (.linked image))
    (hlen : Header.size ≤ image.length) (hmagic : (Header.ofBytes image).recognized = true) :
    p.Acquires (.linked image) (.resident .payload image) :=
  ⟨huses, congrArg Ran.result (Source.run_acquireLinked hlen hmagic p.toWorkspace), hlen⟩

/-- What is made of an acquired image that has room for a header. -/
theorem run_deliver (hacq : p.Acquires source location) :
    (deliver location : Attempt (Pipeline δ ζ ℓ) Candidate).run
        (p.afterAcquisition source .notStarted) =
      continueWith ⟨.ok (), [.logged (.stage .notStarted .acquired)],
        p.afterAcquisition source .acquired⟩ fun _ =>
          if word32 (p.acquired source location) 0 = Header.compressedMagic then do
            let location ← unpack location
            let image ← imageAt location
            return ⟨location, image, true⟩
          else return ⟨location, p.acquired source location, false⟩ := by
  have himage : (imageAt location : Attempt (Pipeline δ ζ ℓ) Bytes).run
      (p.afterAcquisition source .acquired) =
        ⟨.ok (p.acquired source location), [], p.afterAcquisition source .acquired⟩ :=
    run_imageAt (fits_of_succeeds hacq.succeeds)
  have hread : Header.read (p.acquired source location) =
      .ok (Header.ofBytes (p.acquired source location)) := if_pos hacq.long
  have hadvance : (advance .acquired : Attempt (Pipeline δ ζ ℓ) Unit).run
      (p.afterAcquisition source .notStarted) = ⟨.ok (), [.logged (.stage .notStarted .acquired)],
        p.afterAcquisition source .acquired⟩ := rfl
  rw [deliver, run_bind, hadvance, continueWith_ok, run_bind, himage, continueWith_ok, hread]
  by_cases hmagic : word32 (p.acquired source location) 0 = Header.compressedMagic
  · have hkind := (kind_eq_compressed hacq.long).mpr hmagic
    simp [hkind, hmagic]
  · have hkind := (not_congr (kind_eq_compressed hacq.long)).mpr hmagic
    have hbeq : ((Header.ofBytes (p.acquired source location)).kind == some .compressed) = false :=
      beq_eq_false_iff_ne.mpr hkind
    simp [hkind, hbeq, hmagic, himage, Except.map]

/-- An acquired image without room for a header is refused. -/
theorem run_deliver_of_short (hacq : (p.acquisition source).result = .ok location)
    (hlen : (p.acquired source location).length < Header.size) :
    (deliver location : Attempt (Pipeline δ ζ ℓ) Candidate).run
        (p.afterAcquisition source .notStarted) =
      ⟨.error (.failed .acquisition), [.logged (.stage .notStarted .acquired)],
        p.afterAcquisition source .acquired⟩ := by
  have himage : (imageAt location : Attempt (Pipeline δ ζ ℓ) Bytes).run
      (p.afterAcquisition source .acquired) =
        ⟨.ok (p.acquired source location), [], p.afterAcquisition source .acquired⟩ :=
    run_imageAt (fits_of_succeeds hacq)
  have hread : Header.read (p.acquired source location) = .error .acquisition :=
    if_neg (Nat.not_le_of_lt hlen)
  have hadvance : (advance .acquired : Attempt (Pipeline δ ζ ℓ) Unit).run
      (p.afterAcquisition source .notStarted) = ⟨.ok (), [.logged (.stage .notStarted .acquired)],
        p.afterAcquisition source .acquired⟩ := rfl
  rw [deliver, run_bind, hadvance, continueWith_ok, run_bind, himage, continueWith_ok, hread]
  rfl

/-- The input of the decompressor is the acquired image, and it is out of the way. -/
theorem run_unpack (hacq : p.Acquires source location) (hmove : location.Movable p.staging) :
    (unpack location : Attempt (Pipeline δ ζ ℓ) Location).run
        (p.afterAcquisition source .acquired) =
      (onUnpacking (Unpacking.run (p.acquired source location)) >>= fun n =>
        advance .decompressed >>= fun _ => pure (.inTarget n)).run
          (p.afterMove source location) := by
  have hinput := run_compressedInput (p := p.afterAcquisition source .acquired)
    (fits_of_succeeds hacq.succeeds) hmove
  rw [unpack, run_bind, hinput, continueWith_ok]
  rfl

variable {z : ζ}

/-- The output of the decompressor is as long as the room that it had. -/
theorem length_output_unpackedImage (source : Source) (location : Location) (z : ζ) :
    (p.unpackedImage source location z).output.length = p.room source :=
  Decompressor.length_unpack _ _ _

/-- An unpacked image of `n` bytes is the start of the target. -/
theorem run_unpack_of_accepts {n : Nat} (hcan : p.CanUnpack source location z)
    (hclaim : (p.unpackedImage source location z).written = some n)
    (haccept : Unpacking.Accepts (p.room source) n) :
    (unpack location : Attempt (Pipeline δ ζ ℓ) Location).run
        (p.afterAcquisition source .acquired) =
      ⟨.ok (.inTarget n), p.unpackCall source location ++
          [.logged (.unpacked n), .logged (.stage .acquired .decompressed)],
        p.delivered source location z⟩ := by
  have haccepted : ∀ u : Unpacking ζ, (Unpacking.accept (p.room source)
      (p.unpackedImage source location z).written).run u = ⟨.ok n, [.logged (.unpacked n)], u⟩ := by
    intro u
    rw [hclaim, Unpacking.run_accept haccept]
  have hrun := run_unpacking_of_some (p := p.afterMove source location) hcan.configured haccepted
  rw [run_unpack hcan.toAcquires hcan.movable, run_bind, hrun, continueWith_ok]
  rfl

/-- A claim that is not accepted ends the attempt, and leaves what the decompressor wrote. -/
theorem run_unpack_of_refused (hcan : p.CanUnpack source location z)
    (hclaim : ∀ n, (p.unpackedImage source location z).written = some n →
      ¬ Unpacking.Accepts (p.room source) n) :
    (unpack location : Attempt (Pipeline δ ζ ℓ) Location).run
        (p.afterAcquisition source .acquired) =
      ⟨.error (.failed .decompression), p.unpackCall source location ++
          [.logged (Unpacking.complaint (p.room source)
            (p.unpackedImage source location z).written)],
        (p.afterMove source location).afterUnpack z (p.acquired source location)⟩ := by
  have hrun := run_unpacking_of_some (p := p.afterMove source location) hcan.configured
    (fun u => Unpacking.run_accept_of_not hclaim u)
  rw [run_unpack hcan.toAcquires hcan.movable, run_bind, hrun, continueWith_error]
  rfl

/-- Without a decompressor the attempt ends with the image moved. -/
theorem run_unpack_of_none (hacq : p.Acquires source location)
    (hmove : location.Movable p.staging) (hz : p.decompressor = none) :
    (unpack location : Attempt (Pipeline δ ζ ℓ) Location).run
        (p.afterAcquisition source .acquired) =
      ⟨.error (.failed .decompression), [.logged .noDecompressor],
        p.afterMove source location⟩ := by
  have hz' : (p.afterMove source location).decompressor = none := hz
  rw [run_unpack hacq hmove, run_bind, run_unpacking_of_none _ hz', continueWith_error]

/-- An image in the target that cannot be moved ends the attempt. -/
theorem run_unpack_of_not_movable {length : Nat}
    (hmove : ¬ (Location.inTarget length).Movable p.staging) :
    (unpack (.inTarget length) : Attempt (Pipeline δ ζ ℓ) Location).run
        (p.afterAcquisition source .acquired) =
      ⟨.error (.failed .decompression), [.logged (.noStaging length)],
        p.afterAcquisition source .acquired⟩ := by
  have hinput := run_compressedInput_of_not_movable (p := p.afterAcquisition source .acquired) hmove
  rw [unpack, run_bind, hinput, continueWith_error]

/-- A preparation that acquires an image goes on with what is made of it. -/
theorem run_prepare_of_acquires (hacq : p.Acquires source location) :
    (prepare : Attempt (Pipeline δ ζ ℓ) Candidate).run p =
      continueWith ⟨.ok (), p.arrival source, p.afterAcquisition source .acquired⟩ fun _ =>
        if word32 (p.acquired source location) 0 = Header.compressedMagic then do
          let location ← unpack location
          let image ← imageAt location
          return ⟨location, image, true⟩
        else return ⟨location, p.acquired source location, false⟩ := by
  rw [run_prepare_of_uses hacq.uses, hacq.succeeds, continueWith_ok, run_deliver hacq,
    continueWith_ok, continueWith_ok, arrival, List.append_assoc]

/-- An image that is not compressed is the candidate. -/
theorem run_prepare_of_plain (hacq : p.Acquires source location)
    (hmagic : word32 (p.acquired source location) 0 ≠ Header.compressedMagic) :
    (prepare : Attempt (Pipeline δ ζ ℓ) Candidate).run p =
      ⟨.ok ⟨location, p.acquired source location, false⟩, p.arrival source,
        p.afterAcquisition source .acquired⟩ := by
  rw [run_prepare_of_acquires hacq, continueWith_ok, if_neg hmagic, run_pure, List.append_nil]

/-- What the unpacking of a compressed image comes to is what the preparation comes to. -/
theorem run_prepare_of_compressed (hacq : p.Acquires source location)
    (hmagic : word32 (p.acquired source location) 0 = Header.compressedMagic) :
    (prepare : Attempt (Pipeline δ ζ ℓ) Candidate).run p =
      continueWith ⟨.ok (), p.arrival source, p.afterAcquisition source .acquired⟩ fun _ =>
        unpack location >>= fun location => imageAt location >>= fun image =>
          pure ⟨location, image, true⟩ := by
  rw [run_prepare_of_acquires hacq, continueWith_ok, if_pos hmagic, continueWith_ok]

/-- An unpacked image whose length is accepted is the candidate. -/
theorem run_prepare_of_unpacked {n : Nat} (hcan : p.CanUnpack source location z)
    (hclaim : (p.unpackedImage source location z).written = some n)
    (haccept : Unpacking.Accepts (p.room source) n) :
    (prepare : Attempt (Pipeline δ ζ ℓ) Candidate).run p =
      ⟨.ok ⟨.inTarget n, (p.unpackedImage source location z).output.take n, true⟩,
        p.arrival source ++ p.unpackCall source location ++
          [.logged (.unpacked n), .logged (.stage .acquired .decompressed)],
        p.delivered source location z⟩ := by
  have hfits : (Location.inTarget n).Fits (p.delivered source location z).target :=
    Nat.le_trans haccept.2 (Nat.le_of_eq (length_output_unpackedImage source location z).symm)
  have himage : (Location.inTarget n).bytes (p.delivered source location z).target =
      (p.unpackedImage source location z).output.take n := rfl
  rw [run_prepare_of_compressed hcan.toAcquires hcan.compressed, continueWith_ok, run_bind,
    run_unpack_of_accepts hcan hclaim haccept, continueWith_ok, run_bind, run_imageAt hfits,
    continueWith_ok, run_pure, himage]
  simp only [List.append_nil, List.append_assoc]

/-- A claim that is not accepted ends the preparation. -/
theorem run_prepare_of_refused (hcan : p.CanUnpack source location z)
    (hclaim : ∀ n, (p.unpackedImage source location z).written = some n →
      ¬ Unpacking.Accepts (p.room source) n) :
    (prepare : Attempt (Pipeline δ ζ ℓ) Candidate).run p =
      ⟨.error (.failed .decompression),
        p.arrival source ++ p.unpackCall source location ++
          [.logged (Unpacking.complaint (p.room source)
            (p.unpackedImage source location z).written)],
        (p.afterMove source location).afterUnpack z (p.acquired source location)⟩ := by
  rw [run_prepare_of_compressed hcan.toAcquires hcan.compressed, continueWith_ok, run_bind,
    run_unpack_of_refused hcan hclaim, continueWith_error]
  simp only [← List.append_assoc]

/-- So does a compressed image for which there is no decompressor. -/
theorem run_prepare_of_no_decompressor (hacq : p.Acquires source location)
    (hmagic : word32 (p.acquired source location) 0 = Header.compressedMagic)
    (hmove : location.Movable p.staging) (hz : p.decompressor = none) :
    (prepare : Attempt (Pipeline δ ζ ℓ) Candidate).run p =
      ⟨.error (.failed .decompression), p.arrival source ++ [.logged .noDecompressor],
        p.afterMove source location⟩ := by
  rw [run_prepare_of_compressed hacq hmagic, continueWith_ok, run_bind,
    run_unpack_of_none hacq hmove hz, continueWith_error]

/-- So does one that cannot be moved out of the target. -/
theorem run_prepare_of_not_movable {length : Nat} (hacq : p.Acquires source (.inTarget length))
    (hmagic : word32 (p.acquired source (.inTarget length)) 0 = Header.compressedMagic)
    (hmove : ¬ (Location.inTarget length).Movable p.staging) :
    (prepare : Attempt (Pipeline δ ζ ℓ) Candidate).run p =
      ⟨.error (.failed .decompression), p.arrival source ++ [.logged (.noStaging length)],
        p.afterAcquisition source .acquired⟩ := by
  rw [run_prepare_of_compressed hacq hmagic, continueWith_ok, run_bind,
    run_unpack_of_not_movable hmove, continueWith_error]

/-- A preparation with a compressed image takes one of the four courses of unpacking. -/
theorem preparation_of_compressed (hacq : p.Acquires source location)
    (hmagic : word32 (p.acquired source location) 0 = Header.compressedMagic) :
    Preparation p ((prepare : Attempt (Pipeline δ ζ ℓ) Candidate).run p) := by
  by_cases hmove : location.Movable p.staging
  · rcases hz : p.decompressor with _ | z
    · rw [run_prepare_of_no_decompressor hacq hmagic hmove hz]
      exact .noDecompressor hacq hmagic hmove hz
    · have hcan : p.CanUnpack source location z := ⟨hacq, hmagic, hmove, hz⟩
      by_cases hclaim : ∃ n, (p.unpackedImage source location z).written = some n ∧
          Unpacking.Accepts (p.room source) n
      · obtain ⟨n, hclaim, haccept⟩ := hclaim
        rw [run_prepare_of_unpacked hcan hclaim haccept]
        exact .unpacked hcan hclaim haccept
      · have hrefused : ∀ n, (p.unpackedImage source location z).written = some n →
            ¬ Unpacking.Accepts (p.room source) n := fun n hn haccept => hclaim ⟨n, hn, haccept⟩
        rw [run_prepare_of_refused hcan hrefused]
        exact .refused hcan hrefused
  · cases location with
    | resident place image => exact absurd trivial hmove
    | inTarget length =>
      rw [run_prepare_of_not_movable hacq hmagic hmove]
      exact .noStaging hacq hmagic hmove

end deliver

/-- **Every preparation takes one of the nine courses.** -/
theorem preparation (p : Pipeline δ ζ ℓ) :
    Preparation p ((prepare : Attempt (Pipeline δ ζ ℓ) Candidate).run p) := by
  rcases hsel : p.selected with _ | medium
  · rw [run_prepare, run_selectedSource_of_none hsel, continueWith_error]
    exact .noMedium hsel
  rcases hsource : p.sourceFor medium with _ | source
  · rw [run_prepare, run_selectedSource (p := p.restarted) hsel, run_requireSource_of_none,
      continueWith_error]
    · exact .unavailable hsel hsource
    · rw [sourceFor_restarted, hsource]
  have huses : p.Uses source := ⟨medium, hsel, hsource⟩
  rcases hacq : (p.acquisition source).result with stop | location
  · rw [run_prepare_of_uses huses, hacq, continueWith_error]
    exact .unacquired huses hacq
  by_cases hlen : Header.size ≤ (p.acquired source location).length
  · have hacquires : p.Acquires source location := ⟨huses, hacq, hlen⟩
    by_cases hmagic : word32 (p.acquired source location) 0 = Header.compressedMagic
    · exact preparation_of_compressed hacquires hmagic
    · rw [run_prepare_of_plain hacquires hmagic]
      exact .plain hacquires hmagic
  · rw [run_prepare_of_uses huses, hacq, continueWith_ok,
      run_deliver_of_short hacq (Nat.lt_of_not_le hlen)]
    exact .headerless huses hacq (Nat.lt_of_not_le hlen)

end Pipeline

end BootImage
