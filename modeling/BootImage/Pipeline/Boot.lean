import BootImage.Pipeline.Basic
import BootImage.Unpacking

/-!
# A boot attempt

One attempt (`Pipeline.boot`) acquires the image of the selected medium, unpacks it if it is
compressed, validates it, registers it with the launcher and asks for it to be started. A step is
taken only when the one before it succeeded. The attempt answers yes or no; which step failed is in
the log, and in the stages that the attempt went through.

A compressed image that was copied to the target region cannot be unpacked in place, and is first
moved to the staging region. Only the checksum of the header decides whether an image is valid.
That of the whole image is computed for the log when the header's does not hold.
-/

namespace BootImage

open Attempt

namespace Pipeline

variable {δ ζ ℓ σ : Type}

/-- Moves on to a stage. -/
def advance (next : Stage) : Attempt (Pipeline δ ζ ℓ) Unit := do
  let p ← get
  log (.stage p.stage next)
  modify fun p => { p with stage := next }

/-- Runs a step on the device, the scratch header and the target region. -/
def onWorkspace {α : Type} (x : Attempt (Workspace δ) α) : Attempt (Pipeline δ ζ ℓ) α :=
  Attempt.on toWorkspace (fun p w => { p with toWorkspace := w }) x

/-- Runs a step on the decompressor and the target region. -/
def onUnpacking {α : Type} (x : Attempt (Unpacking ζ) α) : Attempt (Pipeline δ ζ ℓ) α :=
  Attempt.on (fun p => ⟨p.decompressor, p.target⟩)
    (fun p u => { p with decompressor := u.decompressor, target := u.output }) x

/-- The bytes of the image at a location. -/
def imageAt (location : Location) : Attempt (Pipeline δ ζ ℓ) Bytes := do
  let p ← get
  location.image p.target

/-- The strategy for the selected medium. -/
def selectedSource : Attempt (Pipeline δ ζ ℓ) Source := do
  let p ← get
  match p.selected with
  | some medium => requireSource medium
  | none => fail .noBootMedium

/-- Moves the first bytes of the target to the start of the staging region, if there is one and it
has room for them. -/
def moveToStaging (length : Nat) : Attempt (Pipeline δ ζ ℓ) Bytes := do
  let p ← get
  match p.staging.filter (length ≤ ·.length) with
  | none => failWith (.noStaging length) .decompression
  | some staging => do
    let image ← cut p.target length
    let moved ← overwrite (staging.take length) image
    modify fun p => { p with staging := some (moved ++ staging.drop length) }
    return moved

/-- The compressed bytes, where the decompressor may read them while it writes to the target. -/
def compressedInput : Location → Attempt (Pipeline δ ζ ℓ) Bytes
  | .resident _ image => pure image
  | .inTarget length => moveToStaging length

/-- Unpacks a compressed image into the target region. -/
def unpack [Decompressor ζ] (location : Location) : Attempt (Pipeline δ ζ ℓ) Location := do
  let input ← compressedInput location
  let length ← onUnpacking (Unpacking.run input)
  advance .decompressed
  return .inTarget length

/-- Checks an image before it is registered, and gives its header. -/
def validate (crc : Checksum) (image : Bytes) (wasUnpacked : Bool) : Attempt σ Header := do
  let header ← ofExcept (Header.read image)
  if header.magic = Header.plainMagic then pure ()
  else failWith (.invalidMagic header.magic) (.magicMismatch header.magic)
  let (holds, header) ← within header (Header.checkChecksum crc)
  if holds then do
    log (.imagePassed wasUnpacked)
    return header
  else do
    log (.imageFailed wasUnpacked)
    let value ← header.imageChecksum crc image
    failWith (.imageChecksum value) .integrity

/-- Registers as much of a validated image as its header claims. -/
def register [Launcher ℓ] (header : Header) (place : Place) (image : Bytes) :
    Attempt (Pipeline δ ζ ℓ) Unit := do
  let slice ← cut image (min header.length.toNat image.length)
  modify fun p => { p with launcher := Launcher.register p.launcher slice }
  emit (.register place slice)
  log .registered
  advance .registered

/-- What a launcher's reply means for the attempt. -/
def settle : LaunchReply → Attempt σ Unit
  | .returned => pure ()
  | .refused fault => failWith (.launchFailed fault) .launch
  | .departed => stop .departed

/-- Asks the launcher to start the registered image, as the configuration says. -/
def launch [Launcher ℓ] : Attempt (Pipeline δ ζ ℓ) Unit := do
  let p ← get
  let call := p.config.bootFlow.call
  let (reply, launcher) := Launcher.start p.launcher call
  emit (.launch call)
  modify fun p => { p with launcher := launcher }
  settle reply

variable [Device δ] [Decompressor ζ] [Launcher ℓ]

/-- All steps of an attempt, up to the first that fails. -/
def attempt : Attempt (Pipeline δ ζ ℓ) Unit := do
  modify fun p => { p with stage := .notStarted }
  let source ← selectedSource
  let acquired ← onWorkspace source.acquire
  advance .acquired
  let raw ← imageAt acquired
  let header ← ofExcept (Header.read raw)
  let compressed := header.kind == some .compressed
  let location ← if compressed then unpack acquired else pure acquired
  let image ← imageAt location
  let p ← get
  let header ← validate p.crc image compressed
  advance .validated
  log (.bootSet header.setName)
  register header location.place image
  launch

/-- Runs one attempt, and answers whether the launcher started the image and came back. -/
def boot : Attempt (Pipeline δ ζ ℓ) Bool := do
  log .starting
  match ← caught attempt with
  | .ok () => return true
  | .error cause => do
    log (.bootFailed cause)
    advance .failed
    return false

end Pipeline

end BootImage
