import BootImage.Device
import BootImage.HeaderCheck

/-!
# Copying an image from a block medium

The copy takes two steps. The header is read into a scratch header first; only when its magic word
is accepted, and the image it claims fits the target region, is the whole image read from the same
offset into the target. The second read fetches the header again, and a device may answer
differently: what the target holds is the second answer.
-/

namespace BootImage

open Attempt

/-- What a copy works on. -/
structure Workspace (δ : Type) where
  /-- The board's media. -/
  device : δ
  /-- The header read ahead of an image. -/
  scratch : Header
  /-- The region that receives the image. -/
  target : Bytes

/-- A place on a block medium where an image starts. -/
structure BlockCopy where
  medium : BlockMedium
  offset : UInt64
  deriving DecidableEq, Repr

namespace Workspace

variable {δ α : Type}

/-- Runs a step on the device of a workspace. -/
def onDevice (x : Attempt δ α) : Attempt (Workspace δ) α :=
  Attempt.on Workspace.device (fun w d => { w with device := d }) x

end Workspace

namespace BlockCopy

variable {δ : Type} [Device δ] {σ : Type}

/-- Fails if a read had a fault, which is logged. -/
def checkRead (c : BlockCopy) (length : Nat) : Option String → Attempt σ Unit
  | none => pure ()
  | some fault => failWith (.readFailed length c.medium c.offset.toNat fault) .acquisition

/-- Reads a header into the scratch header. -/
def readScratch (c : BlockCopy) : Attempt (Workspace δ) Unit := do
  let before ← get
  let (buffer, fault) ← Workspace.onDevice
    (Device.fetch c.medium c.offset.toNat before.scratch.bytes)
  modify fun w => { w with scratch := Header.ofBytes buffer }
  c.checkRead Header.size fault

/-- Reads an image of the given length into the start of the target. -/
def readTarget (c : BlockCopy) (length : Nat) : Attempt (Workspace δ) Unit := do
  let before ← get
  let room ← cut before.target length
  let (buffer, fault) ← Workspace.onDevice (Device.fetch c.medium c.offset.toNat room)
  modify fun w => { w with target := buffer ++ w.target.drop length }
  c.checkRead length fault

/-- Copies the image to the start of the target, and gives its length. -/
def acquire (c : BlockCopy) : Attempt (Workspace δ) Nat := do
  log (.preparingCopy c.medium c.offset.toNat)
  log .readingHeader
  c.readScratch
  let w ← get
  w.scratch.requireMagic
  w.scratch.logDetails
  let length := w.scratch.length
  if length.toNat ≤ w.target.length then do
    log (.copying length.toNat)
    c.readTarget length.toNat
    return length.toNat
  else
    failWith (.targetTooSmall length w.target.length) (.imageTooLarge length w.target.length)

end BlockCopy

end BootImage
