import BootImage.Attempt

/-!
# Unpacking compressed images

The algorithm is supplied as a decompressor: any state with an operation that turns an input into
bytes at the start of an output region, and says how many. Nothing is assumed of what it says, so
a claim of no bytes, or of more than the region holds, is refused here.
-/

namespace BootImage

open Attempt

/-- A decompressor's answer. -/
structure UnpackAnswer (ζ : Type) where
  /-- The number of bytes it claims to have written, unless it gave up. -/
  written : Option Nat
  /-- What is now in the output region. -/
  output : Bytes
  /-- The decompressor after the call. -/
  decompressor : ζ

/-- A decompressor with states `ζ`. -/
class Decompressor (ζ : Type) where
  /-- Unpacks an input into an output region. -/
  unpack : ζ → (input output : Bytes) → UnpackAnswer ζ
  /-- The output region keeps its length. -/
  length_unpack : ∀ z input output, (unpack z input output).output.length = output.length

/-- What unpacking works on. -/
structure Unpacking (ζ : Type) where
  /-- The decompressor, if one is configured. -/
  decompressor : Option ζ
  /-- The region that receives the unpacked image. -/
  output : Bytes

namespace Unpacking

variable {ζ : Type} [Decompressor ζ]

/-- Calls the decompressor, which is `z`, and gives the number of bytes that it claims. -/
def call (z : ζ) (input : Bytes) : Attempt (Unpacking ζ) (Option Nat) := fun u =>
  let answer := Decompressor.unpack z input u.output
  ⟨.ok answer.written, [.unpack input u.output.length], ⟨some answer.decompressor, answer.output⟩⟩

/-- Accepts a claim of at least one byte and of no more than there is room for. -/
def accept {σ : Type} (room : Nat) : Option Nat → Attempt σ Nat
  | none | some 0 => failWith .unpackFailed .decompression
  | some (n + 1) =>
    if room < n + 1 then failWith (.unpackOverrun (n + 1) room) .decompression
    else do
      log (.unpacked (n + 1))
      return n + 1

/-- Unpacks an input into the output region, and gives the length of the unpacked image. -/
def run (input : Bytes) : Attempt (Unpacking ζ) Nat := do
  let u ← get
  match u.decompressor with
  | none => failWith .noDecompressor .decompression
  | some z => do
    log .unpacking
    let written ← call z input
    accept u.output.length written

end Unpacking

end BootImage
