import BootImage.Config
import BootImage.Source

/-!
# The boot pipeline and its selected medium

A pipeline has a board's media, its regions of memory, its collaborators and a selected medium. The
target region plays the part of working memory: images that are copied or unpacked end up at its
start.

A medium can be selected if the board has it and, for an image that is used in place, if the memory
it is in was supplied.
-/

namespace BootImage

open Attempt

/-- The state of a board that boots: `δ` is that of its device, `ζ` that of its decompressor, and
`ℓ` that of its launcher. -/
structure Pipeline (δ ζ ℓ : Type) extends Workspace δ where
  launcher : ℓ
  /-- The checksum primitive for images. -/
  crc : Checksum
  config : BootConfig
  /-- The image linked into the bootloader. -/
  payload : Option Bytes
  /-- The memory-mapped QSPI flash. -/
  window : Option Bytes
  decompressor : Option ζ
  /-- The region that copied compressed images are moved to. -/
  staging : Option Bytes
  /-- The medium of the next attempt. -/
  selected : Option BootMedium
  /-- The stage that the last attempt reached. -/
  stage : Stage

namespace Pipeline

variable {δ ζ ℓ : Type}

/-- A pipeline with the default medium of its configuration selected. -/
def new (device : δ) (launcher : ℓ) (config : BootConfig) (target : Bytes) : Pipeline δ ζ ℓ where
  device := device
  scratch := Header.zero
  target := target
  launcher := launcher
  crc := Crc32.checksum
  config := config
  payload := none
  window := none
  decompressor := none
  staging := none
  selected := config.defaultMedium
  stage := .notStarted

/-- Supplies the image linked into the bootloader. -/
def withPayload (p : Pipeline δ ζ ℓ) (image : Bytes) : Pipeline δ ζ ℓ :=
  { p with payload := some image }

/-- Supplies the memory-mapped QSPI flash. -/
def withWindow (p : Pipeline δ ζ ℓ) (window : Bytes) : Pipeline δ ζ ℓ :=
  { p with window := some window }

/-- Supplies a decompressor, without which no compressed image boots. -/
def withDecompressor (p : Pipeline δ ζ ℓ) (decompressor : ζ) : Pipeline δ ζ ℓ :=
  { p with decompressor := some decompressor }

/-- Supplies a staging region, without which no copied compressed image boots. -/
def withStaging (p : Pipeline δ ζ ℓ) (staging : Bytes) : Pipeline δ ζ ℓ :=
  { p with staging := some staging }

/-- Replaces the checksum primitive. -/
def withCrc (p : Pipeline δ ζ ℓ) (crc : Checksum) : Pipeline δ ζ ℓ := { p with crc := crc }

/-! ### Selecting a medium -/

/-- The strategy for a medium, if the board has the medium and the memory it is read from. -/
def sourceFor (p : Pipeline δ ζ ℓ) : BootMedium → Option Source
  | .payload => if p.config.payload then p.payload.map .linked else none
  | .qspi => p.config.qspi.bind fun qspi =>
    if qspi.inPlace then p.window.map .mapped else some (.copied ⟨.qspi, 0⟩)
  | .mmc => p.config.mmc.map fun mmc =>
    if mmc.useTable then .partitioned ⟨.mmc, mmc.partitionType⟩ else .copied ⟨.mmc, 0⟩
  | .spiFlash => p.config.spiFlash.map fun spi => .copied ⟨.spiFlash, spi.offset⟩

/-- The strategy for a medium; without one the medium is not available. -/
def requireSource (medium : BootMedium) : Attempt (Pipeline δ ζ ℓ) Source := do
  let p ← get
  match p.sourceFor medium with
  | some source => return source
  | none => fail (.mediumUnavailable medium)

/-- Selects the medium of the next attempt. -/
def select (medium : BootMedium) : Attempt (Pipeline δ ζ ℓ) Unit := do
  let _ ← requireSource medium
  log (.selecting medium)
  modify fun p => { p with selected := some medium }

end Pipeline

end BootImage
