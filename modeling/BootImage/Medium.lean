/-!
# The media a boot image comes from

A block medium is read through a board's block-read primitive. A boot medium is what a user
selects: one of the block media, or the image linked into the bootloader. Both are ordered by
declaration, which is also the order of their indices in stored data.
-/

namespace BootImage

/-- A medium that is read in blocks of bytes at an offset. -/
inductive BlockMedium where
  /-- QSPI flash, read without executing in place. -/
  | qspi
  /-- An MMC or SD card. -/
  | mmc
  /-- A discrete SPI flash. -/
  | spiFlash
  deriving DecidableEq, Repr

/-- A medium that can be selected for a boot. -/
inductive BootMedium where
  /-- The image linked into the bootloader. -/
  | payload
  /-- QSPI flash, mapped into memory or read in blocks, as configured. -/
  | qspi
  /-- An MMC or SD card. -/
  | mmc
  /-- A discrete SPI flash. -/
  | spiFlash
  deriving DecidableEq, Repr

namespace BlockMedium

/-- The block media in their order. -/
def all : List BlockMedium := [qspi, mmc, spiFlash]

/-- The place of a medium in the order, counted from 0. -/
def index : BlockMedium → Nat
  | qspi => 0
  | mmc => 1
  | spiFlash => 2

/-- The medium's name in messages and settings. -/
def name : BlockMedium → String
  | qspi => "Qspi"
  | mmc => "Mmc"
  | spiFlash => "SpiFlash"

/-- A list of media in their order; equal ones keep their places. -/
def sort (media : List BlockMedium) : List BlockMedium :=
  media.mergeSort fun a b => a.index ≤ b.index

end BlockMedium

namespace BootMedium

/-- The boot media in their order. -/
def all : List BootMedium := [payload, qspi, mmc, spiFlash]

/-- The place of a medium in the order, counted from 0. -/
def index : BootMedium → Nat
  | payload => 0
  | qspi => 1
  | mmc => 2
  | spiFlash => 3

/-- The medium's name in messages and settings. -/
def name : BootMedium → String
  | payload => "Payload"
  | qspi => "Qspi"
  | mmc => "Mmc"
  | spiFlash => "SpiFlash"

/-- The block medium behind a boot medium; the linked image has none. -/
def block? : BootMedium → Option BlockMedium
  | payload => none
  | qspi => some .qspi
  | mmc => some .mmc
  | spiFlash => some .spiFlash

/-- A list of media in their order; equal ones keep their places. -/
def sort (media : List BootMedium) : List BootMedium :=
  media.mergeSort fun a b => a.index ≤ b.index

end BootMedium

/-- The index of a medium finds it in the list of all. -/
theorem BootMedium.all_index (m : BootMedium) : BootMedium.all[m.index]? = some m := by
  cases m <;> rfl

end BootImage
