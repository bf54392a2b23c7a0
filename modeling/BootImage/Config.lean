import BootImage.Launch
import BootImage.PartitionTable.Lookup

/-!
# Which media a board has, and how they are used

A medium without a section in the configuration does not exist on the board. With nothing
selected, the first medium that exists is taken, in the order SPI flash, MMC, QSPI, payload.
-/

namespace BootImage

/-- Use of the SPI flash. -/
structure SpiFlashConfig where
  /-- The offset of the image in the flash. -/
  offset : UInt64
  deriving DecidableEq

/-- Use of the card. -/
structure MmcConfig where
  /-- Whether the image is looked up in a partition table; otherwise it is at the card's start. -/
  useTable : Bool
  /-- The type of the partition that has the image. -/
  partitionType : Guid
  deriving DecidableEq

/-- Use of the QSPI flash. -/
structure QspiConfig where
  /-- Whether the flash is mapped into memory and the image used in place. -/
  inPlace : Bool
  deriving DecidableEq

/-- The boot media of a board, and what follows the registration of an image. -/
structure BootConfig where
  spiFlash : Option SpiFlashConfig
  mmc : Option MmcConfig
  qspi : Option QspiConfig
  /-- Whether an image is linked into the bootloader. -/
  payload : Bool
  bootFlow : BootFlow
  deriving DecidableEq

/-- A card is searched for the boot partition, unless it is said otherwise. -/
def MmcConfig.default : MmcConfig := ⟨true, bootPartitionType⟩

/-- QSPI flash is read in blocks, unless it is said otherwise. -/
def QspiConfig.default : QspiConfig := ⟨false⟩

namespace BootConfig

/-- A board without boot media, on which all cores are restarted. -/
def default : BootConfig := ⟨none, none, none, false, .restartCores⟩

/-- Whether a medium exists on the board. -/
def isEnabled (c : BootConfig) : BootMedium → Bool
  | .payload => c.payload
  | .qspi => c.qspi.isSome
  | .mmc => c.mmc.isSome
  | .spiFlash => c.spiFlash.isSome

/-- The media in the order in which one is taken when nothing is selected. -/
def precedence : List BootMedium := [.spiFlash, .mmc, .qspi, .payload]

/-- The medium that is taken when nothing is selected. -/
def defaultMedium (c : BootConfig) : Option BootMedium := precedence.find? c.isEnabled

end BootConfig

end BootImage
