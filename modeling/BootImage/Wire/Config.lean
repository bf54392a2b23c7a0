import BootImage.Config
import BootImage.Wire

/-!
# The wire form of a configuration

The fields are written in the order of their declaration. Media, boot flows and choices of cores
are written as the index of the alternative, and a single core is followed by its number.
-/

namespace BootImage

open Wire

/-- Reads a block medium. -/
def BlockMedium.reader : Reader BlockMedium := oneOf BlockMedium.all

/-- Writes a block medium. -/
def BlockMedium.encode (m : BlockMedium) : Bytes := Wire.ofNat m.index

/-- Reads a boot medium. -/
def BootMedium.reader : Reader BootMedium := oneOf BootMedium.all

/-- Writes a boot medium. -/
def BootMedium.encode (m : BootMedium) : Bytes := Wire.ofNat m.index

/-- Reads a boot flow. -/
def BootFlow.reader : Reader BootFlow := oneOf BootFlow.all

/-- Writes a boot flow. -/
def BootFlow.encode (f : BootFlow) : Bytes := Wire.ofNat f.index

/-- Reads a choice of cores. -/
def Cores.reader : Reader Cores := do
  match ← nat32 with
  | 0 => return .all
  | 1 => return .single (← byte)
  | _ => refuse .noValue

/-- Writes a choice of cores. -/
def Cores.encode : Cores → Bytes
  | all => Wire.ofNat 0
  | single core => Wire.ofNat 1 ++ [core]

/-- Reads the use of the SPI flash. -/
def SpiFlashConfig.reader : Reader SpiFlashConfig := do
  return ⟨UInt64.ofNat (← nat64)⟩

/-- Writes the use of the SPI flash. -/
def SpiFlashConfig.encode (c : SpiFlashConfig) : Bytes := Wire.ofNat c.offset.toNat

/-- Reads the use of the card. -/
def MmcConfig.reader : Reader MmcConfig := do
  let useTable ← bool
  return ⟨useTable, ← guid⟩

/-- Writes the use of the card. -/
def MmcConfig.encode (c : MmcConfig) : Bytes := ofBool c.useTable ++ ofGuid c.partitionType

/-- Reads the use of the QSPI flash. -/
def QspiConfig.reader : Reader QspiConfig := do
  return ⟨← bool⟩

/-- Writes the use of the QSPI flash. -/
def QspiConfig.encode (c : QspiConfig) : Bytes := ofBool c.inPlace

/-- Reads a configuration. -/
def BootConfig.reader : Reader BootConfig := do
  let spiFlash ← option SpiFlashConfig.reader
  let mmc ← option MmcConfig.reader
  let qspi ← option QspiConfig.reader
  let payload ← bool
  return ⟨spiFlash, mmc, qspi, payload, ← BootFlow.reader⟩

/-- Writes a configuration. -/
def BootConfig.encode (c : BootConfig) : Bytes :=
  ofOption SpiFlashConfig.encode c.spiFlash ++ (ofOption MmcConfig.encode c.mmc ++
    (ofOption QspiConfig.encode c.qspi ++ (ofBool c.payload ++ c.bootFlow.encode)))

/-- The configuration at the start of a byte string, and the bytes after it. -/
def BootConfig.decode (s : Bytes) : Except WireError (BootConfig × Bytes) := BootConfig.reader.run s

end BootImage
