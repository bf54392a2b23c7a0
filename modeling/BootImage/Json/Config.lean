import BootImage.Config
import BootImage.Json.Object
import BootImage.Json.Writer

/-!
# Configurations as JSON text

A configuration is an object with a member for each medium, one for the linked image, and one for
the boot flow. A medium that is null or left out does not exist on the board; the other members are
required, members of other names are passed over, and no member may come twice. A boot flow is its
name, or an object with its name as the key and null as the value.

The text that is written has no blanks, every member, and the members in the order of declaration.
-/

namespace BootImage

open Json

/-! ### Writing -/

/-- Writes the use of the SPI flash. -/
def SpiFlashConfig.json (c : SpiFlashConfig) : Bytes :=
  ofObject [("offset", Json.ofNat c.offset.toNat)]

/-- Writes the use of the card. -/
def MmcConfig.json (c : MmcConfig) : Bytes :=
  ofObject [("use_gpt", ofBool c.useTable), ("partition_type", quoted c.partitionType.text)]

/-- Writes the use of the QSPI flash. -/
def QspiConfig.json (c : QspiConfig) : Bytes := ofObject [("xip", ofBool c.inPlace)]

/-- Writes a boot flow. -/
def BootFlow.json (f : BootFlow) : Bytes := quoted (asciiText f.name)

/-- Writes a configuration. -/
def BootConfig.json (c : BootConfig) : Bytes :=
  ofObject [("spi_flash", ofOption SpiFlashConfig.json c.spiFlash),
    ("mmc", ofOption MmcConfig.json c.mmc), ("qspi", ofOption QspiConfig.json c.qspi),
    ("payload", ofBool c.payload), ("boot_flow", c.bootFlow.json)]

/-! ### Reading -/

namespace Json

/-- Reads an identifier. -/
def guid : Reader Guid := do
  match Guid.ofText? (← string) with
  | some g => return g
  | none => refuse .data

/-- The boot flow of a name. -/
def flowNamed (name : Bytes) : Reader BootFlow :=
  match BootFlow.all.find? fun f => asciiText f.name = name with
  | some f => pure f
  | none => refuse .data

/-- Reads a boot flow. -/
def flow : Reader BootFlow := do
  skipBlank
  let b ← peek
  if b = ascii '"' then flowNamed (← string)
  else if b = openBrace then do
    let _ ← take
    skipBlank
    expect (ascii '"')
    let f ← flowNamed (← stringBody false)
    colon
    null
    skipBlank
    expect closeBrace
    return f
  else refuse .syntaxError

/-- Reads the use of the SPI flash. -/
def spiFlash : Reader SpiFlashConfig :=
  object none
    (fun offset key =>
      if key = asciiText "offset" then once offset nat64 some else ignored offset)
    fun offset => offset.map fun n => ⟨UInt64.ofNat n⟩

/-- The members of the use of the card that were found. -/
structure MmcDraft where
  useTable : Option Bool
  partitionType : Option Guid

/-- Reads the use of the card. -/
def mmc : Reader MmcConfig :=
  object (⟨none, none⟩ : MmcDraft)
    (fun d key =>
      if key = asciiText "use_gpt" then once d.useTable bool fun b => { d with useTable := some b }
      else if key = asciiText "partition_type" then
        once d.partitionType guid fun g => { d with partitionType := some g }
      else ignored d)
    fun d => do return ⟨← d.useTable, ← d.partitionType⟩

/-- Reads the use of the QSPI flash. -/
def qspi : Reader QspiConfig :=
  object none
    (fun inPlace key =>
      if key = asciiText "xip" then once inPlace bool some else ignored inPlace)
    fun inPlace => inPlace.map QspiConfig.mk

/-- The members of a configuration that were found. -/
structure BootDraft where
  spiFlash : Option (Option SpiFlashConfig)
  mmc : Option (Option MmcConfig)
  qspi : Option (Option QspiConfig)
  payload : Option Bool
  bootFlow : Option BootFlow

/-- Nothing found. -/
def BootDraft.empty : BootDraft := ⟨none, none, none, none, none⟩

/-- Reads one member of a configuration. -/
def BootDraft.member (d : BootDraft) (key : Bytes) : Reader BootDraft :=
  if key = asciiText "spi_flash" then
    once d.spiFlash (nullable Json.spiFlash) fun v => { d with spiFlash := some v }
  else if key = asciiText "mmc" then
    once d.mmc (nullable Json.mmc) fun v => { d with mmc := some v }
  else if key = asciiText "qspi" then
    once d.qspi (nullable Json.qspi) fun v => { d with qspi := some v }
  else if key = asciiText "payload" then
    once d.payload bool fun v => { d with payload := some v }
  else if key = asciiText "boot_flow" then
    once d.bootFlow flow fun v => { d with bootFlow := some v }
  else ignored d

/-- The configuration of what was found, if nothing required is missing. -/
def BootDraft.finish (d : BootDraft) : Option BootConfig := do
  return ⟨d.spiFlash.join, d.mmc.join, d.qspi.join, ← d.payload, ← d.bootFlow⟩

/-- Reads a configuration. -/
def config : Reader BootConfig := object BootDraft.empty BootDraft.member BootDraft.finish

end Json

/-- The configuration that a text, given as its UTF-8 bytes, says. -/
def BootConfig.ofJson (text : Bytes) : Except JsonError BootConfig := Json.whole Json.config text

end BootImage
