import BootImage.Header
import BootImage.Selection.Fault
import BootImage.Stage

/-!
# The messages a boot attempt logs

A message is the fact it reports; `Message.level` and `Message.text` say how it is logged. A memory
address has no place in this model, so where a message shows one its text has the word ADDR.
-/

namespace BootImage

/-- How urgent a message is. -/
inductive Level where
  | error
  | warn
  | info
  | debug
  deriving DecidableEq, Repr

/-- What a boot attempt, or the store of the selection, has to report. -/
inductive Message where
  -- Headers
  | unknownMagic (magic : UInt32)
  | setName (name : String)
  | magic (magic : UInt32)
  | claimedLength (length : UInt64)
  | headerMismatch (calculated stored : UInt32)
  | shortImage (claimed available : Nat)
  -- Acquisition
  | checkingInPlace
  | preparingCopy (medium : BlockMedium) (offset : Nat)
  | readingHeader
  | readFailed (length : Nat) (medium : BlockMedium) (offset : Nat) (fault : String)
  | targetTooSmall (length : UInt64) (capacity : Nat)
  | copying (length : Nat)
  -- Partition tables
  | tableUnreadable (medium : BlockMedium) (fault : String)
  | tableSignature
  | tableMisplaced (lba : UInt64)
  | tableMismatch
  | entryLayout
  | entryArrayTooLarge (size : Nat)
  | entriesUnreadable (offset : Nat) (fault : String)
  | entriesMismatch
  | partitionFound (first last : UInt64)
  | lookupFailed (cause : Error)
  -- Unpacking
  | noDecompressor
  | unpacking
  | unpackFailed
  | unpackOverrun (claimed room : Nat)
  | unpacked (length : Nat)
  -- The attempt as a whole
  | selecting (medium : BootMedium)
  | starting
  | stage (old new : Stage)
  | noStaging (length : Nat)
  | invalidMagic (magic : UInt32)
  | imageFailed (wasUnpacked : Bool)
  | imageChecksum (value : UInt32)
  | imagePassed (wasUnpacked : Bool)
  | bootSet (name : String)
  | registered
  | launchFailed (fault : String)
  | bootFailed (cause : Error)
  -- The stored selection
  | storeSize (capacity pages eraseSize : Nat)
  | fetchFailed (fault : StoreFault)
  | nothingStored
  | storing (medium : BootMedium)
  | storeFailed (fault : StoreFault)
  deriving DecidableEq, Repr

namespace Level

/-- The level's name in a log. -/
def name : Level → String
  | error => "ERROR"
  | warn => "WARN"
  | info => "INFO"
  | debug => "DEBUG"

end Level

namespace Message

/-- The level a message is logged at. -/
def level : Message → Level
  | setName _ | magic _ | claimedLength _ | stage _ _ | nothingStored | storing _ => .debug
  | checkingInPlace | preparingCopy _ _ | readingHeader | copying _ | partitionFound _ _
  | unpacking | unpacked _ | selecting _ | starting | imagePassed _ | bootSet _
  | registered => .info
  | shortImage _ _ => .warn
  | unknownMagic _ | headerMismatch _ _ | readFailed _ _ _ _ | targetTooSmall _ _
  | tableUnreadable _ _ | tableSignature | tableMisplaced _ | tableMismatch | entryLayout
  | entryArrayTooLarge _ | entriesUnreadable _ _ | entriesMismatch | lookupFailed _ | noDecompressor
  | unpackFailed | unpackOverrun _ _ | noStaging _ | invalidMagic _ | imageFailed _
  | imageChecksum _ | launchFailed _ | bootFailed _ | storeSize _ _ _ | fetchFailed _
  | storeFailed _ => .error

/-- How an image is spoken of once it has, or has not, been unpacked. -/
def qualifier (wasUnpacked : Bool) : String := if wasUnpacked then "decompressed " else ""

/-- A number in base 16 with its marker. -/
def hex (n : Nat) : String := "0x" ++ Hexadecimal.text n

/-- A 32-bit word as eight digits in base 16. -/
def hex8 (w : UInt32) : String := Hexadecimal.text8 w.toNat

/-- The text of a message. -/
def text : Message → String
  | unknownMagic found => "magic is " ++ hex8 found ++ " vs expected " ++ hex8 Header.plainMagic
      ++ " or " ++ hex8 Header.compressedMagic
  | setName name => " - set name is >>" ++ name ++ "<<"
  | magic found => " - magic is    " ++ Hexadecimal.upperText8 found.toNat
  | claimedLength length => " - length is   " ++ Hexadecimal.upperText8 length.toNat
  | headerMismatch calculated stored => "Checked boot image header CRC: calculated "
      ++ hex8 calculated ++ " vs expected " ++ hex8 stored
  | shortImage claimed available => "image claims " ++ toString claimed ++ " bytes but only "
      ++ toString available ++ " are available"
  | checkingInPlace => "Checking boot image in place at ADDR"
  | preparingCopy medium offset => "Preparing to copy from " ++ medium.name ++ " +" ++ hex offset
      ++ " to target memory ..."
  | readingHeader => "Attempting to read image header (" ++ toString Header.size ++ " bytes) ..."
  | readFailed length medium offset fault => "Failed to read " ++ hex length ++ " bytes from "
      ++ medium.name ++ " @" ++ hex offset ++ ": " ++ fault
  | targetTooSmall length capacity => "Image of " ++ toString length.toNat
      ++ " bytes exceeds target memory of " ++ toString capacity ++ " bytes"
  | copying length => "Copying " ++ toString length ++ " bytes to ADDR"
  | tableUnreadable medium fault =>
    "Failed to read GPT header from " ++ medium.name ++ ": " ++ fault
  | tableSignature => "GPT signature invalid"
  | tableMisplaced lba => "GPT header claims LBA " ++ toString lba.toNat
  | tableMismatch => "GPT header CRC mismatch"
  | entryLayout => "GPT partition entry layout invalid"
  | entryArrayTooLarge size => "GPT partition entry array of " ++ toString size
      ++ " bytes is too large"
  | entriesUnreadable offset fault => "Failed to read GPT partition entries @" ++ hex offset ++ ": "
      ++ fault
  | entriesMismatch => "GPT partition entry array CRC mismatch"
  | partitionFound first last => "Boot partition found at LBA " ++ toString first.toNat ++ "..="
      ++ toString last.toNat
  | lookupFailed cause => cause.message ++ ", falling back to offset 0"
  | noDecompressor => "Compressed boot image but no decompressor configured"
  | unpacking => "Preparing to decompress to ADDR..."
  | unpackFailed => "Failed to decompress boot image"
  | unpackOverrun claimed room => "Decompressor claims " ++ toString claimed ++ " bytes for a "
      ++ toString room ++ " byte target"
  | unpacked length => "decompressed " ++ toString length ++ " bytes..."
  | selecting medium => "Selecting " ++ medium.name ++ " as boot source ..."
  | starting => "Initializing boot image.."
  | stage old new => "boot stage " ++ old.name ++ " -> " ++ new.name
  | noStaging length => "No staging region of " ++ toString length ++ " bytes to decompress from"
  | invalidMagic found => "Boot image magic " ++ hex8 found ++ " invalid, ignoring"
  | imageFailed wasUnpacked => qualifier wasUnpacked ++ "boot image failed CRC"
  | imageChecksum value => "Calculated CRC32 of image in memory is 0x" ++ hex8 value
  | imagePassed wasUnpacked => qualifier wasUnpacked ++ "boot image passed CRC"
  | bootSet name => "Boot image set name: \"" ++ name ++ "\""
  | registered => "Boot image registered..."
  | launchFailed fault => "Failed to launch boot image: " ++ fault
  | bootFailed cause => "Boot failed: " ++ cause.message
  | storeSize capacity pages eraseSize => "Selection NVM of " ++ toString capacity
      ++ " bytes is not " ++ toString pages ++ " pages of " ++ toString eraseSize ++ " bytes"
  | fetchFailed fault => "Failed to fetch boot medium selection: " ++ fault.description
  | nothingStored => "Selection NVM does not contain value"
  | storing medium => "Storing " ++ medium.name
  | storeFailed fault => "Failed to store boot medium selection: " ++ fault.description

end Message

end BootImage
