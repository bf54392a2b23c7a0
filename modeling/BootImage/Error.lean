import BootImage.Hexadecimal
import BootImage.Medium

/-!
# Why a boot attempt fails

The causes, and one sentence for each. A failed partition lookup is the only cause that an
attempt recovers from; every other one ends it.
-/

namespace BootImage

/-- Why a partition table gives no partition. -/
inductive PartitionError where
  /-- The table could not be read from the medium. -/
  | read
  /-- The table's header is not that of a primary table. -/
  | header
  /-- The entry array has an impossible layout or a wrong checksum. -/
  | entries
  /-- The table is sound and has no partition of the wanted type. -/
  | notFound
  deriving DecidableEq, Repr

/-- Why a boot attempt, or a change of the selected medium, fails. -/
inductive Error where
  /-- The image is not readable, or too short for a header. -/
  | acquisition
  /-- The image does not start with an accepted magic word. -/
  | magicMismatch (found : UInt32)
  /-- The header claims more bytes than the target memory has. -/
  | imageTooLarge (length : UInt64) (capacity : Nat)
  /-- A compressed image could not be unpacked. -/
  | decompression
  /-- The header's checksum does not hold. -/
  | integrity
  /-- The partition table gives no partition. -/
  | partitionLookup (cause : PartitionError)
  /-- No medium is selected. -/
  | noBootMedium
  /-- The medium does not exist on this board. -/
  | mediumUnavailable (medium : BootMedium)
  /-- The launcher refused to start the image. -/
  | launch
  /-- The stored selection could not be read or written. -/
  | storage
  deriving DecidableEq, Repr

/-- The sentence for a failed lookup. -/
def PartitionError.message : PartitionError → String
  | read => "partition table could not be read"
  | header => "partition table header invalid"
  | entries => "partition entries invalid"
  | notFound => "no partition of the requested type"

/-- The sentence for a cause of failure. -/
def Error.message : Error → String
  | acquisition => "boot image could not be read from the selected medium"
  | magicMismatch found =>
    "boot image magic 0x" ++ Hexadecimal.text8 found.toNat ++ " not recognized"
  | imageTooLarge length capacity =>
    "boot image of " ++ toString length.toNat ++ " bytes does not fit in " ++ toString capacity
      ++ " bytes of target memory"
  | decompression => "boot image decompression failed"
  | integrity => "boot image header CRC mismatch"
  | partitionLookup cause => "partition lookup failed: " ++ cause.message
  | noBootMedium => "no boot medium configured"
  | mediumUnavailable medium => "boot medium " ++ medium.name ++ " is not available"
  | launch => "core launch failed"
  | storage => "persistent storage access failed"

end BootImage
