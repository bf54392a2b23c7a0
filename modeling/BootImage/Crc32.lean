import BootImage.Bytes

/-!
# The reflected 32-bit cyclic redundancy check

The checksum of image headers and of partition tables. A register starts with all bits set, takes
in one byte at a time as eight one-bit steps of the reflected polynomial, and is inverted at the
end. Taking in bytes is a fold (`Crc32.update`), so a message may be taken in piece by piece
(`update_append`): a table read block by block has the checksum of its concatenated blocks.
-/

namespace BootImage

/-- A checksum primitive: any function of the bytes. -/
abbrev Checksum := Bytes → UInt32

namespace Crc32

/-- The polynomial with its coefficients in reflected order. -/
def polynomial : UInt32 := 0xEDB88320

/-- One bit of the register's division by the polynomial. -/
def shift (r : UInt32) : UInt32 := if r &&& 1 = 1 then (r >>> 1) ^^^ polynomial else r >>> 1

/-- A byte enters at the low end of the register and is divided out in eight steps. -/
def step (r : UInt32) (b : UInt8) : UInt32 := Nat.repeat shift 8 (r ^^^ b.toUInt32)

/-- The register before any byte. -/
def start : UInt32 := 0xFFFFFFFF

/-- The register after more bytes. -/
def update (r : UInt32) (bs : Bytes) : UInt32 := bs.foldl step r

/-- The checksum that a register stands for. -/
def finish (r : UInt32) : UInt32 := r ^^^ 0xFFFFFFFF

/-- The checksum of a byte string. -/
def checksum : Checksum := fun bs => finish (update start bs)

-- The usual check value, which is the checksum of the ASCII digits from 1 to 9.
example : checksum [0x31, 0x32, 0x33, 0x34, 0x35, 0x36, 0x37, 0x38, 0x39] = 0xCBF43926 := by
  decide +kernel

/-- Without bytes the register stays. -/
@[simp] theorem update_nil (r : UInt32) : update r [] = r := rfl

/-- Bytes taken in one string after another count as their concatenation. -/
theorem update_append (r : UInt32) (xs ys : Bytes) :
    update r (xs ++ ys) = update (update r xs) ys := List.foldl_append

end Crc32

end BootImage
