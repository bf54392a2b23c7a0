import BootImage.Crc32

/-!
# Checksum primitives for trying the pipeline out

A pipeline takes any function of the bytes as its checksum. These two are easy to predict.
-/

namespace BootImage.Bench

/-- The sum of the bytes, in 32 bits. -/
def sumChecksum : Checksum := fun bs => bs.foldl (fun n b => n + b.toUInt32) 0

/-- The same value for any bytes. -/
def constantChecksum (value : UInt32) : Checksum := fun _ => value

end BootImage.Bench
