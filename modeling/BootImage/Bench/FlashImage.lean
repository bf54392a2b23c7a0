import BootImage.NorFlash

/-!
# A flash whose contents are known

A flash driver over known contents, with a read granularity and a switch that makes every read fail.
It keeps a list of the reads it was asked for. A read that fails leaves the buffer as it was.
-/

namespace BootImage.Bench

/-- A flash driver over known contents. -/
structure FlashImage where
  data : Bytes
  /-- The capacity it reports, which need not be the length of the contents. -/
  capacity : Nat
  /-- Offsets and lengths have to be multiples of this. -/
  readSize : Nat
  /-- Whether every read fails. -/
  failing : Bool
  /-- The offset and length of each read it was asked for, in order. -/
  reads : List (Nat × Nat)

namespace FlashImage

/-- The bytes at an offset, or the fault. -/
def bytesAt (f : FlashImage) (offset length : Nat) : Except FlashFault Bytes :=
  if f.failing then .error .other
  else if offset % f.readSize ≠ 0 ∨ length % f.readSize ≠ 0 then .error .notAligned
  else if f.data.length < offset + length then .error .outOfBounds
  else .ok ((f.data.drop offset).take length)

/-- Notes a read and answers it. -/
def read (f : FlashImage) (offset : Nat) (buffer : Bytes) : FlashAnswer FlashImage :=
  let noted := { f with reads := f.reads ++ [(offset, buffer.length)] }
  match f.bytesAt offset buffer.length with
  | .ok bytes => ⟨none, bytes, noted⟩
  | .error fault => ⟨some fault, buffer, noted⟩

/-- As many bytes are answered as were asked for. -/
theorem length_of_bytesAt {f : FlashImage} {offset length : Nat} {bytes : Bytes}
    (h : f.bytesAt offset length = .ok bytes) : bytes.length = length := by
  unfold bytesAt at h
  split at h
  · cases h
  · split at h
    · cases h
    · split at h
      · cases h
      · cases h
        simp
        omega

instance : FlashDriver FlashImage where
  capacity := capacity
  read := read
  length_read f offset buffer := by
    simp only [read]
    split
    · next h => exact length_of_bytesAt h
    · rfl

end FlashImage

end BootImage.Bench
