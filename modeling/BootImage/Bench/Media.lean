import BootImage.Device

/-!
# Media whose contents are known

The plain block device: it holds the contents of block media and reads from them. A read that fails
leaves the buffer as it was.
-/

namespace BootImage.Bench

/-- The contents of the block media that a board has. -/
structure Media where
  content : BlockMedium → Option Bytes

namespace Media

/-- No media. -/
def none : Media := ⟨fun _ => Option.none⟩

/-- Puts a medium in, or takes it out. -/
def set (m : Media) (medium : BlockMedium) (content : Option Bytes) : Media :=
  ⟨fun other => if other = medium then content else m.content other⟩

/-- The bytes at an offset of a medium, or the fault. -/
def bytesAt (m : Media) (medium : BlockMedium) (offset length : Nat) : Except String Bytes :=
  match m.content medium with
  | .none => .error "NoMedium"
  | some content =>
    if offset + length ≤ content.length then .ok ((content.drop offset).take length)
    else .error "OutOfRange"

/-- Reads bytes of a medium into a buffer. -/
def read (m : Media) (medium : BlockMedium) (offset : Nat) (buffer : Bytes) : ReadAnswer Media :=
  match m.bytesAt medium offset buffer.length with
  | .ok bytes => ⟨.none, bytes, m⟩
  | .error fault => ⟨some fault, buffer, m⟩

/-- As many bytes are answered as were asked for. -/
theorem length_of_bytesAt {m : Media} {medium : BlockMedium} {offset length : Nat} {bytes : Bytes}
    (h : m.bytesAt medium offset length = .ok bytes) : bytes.length = length := by
  unfold bytesAt at h
  split at h
  · cases h
  · split at h
    · cases h
      simp
      omega
    · cases h

instance : Device Media where
  read := read
  length_read m medium offset buffer := by
    unfold read
    split
    · next h => exact length_of_bytesAt h
    · rfl

end Media

end BootImage.Bench
