import BootImage.Device

/-!
# Faults and answers by the number of the read

A device around another one. It counts reads, and makes reads of given numbers fail or answer other
bytes, so a medium can be made to answer two equal reads differently.
-/

namespace BootImage.Bench

/-- A device with faults and answers put in by the number of the read. -/
structure Scripted (δ : Type) where
  device : δ
  /-- The number of the next read, counted from 0. -/
  next : Nat
  /-- The reads that fail. -/
  failing : List Nat
  /-- The reads that answer from the start of other bytes. -/
  replaced : List (Nat × Bytes)

namespace Scripted

variable {δ : Type} [Device δ]

/-- A device without faults. -/
def plain (device : δ) : Scripted δ := ⟨device, 0, [], []⟩

/-- Answers a read as the script says, or else as the device does. -/
def read (s : Scripted δ) (medium : BlockMedium) (offset : Nat) (buffer : Bytes) :
    ReadAnswer (Scripted δ) :=
  let after := { s with next := s.next + 1 }
  if s.next ∈ s.failing then ⟨some "Injected", buffer, after⟩
  else
    match s.replaced.lookup s.next with
    | some bytes =>
      if buffer.length ≤ bytes.length then ⟨none, bytes.take buffer.length, after⟩
      else ⟨some "OutOfRange", buffer, after⟩
    | none =>
      let answer := Device.read s.device medium offset buffer
      ⟨answer.fault, answer.buffer, { after with device := answer.device }⟩

instance : Device (Scripted δ) where
  read := read
  length_read s medium offset buffer := by
    simp only [read]
    split
    · rfl
    · split
      · split
        · simp only [List.length_take]
          omega
        · rfl
      · exact Device.length_read _ _ _ _

end Scripted

end BootImage.Bench
