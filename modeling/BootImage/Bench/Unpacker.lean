import BootImage.Unpacking

/-!
# A decompressor whose answers are known

It writes given bytes, or the input without its first bytes, as far as the output has room. Then it
fails if it is told to, claims what it is told to claim, or else claims the length of its result,
failing if that has no room.
-/

namespace BootImage.Bench

/-- A decompressor with known answers. -/
structure Unpacker where
  /-- The bytes that it writes, unless it strips. -/
  result : Bytes
  /-- The number of bytes to strip from the start of the input. -/
  strip : Option Nat
  /-- The number of bytes it claims to have written. -/
  claim : Option Nat
  /-- Whether it fails. -/
  fails : Bool

namespace Unpacker

/-- The bytes that an input unpacks to. -/
def resultFor (u : Unpacker) (input : Bytes) : Bytes :=
  match u.strip with
  | some n => input.drop n
  | none => u.result

/-- The output region with as much of a result at its start as it has room for. -/
def overlay (result output : Bytes) : Bytes :=
  result.take output.length ++ output.drop result.length

/-- The output keeps its length. -/
theorem length_overlay (result output : Bytes) :
    (overlay result output).length = output.length := by
  simp only [overlay, List.length_append, List.length_take, List.length_drop]
  omega

/-- The number of bytes it claims. -/
def written (u : Unpacker) (result output : Bytes) : Option Nat :=
  if u.fails then none
  else
    match u.claim with
    | some n => some n
    | none => if output.length < result.length then none else some result.length

instance : Decompressor Unpacker where
  unpack u input output :=
    let result := u.resultFor input
    ⟨u.written result output, overlay result output, u⟩
  length_unpack _ _ _ := length_overlay _ _

end Unpacker

end BootImage.Bench
