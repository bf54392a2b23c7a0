import BootImage.Proofs.NumberForm
import BootImage.Selection.Value

/-!
# What stored bytes are read as

A medium is stored as its index, and bytes are read as the medium whose index they start with, in
whatever form. Bytes that do not start with such an index were written by another version, or are
damaged, and the error tells which: an index of no medium, a malformed one, and one that is cut off
have an answer each.

* `BootMedium.ReadAs` — what stored bytes can be, each with its answer.
* `BootMedium.deserializeFrom_eq_iff` — each answer is given to these bytes, and to no others.
* `BootMedium.unknown_apart` — an index of no medium is not answered as a malformed one is.
-/

namespace BootImage

namespace Wire

variable {α : Type}

/-- With an index, an alternative is read if there is one of this index. -/
theorem run_oneOf_of_index (alternatives : List α) {s rest : Bytes} {i : Nat}
    (h : nat32.run s = .ok (i, rest)) :
    (oneOf alternatives).run s =
      alternatives[i]?.elim (.error .noValue) fun a => .ok (a, rest) := by
  rw [oneOf, StateT.run_bind, h]
  rcases ha : alternatives[i]? with _ | a
  · simp only [bind, Except.bind, ha]
    rfl
  · simp only [bind, Except.bind, ha]
    rfl

/-- Without an index there is no alternative. -/
theorem run_oneOf_of_error (alternatives : List α) {s : Bytes} {e : WireError}
    (h : nat32.run s = .error e) : (oneOf alternatives).run s = .error e := by
  rw [oneOf, StateT.run_bind, h]
  rfl

end Wire

open Wire

namespace BootMedium

/-- **What stored bytes can be**, each with its answer. -/
inductive ReadAs (stored : Bytes) : Except ValueError BootMedium → Prop
  /-- They start with the index of a medium. -/
  | medium {m : BootMedium} {u rest : Bytes} (hform : NumberForm 5 UInt32.size m.index u)
      (hstored : stored = u ++ rest) : ReadAs stored (.ok m)
  /-- They start with another index. -/
  | unknown {i : Nat} {u rest : Bytes} (hform : NumberForm 5 UInt32.size i u)
      (hi : ∀ m : BootMedium, m.index ≠ i) (hstored : stored = u ++ rest) :
      ReadAs stored (.error (.custom 0))
  /-- The index does not end within its digits, or is too large. -/
  | malformed (h : Overlong 5 15 stored) : ReadAs stored (.error .invalidFormat)
  /-- They end before the index does. -/
  | cutShort (h : CutShort 5 stored) : ReadAs stored (.error .bufferTooSmall)

/-! ### From the index to the answer -/

/-- An index that no medium has finds none. -/
theorem all_eq_none {i : Nat} (hi : ∀ m : BootMedium, m.index ≠ i) : all[i]? = none := by
  match i with
  | 0 => exact absurd rfl (hi .payload)
  | 1 => exact absurd rfl (hi .qspi)
  | 2 => exact absurd rfl (hi .mmc)
  | 3 => exact absurd rfl (hi .spiFlash)
  | _ + 4 => rfl

/-- An index is looked up among the media; what follows it does not matter. -/
theorem deserializeFrom_of_index {stored rest : Bytes} {i : Nat}
    (h : nat32.run stored = .ok (i, rest)) :
    deserializeFrom stored = all[i]?.elim (.error (.custom 0)) .ok := by
  rw [deserializeFrom, reader, run_oneOf_of_index _ h]
  cases all[i]? <;> rfl

/-- Without an index, the answer is why there is none. -/
theorem deserializeFrom_of_error {stored : Bytes} {e : WireError}
    (h : nat32.run stored = .error e) : deserializeFrom stored = .error (.ofWire e) := by
  rw [deserializeFrom, reader, run_oneOf_of_error _ h]

/-! ### Each answer for its bytes -/

/-- Bytes that are said to be read so are read so. -/
theorem deserializeFrom_of_readAs {stored : Bytes} {answer : Except ValueError BootMedium}
    (h : ReadAs stored answer) : deserializeFrom stored = answer := by
  cases h with
  | medium hform hstored =>
    rw [deserializeFrom_of_index (nat32_eq_ok.mpr ⟨_, hform, hstored⟩), all_index, Option.elim_some]
  | unknown hform hi hstored =>
    rw [deserializeFrom_of_index (nat32_eq_ok.mpr ⟨_, hform, hstored⟩), all_eq_none hi,
      Option.elim_none]
  | malformed h => exact deserializeFrom_of_error (varint_of_overlong h)
  | cutShort h => exact deserializeFrom_of_error (varint_of_cutShort h)

/-- There are no other bytes, since an index is read in one of three ways. -/
theorem readAs_deserializeFrom (stored : Bytes) : ReadAs stored (deserializeFrom stored) := by
  rcases hread : nat32.run stored with e | ⟨i, rest⟩
  · have hreading : Reading 15 4 stored (.error e) := hread ▸ reading 15 4 stored
    rw [deserializeFrom_of_error hread]
    cases hreading with
    | overlong h => exact .malformed h
    | cutShort h => exact .cutShort h
  · obtain ⟨u, hform, hstored⟩ := nat32_eq_ok.mp hread
    rw [deserializeFrom_of_index hread]
    by_cases hi : ∃ m : BootMedium, m.index = i
    · obtain ⟨m, rfl⟩ := hi
      rw [all_index, Option.elim_some]
      exact .medium hform hstored
    · have hi : ∀ m : BootMedium, m.index ≠ i := not_exists.mp hi
      rw [all_eq_none hi, Option.elim_none]
      exact .unknown hform hi hstored

/-- **Each answer is given to its bytes, and to no others.** Bytes are read as a medium exactly if
they start with its index, in whatever form and whatever follows. They have the answer `custom 0`
exactly if they start with an index of no medium, the answer `invalidFormat` exactly if the index is
malformed, and the answer `bufferTooSmall` exactly if they end before the index does. -/
theorem deserializeFrom_eq_iff (stored : Bytes) (answer : Except ValueError BootMedium) :
    deserializeFrom stored = answer ↔ ReadAs stored answer := by
  constructor
  · rintro rfl
    exact readAs_deserializeFrom stored
  · exact deserializeFrom_of_readAs

/-- The first index of no medium, alone or with zero digits and a byte after it, has another answer
than an index that does not end. -/
theorem unknown_apart :
    deserializeFrom [4] = .error (.custom 0) ∧
      deserializeFrom [0x84, 0x80, 0, 9] = .error (.custom 0) ∧
      deserializeFrom (List.replicate 5 0x84) = .error .invalidFormat ∧
      deserializeFrom [4] ≠ .error .invalidFormat := by
  have hi : ∀ m : BootMedium, m.index ≠ 4 := by
    rintro (_ | _ | _ | _) <;> decide
  have hshort : deserializeFrom [4] = .error (.custom 0) :=
    (deserializeFrom_eq_iff _ _).mpr (.unknown ⟨by decide, 0, by decide, by decide, rfl⟩ hi rfl)
  have hpadded : NumberForm 5 UInt32.size 4 [0x84, 0x80, 0] :=
    ⟨by decide, 2, by decide, by decide, rfl⟩
  have hfollowed : ([0x84, 0x80, 0, 9] : Bytes) = [0x84, 0x80, 0] ++ [9] := rfl
  refine ⟨hshort, (deserializeFrom_eq_iff _ _).mpr (.unknown hpadded hi hfollowed),
    (deserializeFrom_eq_iff _ _).mpr (.malformed (overlong_replicate (by decide) 15 4)), ?_⟩
  rw [hshort]
  nofun

end BootMedium

end BootImage
