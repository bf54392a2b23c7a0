import BootImage.Bytes

/-!
# Well-formed UTF-8 at the start of a byte string

`first?` reads one encoded character by the standard's table: the lead byte gives the number of
continuation bytes and the range of the first of them, so that overlong forms, surrogates and
values above U+10FFFF have no reading. `run` reads characters for as long as there is one. The
characters it gives are the longest well-formed beginning of the string, where well formed means
to be `encode cs` for some characters `cs`.
-/

namespace BootImage.Utf8

/-- The encoded form of a list of characters. -/
def encode (cs : List Char) : Bytes := cs.flatMap String.utf8EncodeChar

/-- A byte string is well formed when it is the encoded form of some characters. -/
def WellFormed (bs : Bytes) : Prop := ∃ cs, encode cs = bs

/-- The number of continuation bytes after a lead byte. -/
def tails? (lead : UInt8) : Option Nat :=
  if lead ≤ 0x7F then some 0
  else if lead < 0xC2 then none
  else if lead ≤ 0xDF then some 1
  else if lead ≤ 0xEF then some 2
  else if lead ≤ 0xF4 then some 3
  else none

/-- Whether a byte continues a character. -/
def isTail (b : UInt8) : Bool := 0x80 ≤ b && b ≤ 0xBF

/-- Whether a byte may come right after the lead byte. Four leads narrow the range: E0 and F0 to
shut out overlong forms, ED to shut out surrogates, and F4 to end at U+10FFFF. -/
def isSecond (lead b : UInt8) : Bool :=
  if lead = 0xE0 then 0xA0 ≤ b && b ≤ 0xBF
  else if lead = 0xED then 0x80 ≤ b && b ≤ 0x9F
  else if lead = 0xF0 then 0x90 ≤ b && b ≤ 0xBF
  else if lead = 0xF4 then 0x80 ≤ b && b ≤ 0x8F
  else isTail b

/-- The low six bits of a continuation byte. -/
def payload (b : UInt8) : Nat := b.toNat % 64

/-- The character at the start of a byte string, and the bytes after it. -/
def first? : Bytes → Option (Char × Bytes)
  | [] => none
  | a :: s =>
    match tails? a, s with
    | some 0, s => some (Char.ofNat a.toNat, s)
    | some 1, b :: s =>
      if isSecond a b then some (Char.ofNat (a.toNat % 32 * 64 + payload b), s) else none
    | some 2, b :: c :: s =>
      if isSecond a b && isTail c then
        some (Char.ofNat ((a.toNat % 16 * 64 + payload b) * 64 + payload c), s)
      else none
    | some 3, b :: c :: d :: s =>
      if isSecond a b && isTail c && isTail d then
        some (Char.ofNat (((a.toNat % 8 * 64 + payload b) * 64 + payload c) * 64 + payload d), s)
      else none
    | _, _ => none

/-- Reading a character uses up at least one byte. -/
theorem length_of_first? {s rest : Bytes} {c : Char} (h : first? s = some (c, rest)) :
    rest.length < s.length := by
  unfold first? at h
  split at h
  · cases h
  · rename_i a s
    split at h
    · simp only [Option.some.injEq, Prod.mk.injEq] at h
      simp only [h.2, List.length_cons]; omega
    · split at h
      · simp only [Option.some.injEq, Prod.mk.injEq] at h
        simp only [← h.2, List.length_cons]; omega
      · cases h
    · split at h
      · simp only [Option.some.injEq, Prod.mk.injEq] at h
        simp only [← h.2, List.length_cons]; omega
      · cases h
    · split at h
      · simp only [Option.some.injEq, Prod.mk.injEq] at h
        simp only [← h.2, List.length_cons]; omega
      · cases h
    · cases h

/-- The characters of the longest well-formed beginning of a byte string, and the bytes left. -/
def run (s : Bytes) : List Char × Bytes :=
  match h : first? s with
  | none => ([], s)
  | some (c, rest) =>
    have := length_of_first? h
    let (cs, left) := run rest
    (c :: cs, left)
termination_by s.length

/-- The characters of a byte string that is well formed throughout. -/
def decode? (s : Bytes) : Option (List Char) :=
  match run s with
  | (cs, []) => some cs
  | _ => none

end BootImage.Utf8
