import BootImage.Bytes

/-!
# Hexadecimal digits

Digits in base 16, as text of numbers in messages and as pairs of ASCII characters for bytes.
Digits are written in lower case; both cases are read.
-/

namespace BootImage.Hexadecimal

/-- The text of a number in base 16, lower case, without leading zeros. -/
def text (n : Nat) : String := String.ofList (Nat.toDigits 16 n)

/-- The text of a number in base 16 with at least eight digits. -/
def text8 (n : Nat) : String :=
  let digits := Nat.toDigits 16 n
  String.ofList (List.replicate (8 - digits.length) '0' ++ digits)

/-- The same with upper-case digits. -/
def upperText8 (n : Nat) : String := (text8 n).toUpper

/-- The ASCII character of a digit below 16. -/
def digit (n : Nat) : UInt8 := if n < 10 then UInt8.ofNat (48 + n) else UInt8.ofNat (87 + n)

/-- The value of an ASCII character that is a digit in either case. -/
def value? (c : UInt8) : Option Nat :=
  let n := c.toNat
  if 48 ≤ n ∧ n ≤ 57 then some (n - 48)
  else if 97 ≤ n ∧ n ≤ 102 then some (n - 87)
  else if 65 ≤ n ∧ n ≤ 70 then some (n - 55)
  else none

/-- A byte as two digits, the high half first. -/
def pair (b : UInt8) : Bytes := [digit (b.toNat / 16), digit (b.toNat % 16)]

/-- Bytes as pairs of digits. -/
def ofBytes (bs : Bytes) : Bytes := bs.flatMap pair

/-- The bytes written by the first `n` pairs of digits, and the text after them. -/
def takeBytes? : Nat → Bytes → Option (Bytes × Bytes)
  | 0, s => some ([], s)
  | n + 1, a :: b :: s => do
    let high ← value? a
    let low ← value? b
    let (bs, rest) ← takeBytes? n s
    return (UInt8.ofNat (16 * high + low) :: bs, rest)
  | _ + 1, _ => none

/-- A digit reads back as its value. -/
theorem value?_digit {n : Nat} (h : n < 16) : value? (digit n) = some n := by
  revert n
  decide

/-- Pairs of digits read back as the bytes they were written for, whatever follows. -/
theorem takeBytes?_ofBytes (bs rest : Bytes) :
    takeBytes? bs.length (ofBytes bs ++ rest) = some (bs, rest) := by
  induction bs with
  | nil => rfl
  | cons b bs ih =>
    have hb := b.toNat_lt
    have hsum : UInt8.ofNat (16 * (b.toNat / 16) + b.toNat % 16) = b := by
      rw [Nat.div_add_mod]
      exact UInt8.ofNat_toNat
    have hrest : ofBytes (b :: bs) ++ rest =
        digit (b.toNat / 16) :: digit (b.toNat % 16) :: (ofBytes bs ++ rest) := rfl
    rw [hrest, List.length_cons, takeBytes?, value?_digit (by omega), value?_digit (by omega), ih]
    simp only [Option.bind_eq_bind, Option.bind_some, Option.pure_def, hsum]

/-- As many bytes come out as were asked for. -/
theorem length_of_takeBytes? {n : Nat} {s bs rest : Bytes} (h : takeBytes? n s = some (bs, rest)) :
    bs.length = n := by
  induction n generalizing s bs rest with
  | zero => simp only [takeBytes?, Option.some.injEq, Prod.mk.injEq] at h; simp [← h.1]
  | succ n ih =>
    match s with
    | [] => simp [takeBytes?] at h
    | [_] => simp [takeBytes?] at h
    | a :: b :: s =>
      simp only [takeBytes?, Option.bind_eq_bind, Option.bind_eq_some_iff, Option.pure_def,
        Option.some.injEq, Prod.mk.injEq, Prod.exists] at h
      obtain ⟨_, _, _, _, bs', _, h', rfl, rfl⟩ := h
      simp [ih h']

end BootImage.Hexadecimal
