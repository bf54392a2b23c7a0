/-!
# Bytes and little-endian words

Byte strings are lists. A word on a medium is written lowest byte first: `ofLE` reads such a
string as a number and `toLE` writes a number in a given count of bytes. The two undo each other
(`ofLE_toLE`, `toLE_ofLE`), so a field of a fixed width and its bytes hold the same information.

`fit` brings a byte string to a given length by cutting it or filling it with zeros. It is how a
view of fixed size is laid over a buffer of any size.
-/

namespace BootImage

/-- A string of bytes: the content of a region of memory or of a medium. -/
abbrev Bytes := List UInt8

/-- The number whose base-256 digits, lowest first, are the given bytes. -/
def ofLE : Bytes → Nat
  | [] => 0
  | b :: bs => b.toNat + 256 * ofLE bs

/-- The lowest `n` base-256 digits of a number, lowest first. -/
def toLE : Nat → Nat → Bytes
  | 0, _ => []
  | n + 1, v => UInt8.ofNat v :: toLE n (v / 256)

/-- It has as many bytes as are asked for. -/
@[simp] theorem length_toLE (n v : Nat) : (toLE n v).length = n := by
  induction n generalizing v with
  | zero => rfl
  | succ n ih => simp [toLE, ih]

/-- A number of n bytes is less than 256 to the n. -/
theorem ofLE_lt (bs : Bytes) : ofLE bs < Nat.pow 256 bs.length := by
  induction bs with
  | nil => exact Nat.zero_lt_one
  | cons b bs ih =>
    have hb := b.toNat_lt
    have hpow : Nat.pow 256 (b :: bs).length = Nat.pow 256 bs.length * 256 := rfl
    rw [ofLE, hpow]
    omega

/-- Writing a number that fits and reading it back gives the number. -/
theorem ofLE_toLE {n v : Nat} (h : v < Nat.pow 256 n) : ofLE (toLE n v) = v := by
  induction n generalizing v with
  | zero =>
    have hv : v < 1 := h
    simp only [toLE, ofLE]
    omega
  | succ n ih =>
    have hv : v / 256 < Nat.pow 256 n := by
      have hpow : Nat.pow 256 (n + 1) = Nat.pow 256 n * 256 := rfl
      exact Nat.div_lt_of_lt_mul (by omega)
    simp only [toLE, ofLE, ih hv, UInt8.toNat_ofNat']
    omega

/-- Reading bytes as a number and writing it in as many bytes gives the bytes. -/
theorem toLE_ofLE (bs : Bytes) : toLE bs.length (ofLE bs) = bs := by
  induction bs with
  | nil => rfl
  | cons b bs ih =>
    have hb := b.toNat_lt
    have hd : (b.toNat + 256 * ofLE bs) / 256 = ofLE bs := by omega
    have hm : UInt8.ofNat (b.toNat + 256 * ofLE bs) = b := by
      apply UInt8.toNat_inj.mp
      rw [UInt8.toNat_ofNat']
      omega
    simp only [ofLE, List.length_cons, toLE, hd, ih, hm]

/-- The 32-bit word at byte `pos` of a byte string. -/
def word32 (bs : Bytes) (pos : Nat) : UInt32 := UInt32.ofNat (ofLE ((bs.drop pos).take 4))

/-- The 64-bit word at byte `pos` of a byte string. -/
def word64 (bs : Bytes) (pos : Nat) : UInt64 := UInt64.ofNat (ofLE ((bs.drop pos).take 8))

/-- A cut of `n` bytes stands for a number of `n` base-256 digits. -/
theorem ofLE_take_lt (n : Nat) (bs : Bytes) : ofLE (bs.take n) < Nat.pow 256 n :=
  Nat.lt_of_lt_of_le (ofLE_lt _) (Nat.pow_le_pow_right (by decide) (List.length_take_le n bs))

/-- No bits are lost in a word of 32 bits. -/
theorem toNat_word32 (bs : Bytes) (pos : Nat) :
    (word32 bs pos).toNat = ofLE ((bs.drop pos).take 4) := by
  rw [word32, UInt32.toNat_ofNat_of_lt' (ofLE_take_lt 4 _)]

/-- Nor in one of 64 bits. -/
theorem toNat_word64 (bs : Bytes) (pos : Nat) :
    (word64 bs pos).toNat = ofLE ((bs.drop pos).take 8) := by
  rw [word64, UInt64.toNat_ofNat_of_lt' (ofLE_take_lt 8 _)]

/-- A window that lies in a string has all of its bytes. -/
theorem length_window {bs : Bytes} {pos len : Nat} (h : pos + len ≤ bs.length) :
    ((bs.drop pos).take len).length = len := by
  rw [List.length_take, List.length_drop]
  omega

/-- The first `n` bytes of a string, filled up with zeros when there are fewer. -/
def fit (n : Nat) (bs : Bytes) : Bytes := bs.take n ++ List.replicate (n - bs.length) 0

/-- It is as long as it has to be. -/
@[simp] theorem length_fit (n : Nat) (bs : Bytes) : (fit n bs).length = n := by
  simp [fit]; omega

/-- A string that is long enough is only cut. -/
theorem fit_of_le {n : Nat} {bs : Bytes} (h : n ≤ bs.length) : fit n bs = bs.take n := by
  simp [fit, Nat.sub_eq_zero_of_le h]

/-- A string of the wanted length is left as it is. -/
theorem fit_of_length {n : Nat} {bs : Bytes} (h : bs.length = n) : fit n bs = bs := by
  subst h
  rw [fit_of_le (Nat.le_refl _), List.take_length]

end BootImage
