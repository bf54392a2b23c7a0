import BootImage.Crc32
import BootImage.Header
import Mathlib.Data.Nat.Bitwise
import Mathlib.Logic.Function.Basic

/-!
# Bursts of errors and the checksum

A burst is a difference between two byte strings that lies in a window of a few bytes (`BurstAt`).
The checksum tells strings apart that differ by a burst of at most four bytes, wherever it is
(`Crc32.checksum_ne_of_burst`), and says nothing in general of longer ones.

The argument is the linear algebra of the register. One step is linear (`shift_xor`) and loses
nothing (`shift_injective`), since the polynomial has its top coefficient. So taking in the bytes
after the window loses nothing (`update_injective`). And up to four bytes can be taken in at once,
as a word (`update_word`): a byte enters at the low end of the register, and the next one enters
where it would have been shifted to from eight places further up.

A checksum is often stored in the string that it covers, in a word that counts as zero (`zeroedAt`).
A burst within that word changes what the checksum is compared with, a burst outside it changes the
checksum, and either way they no longer agree (`Crc32.breaks_of_burst`).
-/

namespace BootImage

/-- Two strings of one length that differ, but only within the `len` bytes from `pos` on. -/
structure BurstAt (pos len : Nat) (bs bs' : Bytes) : Prop where
  length_eq : bs'.length = bs.length
  /-- Every byte outside the window is the same. -/
  elsewhere : ∀ i, i < pos ∨ pos + len ≤ i → bs'[i]? = bs[i]?
  /-- At least one byte is not. -/
  differs : bs' ≠ bs

namespace BurstAt

variable {pos len : Nat} {bs bs' : Bytes}

/-- Before the window nothing differs. -/
theorem take_eq (h : BurstAt pos len bs bs') : bs'.take pos = bs.take pos := by
  apply List.ext_getElem?
  intro i
  rw [List.getElem?_take, List.getElem?_take]
  split_ifs with hi
  · exact h.elsewhere i (.inl hi)
  · rfl

/-- Behind it nothing differs either. -/
theorem drop_eq (h : BurstAt pos len bs bs') : bs'.drop (pos + len) = bs.drop (pos + len) := by
  apply List.ext_getElem?
  intro i
  rw [List.getElem?_drop, List.getElem?_drop]
  exact h.elsewhere _ (.inr (Nat.le_add_right _ _))

/-- A string is what comes before the window, the window, and what comes after it. -/
theorem split_window (pos len : Nat) (bs : Bytes) :
    bs = bs.take pos ++ ((bs.drop pos).take len ++ bs.drop (pos + len)) := by
  rw [← List.drop_drop, List.take_append_drop, List.take_append_drop]

/-- The windows differ. -/
theorem window_ne (h : BurstAt pos len bs bs') :
    (bs'.drop pos).take len ≠ (bs.drop pos).take len := by
  intro hwindow
  apply h.differs
  rw [split_window pos len bs', split_window pos len bs, h.take_eq, hwindow, h.drop_eq]

/-- A window that is replaced by another one of its length. -/
theorem of_append (before : Bytes) {w w' : Bytes} (hlen : w'.length = w.length) (hne : w' ≠ w)
    (after : Bytes) :
    BurstAt before.length w.length (before ++ (w ++ after)) (before ++ (w' ++ after)) where
  length_eq := by simp [hlen]
  elsewhere := by
    rintro i (hbefore | hafter)
    · rw [List.getElem?_append_left hbefore, List.getElem?_append_left hbefore]
    · rw [List.getElem?_append_right (by omega), List.getElem?_append_right (by omega),
        List.getElem?_append_right (by omega), List.getElem?_append_right (by omega), hlen]
  differs := by simpa using hne

/-- A cut that the window does not reach into is the same. -/
theorem cut_eq (h : BurstAt pos len bs bs') {offset length : Nat}
    (hout : offset + length ≤ pos ∨ pos + len ≤ offset) :
    (bs'.drop offset).take length = (bs.drop offset).take length := by
  apply List.ext_getElem?
  intro i
  rw [List.getElem?_take, List.getElem?_take, List.getElem?_drop, List.getElem?_drop]
  split_ifs with hi
  · exact h.elsewhere _ (by omega)
  · rfl

/-- In a cut that the window lies in, there is a burst as well. -/
theorem cut (h : BurstAt pos len bs bs') {offset length : Nat} (hfirst : offset ≤ pos)
    (hlast : pos + len ≤ offset + length) :
    BurstAt (pos - offset) len ((bs.drop offset).take length)
      ((bs'.drop offset).take length) where
  length_eq := by
    rw [List.length_take, List.length_take, List.length_drop, List.length_drop, h.length_eq]
  elsewhere := by
    intro i hi
    rw [List.getElem?_take, List.getElem?_take, List.getElem?_drop, List.getElem?_drop]
    split_ifs
    · exact h.elsewhere _ (by omega)
    · rfl
  differs := by
    intro hsame
    apply h.differs
    apply List.ext_getElem?
    intro i
    by_cases hin : offset ≤ i ∧ i < offset + length
    · have hi := congrArg (·[i - offset]?) hsame
      have hsub : i - offset < length := by omega
      have hadd : offset + (i - offset) = i := by omega
      simpa only [List.getElem?_take, List.getElem?_drop, if_pos hsub, hadd] using hi
    · exact h.elsewhere i (by omega)

/-- The windows are equally long. -/
theorem length_window_eq (h : BurstAt pos len bs bs') :
    ((bs'.drop pos).take len).length = ((bs.drop pos).take len).length := by
  rw [List.length_take, List.length_take, List.length_drop, List.length_drop, h.length_eq]

end BurstAt

/-- Bytes as a number determine the bytes. -/
theorem ofLE_injective {bs bs' : Bytes} (hlen : bs'.length = bs.length)
    (h : ofLE bs' = ofLE bs) : bs' = bs := by
  rw [← toLE_ofLE bs', ← toLE_ofLE bs, hlen, h]

namespace Crc32

open Function

/-! ### One bit -/

/-- Whether the polynomial comes in is decided by the lowest bit. -/
theorem shift_eq (r : UInt32) :
    shift r = (r >>> 1) ^^^ (if r.toNat.testBit 0 then polynomial else 0) := by
  have hlow : r &&& 1 = 1 ↔ r.toNat.testBit 0 = true := by
    rw [← UInt32.toNat_inj, UInt32.toNat_and, Nat.testBit_zero]
    simp [Nat.and_one_is_mod]
  unfold shift
  simp only [hlow]
  split_ifs
  · rfl
  · exact UInt32.xor_zero.symm

/-- **A step is linear.** -/
theorem shift_xor (a b : UInt32) : shift (a ^^^ b) = shift a ^^^ shift b := by
  rw [shift_eq, shift_eq, shift_eq, UInt32.toNat_xor, Nat.testBit_xor, UInt32.shiftRight_xor]
  cases a.toNat.testBit 0 <;> cases b.toNat.testBit 0
  · simp
  · simp [UInt32.xor_assoc]
  · simp only [Bool.xor_false, if_true, Bool.false_eq_true, if_false, UInt32.xor_zero]
    ac_rfl
  · -- the polynomial comes in on both sides, and cancels
    have hcancel : polynomial ^^^ polynomial = 0 := UInt32.xor_self
    calc (a >>> 1 ^^^ b >>> 1) ^^^ 0
      _ = (a >>> 1 ^^^ b >>> 1) ^^^ (polynomial ^^^ polynomial) := by rw [hcancel]
      _ = (a >>> 1 ^^^ polynomial) ^^^ (b >>> 1 ^^^ polynomial) := by ac_rfl

/-- An even number is halved. -/
theorem shift_double {n : Nat} (h : 2 * n < 2 ^ 32) :
    shift (UInt32.ofNat (2 * n)) = UInt32.ofNat n := by
  have hlow : (UInt32.ofNat (2 * n)).toNat.testBit 0 = false := by
    rw [UInt32.toNat_ofNat_of_lt' h, Nat.testBit_zero]
    simp
  rw [shift_eq, hlow]
  apply UInt32.toNat_inj.mp
  simp [UInt32.toNat_shiftRight, Nat.shiftRight_eq_div_pow]
  omega

/-- Only from zero does a step lead to zero: the polynomial has its top bit set, and a number that
was shifted down has not. -/
theorem eq_zero_of_shift {r : UInt32} (h : shift r = 0) : r = 0 := by
  rw [shift_eq] at h
  have hhalf : (r >>> 1).toNat = r.toNat / 2 := by
    simp [UInt32.toNat_shiftRight, Nat.shiftRight_eq_div_pow]
  have hlt := r.toNat_lt
  rcases hlow : r.toNat.testBit 0 with _ | _
  · rw [hlow] at h
    have hzero : (r >>> 1).toNat = 0 := congrArg UInt32.toNat (by simpa using h)
    rw [Nat.testBit_zero] at hlow
    apply UInt32.toNat_inj.mp
    show r.toNat = 0
    have heven : ¬ r.toNat % 2 = 1 := by simpa using hlow
    omega
  · rw [hlow, if_pos rfl, UInt32.xor_eq_zero_iff] at h
    have htop : (r >>> 1).toNat = 0xEDB88320 := congrArg UInt32.toNat h
    omega

/-! ### Several bits -/

/-- A number of steps. -/
def shifts (n : Nat) (r : UInt32) : UInt32 := Nat.repeat shift n r

/-- One shift more is a shift at the end. -/
theorem shifts_succ (n : Nat) (r : UInt32) : shifts (n + 1) r = shift (shifts n r) := rfl

/-- Shifts can be counted in two parts. -/
theorem shifts_add (m n : Nat) (r : UInt32) : shifts (m + n) r = shifts m (shifts n r) := by
  induction m with
  | zero => rw [Nat.zero_add]; rfl
  | succ m ih => rw [Nat.succ_add, shifts_succ, ih, shifts_succ]

/-- Shifts are linear. -/
theorem shifts_xor (n : Nat) (a b : UInt32) : shifts n (a ^^^ b) = shifts n a ^^^ shifts n b := by
  induction n with
  | zero => rfl
  | succ n ih => rw [shifts_succ, ih, shift_xor, shifts_succ, shifts_succ]

/-- **Steps lose nothing.** -/
theorem shifts_injective (n : Nat) : Injective (shifts n) := by
  induction n with
  | zero => exact injective_id
  | succ n ih =>
    intro a b h
    rw [shifts_succ, shifts_succ] at h
    have hzero : shift (shifts n a ^^^ shifts n b) = 0 := by
      rw [shift_xor, h, UInt32.xor_self]
    exact ih (UInt32.xor_eq_zero_iff.mp (eq_zero_of_shift hzero))

/-- A number that stands `n` places up comes down in `n` steps. -/
theorem shifts_pow {n v : Nat} (h : 2 ^ n * v < 2 ^ 32) :
    shifts n (UInt32.ofNat (2 ^ n * v)) = UInt32.ofNat v := by
  induction n generalizing v with
  | zero => rw [Nat.pow_zero, Nat.one_mul]; rfl
  | succ n ih =>
    have hpow : 2 ^ (n + 1) * v = 2 ^ n * (2 * v) := by rw [Nat.pow_succ, Nat.mul_assoc]
    have hle : 2 * v ≤ 2 ^ n * (2 * v) := Nat.le_mul_of_pos_left _ (Nat.two_pow_pos n)
    rw [hpow] at h ⊢
    rw [shifts_succ, ih h, shift_double (Nat.lt_of_le_of_lt hle h)]

/-! ### Bytes -/

/-- A byte is taken in by eight shifts. -/
theorem step_eq (r : UInt32) (b : UInt8) : step r b = shifts 8 (r ^^^ b.toUInt32) := rfl

/-- **Taking bytes in loses nothing of the register.** -/
theorem update_injective (bs : Bytes) : Injective fun r => update r bs := by
  induction bs with
  | nil => exact injective_id
  | cons b bs ih =>
    intro r r' h
    have hstep : step r b = step r' b := ih h
    rw [step_eq, step_eq] at hstep
    exact (UInt32.xor_left_inj _).mp (shifts_injective 8 hstep)

/-- A byte below a multiple of 256 does not carry into it. -/
theorem ofNat_byte_add {b : UInt8} {v : Nat} :
    UInt32.ofNat (b.toNat + 256 * v) = b.toUInt32 ^^^ UInt32.ofNat (2 ^ 8 * v) := by
  have hxor : b.toNat + 2 ^ 8 * v = b.toNat ^^^ 2 ^ 8 * v := by
    have hb : b.toNat < 2 ^ 8 := b.toNat_lt
    apply Nat.eq_of_testBit_eq
    intro i
    rw [Nat.add_comm, Nat.testBit_two_pow_mul_add _ hb, Nat.testBit_xor, Nat.testBit_two_pow_mul]
    split_ifs with hi
    · have hlow : ¬ 8 ≤ i := Nat.not_le_of_lt hi
      simp [hlow]
    · have hhigh : 8 ≤ i := Nat.le_of_not_lt hi
      have hzero : b.toNat.testBit i = false :=
        Nat.testBit_lt_two_pow (Nat.lt_of_lt_of_le hb (Nat.pow_le_pow_right (by decide) hhigh))
      simp [hzero, hhigh]
  rw [show b.toNat + 256 * v = b.toNat ^^^ 2 ^ 8 * v from hxor]
  apply UInt32.toNat_inj.mp
  rw [UInt32.toNat_xor, UInt32.toNat_ofNat', UInt32.toNat_ofNat', UInt8.toNat_toUInt32,
    Nat.xor_mod_two_pow]
  congr 1
  have hb := b.toNat_lt
  omega

/-- **Up to four bytes are taken in at once, as the word that they make.** -/
theorem update_word {bs : Bytes} (hlen : bs.length ≤ 4) (r : UInt32) :
    update r bs = shifts (8 * bs.length) (r ^^^ UInt32.ofNat (ofLE bs)) := by
  induction bs generalizing r with
  | nil => exact UInt32.xor_zero.symm
  | cons b bs ih =>
    have hlen' : bs.length ≤ 3 := Nat.le_of_succ_le_succ hlen
    have hlt : 2 ^ 8 * ofLE bs < 2 ^ 32 := by
      have hbytes : ofLE bs < 256 ^ bs.length := ofLE_lt bs
      have hpow : 256 ^ bs.length ≤ 256 ^ 3 := Nat.pow_le_pow_right (by decide) hlen'
      omega
    have hrest : UInt32.ofNat (ofLE bs) = shifts 8 (UInt32.ofNat (2 ^ 8 * ofLE bs)) :=
      (shifts_pow hlt).symm
    calc update r (b :: bs)
      _ = update (step r b) bs := rfl
      _ = shifts (8 * bs.length) (shifts 8 (r ^^^ b.toUInt32) ^^^ UInt32.ofNat (ofLE bs)) :=
          ih (Nat.le_succ_of_le hlen') _
      _ = shifts (8 * bs.length)
            (shifts 8 (r ^^^ b.toUInt32 ^^^ UInt32.ofNat (2 ^ 8 * ofLE bs))) := by
          rw [hrest, ← shifts_xor]
      _ = shifts (8 * bs.length + 8) (r ^^^ UInt32.ofNat (ofLE (b :: bs))) := by
          rw [← shifts_add, ofLE, ofNat_byte_add, UInt32.xor_assoc]
      _ = shifts (8 * (b :: bs).length) (r ^^^ UInt32.ofNat (ofLE (b :: bs))) := rfl

/-- Different strings of at most four bytes leave different registers. -/
theorem update_ne {bs bs' : Bytes} (hlen : bs'.length = bs.length) (h4 : bs.length ≤ 4)
    (hne : bs' ≠ bs) (r : UInt32) : update r bs' ≠ update r bs := by
  intro h
  rw [update_word (hlen.trans_le h4), update_word h4, hlen] at h
  have hword : UInt32.ofNat (ofLE bs') = UInt32.ofNat (ofLE bs) :=
    (UInt32.xor_right_inj _).mp (shifts_injective _ h)
  have hsmall : ∀ cs : Bytes, cs.length ≤ 4 → (UInt32.ofNat (ofLE cs)).toNat = ofLE cs := by
    intro cs hcs
    have hbytes : ofLE cs < 256 ^ cs.length := ofLE_lt cs
    have hpow : 256 ^ cs.length ≤ 256 ^ 4 := Nat.pow_le_pow_right (by decide) hcs
    exact UInt32.toNat_ofNat_of_lt' (Nat.lt_of_lt_of_le hbytes hpow)
  have hnat := congrArg UInt32.toNat hword
  rw [hsmall bs' (hlen.trans_le h4), hsmall bs h4] at hnat
  exact hne (ofLE_injective hlen hnat)

/-- **A burst of at most four bytes changes the checksum**, wherever it is. -/
theorem checksum_ne_of_burst {pos len : Nat} {bs bs' : Bytes} (h : BurstAt pos len bs bs')
    (h4 : len ≤ 4) : checksum bs' ≠ checksum bs := by
  intro hsum
  have hregister : update start bs' = update start bs := (UInt32.xor_left_inj _).mp hsum
  rw [BurstAt.split_window pos len bs', BurstAt.split_window pos len bs, update_append,
    update_append, update_append, update_append, h.take_eq, h.drop_eq] at hregister
  exact update_ne h.length_window_eq ((List.length_take_le _ _).trans h4) h.window_ne _
    (update_injective _ hregister)

end Crc32

/-! ### A checksum within the string that it covers -/

/-- A string with the word at a place zeroed. -/
def zeroedAt (place : Nat) (bs : Bytes) : Bytes :=
  bs.take place ++ List.replicate 4 0 ++ bs.drop (place + 4)

section zeroedAt

variable {place pos len : Nat} {bs bs' : Bytes}

/-- The four bytes at the place are zero, and all others are as they were. -/
theorem getElem?_zeroedAt (hroom : place + 4 ≤ bs.length) (i : Nat) :
    (zeroedAt place bs)[i]? = if place ≤ i ∧ i < place + 4 then some 0 else bs[i]? := by
  have htake : (bs.take place).length = place := List.length_take_of_le (by omega)
  rw [zeroedAt, List.append_assoc, List.getElem?_append, List.getElem?_append, htake,
    List.length_replicate]
  by_cases hbefore : i < place
  · have hnot : ¬ (place ≤ i ∧ i < place + 4) := fun h => absurd h.1 (Nat.not_le_of_lt hbefore)
    rw [if_pos hbefore, if_neg hnot, List.getElem?_take_of_lt hbefore]
  · rw [if_neg hbefore]
    by_cases hword : i < place + 4
    · have hin : place ≤ i ∧ i < place + 4 := ⟨Nat.le_of_not_lt hbefore, hword⟩
      have hrep : i - place < 4 := by omega
      rw [if_pos hin, if_pos hrep, List.getElem?_replicate, if_pos hrep]
    · have hout : ¬ (place ≤ i ∧ i < place + 4) := fun h => hword h.2
      have hrep : ¬ i - place < 4 := by omega
      rw [if_neg hout, if_neg hrep, List.getElem?_drop]
      congr 1
      omega

namespace BurstAt

variable (h : BurstAt pos len bs bs') (hroom : place + 4 ≤ bs.length)

include h

/-- A burst outside the word leaves the word as it was. -/
theorem word32_eq (hout : pos + len ≤ place ∨ place + 4 ≤ pos) :
    word32 bs' place = word32 bs place := by
  rw [word32, word32, h.cut_eq (by omega)]

include hroom

/-- A burst within the word changes it. -/
theorem word32_ne (hin : place ≤ pos ∧ pos + len ≤ place + 4) :
    word32 bs' place ≠ word32 bs place := by
  intro hword
  apply (h.cut hin.1 hin.2).differs
  rw [← Header.toLE_word32 hroom, ← Header.toLE_word32 (hroom.trans_eq h.length_eq.symm), hword]

/-- A burst outside the word is a burst in the string with the word zeroed. -/
theorem zeroed (hout : pos + len ≤ place ∨ place + 4 ≤ pos) :
    BurstAt pos len (zeroedAt place bs) (zeroedAt place bs') := by
  have hroom' : place + 4 ≤ bs'.length := hroom.trans_eq h.length_eq.symm
  refine ⟨?_, ?_, ?_⟩
  · simp [zeroedAt, h.length_eq]
  · intro i hi
    rw [getElem?_zeroedAt hroom, getElem?_zeroedAt hroom', h.elsewhere i hi]
  · intro hsame
    apply h.differs
    apply List.ext_getElem?
    intro i
    by_cases hword : place ≤ i ∧ i < place + 4
    · exact h.elsewhere i (by omega)
    · have hi := congrArg (·[i]?) hsame
      simpa only [getElem?_zeroedAt hroom, getElem?_zeroedAt hroom', if_neg hword] using hi

/-- A burst within the word leaves the string with the word zeroed as it was. -/
theorem zeroed_eq (hin : place ≤ pos ∧ pos + len ≤ place + 4) :
    zeroedAt place bs' = zeroedAt place bs := by
  have hroom' : place + 4 ≤ bs'.length := hroom.trans_eq h.length_eq.symm
  apply List.ext_getElem?
  intro i
  rw [getElem?_zeroedAt hroom, getElem?_zeroedAt hroom']
  split_ifs with hword
  · rfl
  · exact h.elsewhere i (by omega)

end BurstAt

/-- **A burst of at most four bytes breaks a checksum that is stored beside what it covers**, if it
lies before the stored checksum, within it, or after it. -/
theorem Crc32.breaks_of_burst (h : BurstAt pos len bs bs') (hroom : place + 4 ≤ bs.length)
    (h4 : len ≤ 4)
    (hpart : pos + len ≤ place ∨ place ≤ pos ∧ pos + len ≤ place + 4 ∨ place + 4 ≤ pos)
    (hholds : Crc32.checksum (zeroedAt place bs) = word32 bs place) :
    Crc32.checksum (zeroedAt place bs') ≠ word32 bs' place := by
  have houtside : pos + len ≤ place ∨ place + 4 ≤ pos →
      Crc32.checksum (zeroedAt place bs') ≠ word32 bs' place := by
    intro hout
    rw [h.word32_eq hout, ← hholds]
    exact Crc32.checksum_ne_of_burst (h.zeroed hroom hout) h4
  rcases hpart with hbefore | hwithin | hafter
  · exact houtside (.inl hbefore)
  · rw [h.zeroed_eq hroom hwithin, hholds]
    exact (h.word32_ne hroom hwithin).symm
  · exact houtside (.inr hafter)

end zeroedAt

end BootImage
