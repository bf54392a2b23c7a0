import BootImage.Header
import Mathlib.Tactic.Common

/-!
# Characters that are read are the characters that are there

Reading a character and encoding it again gives the bytes that were read: the table of lead and
continuation bytes (`first?`) leaves no room for a second form of any character. What `run` reads is
therefore a beginning of its input, and a set name a beginning of the field that it is read from.
Nor does the table miss a character: one that is there is read, whatever follows it. So `run` stops
only where no character is, and every well-formed beginning of a string is part of what it reads.

* `encode_of_first?`, `first?_encodeChar` — for one character, with a case for each number of
  continuation bytes.
* `encode_run`, `run_encode_append` — for the whole run, by its recursion and by the characters.
* `prefix_of_wellFormed` — what is well formed is read.
* `Header.setNameBytes_prefix` — for the set name.
-/

namespace BootImage

/-- A number below 256 fits a byte. -/
theorem toNat_ofNat_of_lt {n : Nat} (h : n < 256) : (UInt8.ofNat n).toNat = n := by
  rw [UInt8.toNat_ofNat']
  omega

namespace Utf8

/-! ### What the table allows -/

/-- The character of a scalar value has that value. -/
theorem toNat_val_ofNat {n : Nat} (h : n.isValidChar) : (Char.ofNat n).val.toNat = n := by
  rw [Char.ofNat, dif_pos h]
  rfl

/-- The lead bytes for each number of continuation bytes. -/
theorem lead_of_tails? {a : UInt8} {n : Nat} (h : tails? a = some n) :
    (n = 0 ∧ a.toNat ≤ 0x7F) ∨ (n = 1 ∧ 0xC2 ≤ a.toNat ∧ a.toNat ≤ 0xDF) ∨
      (n = 2 ∧ 0xE0 ≤ a.toNat ∧ a.toNat ≤ 0xEF) ∨ (n = 3 ∧ 0xF0 ≤ a.toNat ∧ a.toNat ≤ 0xF4) := by
  unfold tails? at h
  simp only [UInt8.le_iff_toNat_le, UInt8.lt_iff_toNat_lt, UInt8.reduceToNat] at h
  split_ifs at h <;> simp at h <;> omega

/-- Later bytes of a character are from 0x80 to 0xBF. -/
theorem range_of_isTail {b : UInt8} (h : isTail b = true) : 0x80 ≤ b.toNat ∧ b.toNat ≤ 0xBF := by
  simpa [isTail, UInt8.le_iff_toNat_le] using h

/-- The byte after a lead byte continues a character, within the limits of the four narrow leads. -/
theorem range_of_isSecond {a b : UInt8} (h : isSecond a b = true) :
    (0x80 ≤ b.toNat ∧ b.toNat ≤ 0xBF) ∧ (a.toNat = 0xE0 → 0xA0 ≤ b.toNat) ∧
      (a.toNat = 0xED → b.toNat ≤ 0x9F) ∧ (a.toNat = 0xF0 → 0x90 ≤ b.toNat) ∧
      (a.toNat = 0xF4 → b.toNat ≤ 0x8F) := by
  have heq : ∀ c : UInt8, a = c ↔ a.toNat = c.toNat := fun c => UInt8.toNat_inj.symm
  unfold isSecond isTail at h
  simp only [heq] at h
  split_ifs at h <;> simp [UInt8.le_iff_toNat_le] at h <;> simp_all <;> omega

/-! ### One character -/

/-- The byte of a byte's number is that byte. -/
theorem ofNat_eq {n : Nat} {b : UInt8} (h : n = b.toNat) : UInt8.ofNat n = b := by
  rw [h, UInt8.ofNat_toNat]

section encode

variable {a b c d : UInt8}

/-- A character below 0x80 is written in one byte. -/
theorem encode_one (ha : a.toNat ≤ 0x7F) : String.utf8EncodeChar (Char.ofNat a.toNat) = [a] := by
  have hv : (Char.ofNat a.toNat).val.toNat = a.toNat :=
    toNat_val_ofNat (by unfold Nat.isValidChar; omega)
  simp only [String.utf8EncodeChar, hv]
  rw [if_pos (by omega), UInt8.ofNat_toNat]

/-- A character from two bytes is written in them. -/
theorem encode_two (ha : 0xC2 ≤ a.toNat ∧ a.toNat ≤ 0xDF)
    (hb : 0x80 ≤ b.toNat ∧ b.toNat ≤ 0xBF) :
    String.utf8EncodeChar (Char.ofNat (a.toNat % 32 * 64 + payload b)) = [a, b] := by
  unfold payload
  have hv : (Char.ofNat (a.toNat % 32 * 64 + b.toNat % 64)).val.toNat = _ :=
    toNat_val_ofNat (by unfold Nat.isValidChar; omega)
  simp only [String.utf8EncodeChar, hv]
  rw [if_neg (by omega), if_pos (by omega), ofNat_eq (b := a) (by omega),
    ofNat_eq (b := b) (by omega)]

/-- So is one from three bytes. -/
theorem encode_three (ha : 0xE0 ≤ a.toNat ∧ a.toNat ≤ 0xEF) (hb : isSecond a b = true)
    (hc : isTail c = true) :
    String.utf8EncodeChar (Char.ofNat ((a.toNat % 16 * 64 + payload b) * 64 + payload c)) =
      [a, b, c] := by
  have hb := range_of_isSecond hb
  have hc := range_of_isTail hc
  unfold payload
  have hv : (Char.ofNat ((a.toNat % 16 * 64 + b.toNat % 64) * 64 + c.toNat % 64)).val.toNat = _ :=
    toNat_val_ofNat (by unfold Nat.isValidChar; omega)
  simp only [String.utf8EncodeChar, hv]
  rw [if_neg (by omega), if_neg (by omega), if_pos (by omega), ofNat_eq (b := a) (by omega),
    ofNat_eq (b := b) (by omega), ofNat_eq (b := c) (by omega)]

/-- So is one from four bytes. -/
theorem encode_four (ha : 0xF0 ≤ a.toNat ∧ a.toNat ≤ 0xF4) (hb : isSecond a b = true)
    (hc : isTail c = true) (hd : isTail d = true) :
    String.utf8EncodeChar (Char.ofNat
      (((a.toNat % 8 * 64 + payload b) * 64 + payload c) * 64 + payload d)) = [a, b, c, d] := by
  have hb := range_of_isSecond hb
  have hc := range_of_isTail hc
  have hd := range_of_isTail hd
  unfold payload
  have hv : (Char.ofNat (((a.toNat % 8 * 64 + b.toNat % 64) * 64 + c.toNat % 64) * 64 +
      d.toNat % 64)).val.toNat = _ := toNat_val_ofNat (by unfold Nat.isValidChar; omega)
  simp only [String.utf8EncodeChar, hv]
  rw [if_neg (by omega), if_neg (by omega), if_neg (by omega), ofNat_eq (b := a) (by omega),
    ofNat_eq (b := b) (by omega), ofNat_eq (b := c) (by omega), ofNat_eq (b := d) (by omega)]

end encode

/-- **A character that is read has the bytes that it was read from.** -/
theorem encode_of_first? {s rest : Bytes} {c : Char} (h : first? s = some (c, rest)) :
    String.utf8EncodeChar c ++ rest = s := by
  unfold first? at h
  split at h
  · cases h
  · split at h
    · rename_i htails
      cases h
      have ha := lead_of_tails? htails
      rw [encode_one (by omega)]
      rfl
    · rename_i htails
      split_ifs at h with hb
      cases h
      have ha := lead_of_tails? htails
      rw [encode_two (by omega) (range_of_isSecond hb).1]
      rfl
    · rename_i htails
      split_ifs at h with hbc
      cases h
      have ha := lead_of_tails? htails
      rw [Bool.and_eq_true] at hbc
      rw [encode_three (by omega) hbc.1 hbc.2]
      rfl
    · rename_i htails
      split_ifs at h with hbcd
      cases h
      have ha := lead_of_tails? htails
      rw [Bool.and_eq_true, Bool.and_eq_true] at hbcd
      rw [encode_four (by omega) hbcd.1.1 hbcd.1.2 hbcd.2]
      rfl
    · cases h

/-! ### The whole run -/

/-- **What a run reads, followed by what it leaves, is its input.** -/
theorem encode_run (s : Bytes) : encode (run s).1 ++ (run s).2 = s := by
  fun_induction run s with
  | case1 s h => rfl
  | case2 s c rest h hlt cs left hrun ih =>
    rw [hrun] at ih
    show (String.utf8EncodeChar c ++ encode cs) ++ left = s
    rw [List.append_assoc, ih, encode_of_first? h]

/-! ### Nothing is missed -/

/-- The number of continuation bytes for each lead byte. -/
theorem tails?_of_lead {a : UInt8} {n : Nat}
    (h : (n = 0 ∧ a.toNat ≤ 0x7F) ∨ (n = 1 ∧ 0xC2 ≤ a.toNat ∧ a.toNat ≤ 0xDF) ∨
      (n = 2 ∧ 0xE0 ≤ a.toNat ∧ a.toNat ≤ 0xEF) ∨ (n = 3 ∧ 0xF0 ≤ a.toNat ∧ a.toNat ≤ 0xF4)) :
    tails? a = some n := by
  unfold tails?
  simp only [UInt8.le_iff_toNat_le, UInt8.lt_iff_toNat_lt, UInt8.reduceToNat]
  rcases h with ⟨rfl, h⟩ | ⟨rfl, h⟩ | ⟨rfl, h⟩ | ⟨rfl, h⟩
  · rw [if_pos h]
  · rw [if_neg (by omega), if_neg (by omega), if_pos h.2]
  · rw [if_neg (by omega), if_neg (by omega), if_neg (by omega), if_pos h.2]
  · rw [if_neg (by omega), if_neg (by omega), if_neg (by omega), if_neg (by omega), if_pos h.2]

/-- Bytes from 0x80 to 0xBF are later bytes. -/
theorem isTail_of_range {b : UInt8} (h : 0x80 ≤ b.toNat ∧ b.toNat ≤ 0xBF) : isTail b = true := by
  simpa [isTail, UInt8.le_iff_toNat_le] using h

/-- A continuation byte within the limits of the four narrow leads may follow the lead byte. -/
theorem isSecond_of_range {a b : UInt8} (h : 0x80 ≤ b.toNat ∧ b.toNat ≤ 0xBF)
    (hE0 : a.toNat = 0xE0 → 0xA0 ≤ b.toNat) (hED : a.toNat = 0xED → b.toNat ≤ 0x9F)
    (hF0 : a.toNat = 0xF0 → 0x90 ≤ b.toNat) (hF4 : a.toNat = 0xF4 → b.toNat ≤ 0x8F) :
    isSecond a b = true := by
  have heq : ∀ c : UInt8, a = c ↔ a.toNat = c.toNat := fun c => UInt8.toNat_inj.symm
  unfold isSecond isTail
  simp only [heq]
  split_ifs <;> simp [UInt8.le_iff_toNat_le] <;> simp_all

/-- The character of a character's number is that character. -/
theorem ofNat_eq_self {c : Char} {n : Nat} (h : n = c.val.toNat) : Char.ofNat n = c := by
  rw [h]
  exact Char.ofNat_toNat c

/-- **A character that is there is read**, whatever follows it. -/
theorem first?_encodeChar (c : Char) (rest : Bytes) :
    first? (String.utf8EncodeChar c ++ rest) = some (c, rest) := by
  have hvalid : c.val.toNat < 0xD800 ∨ (0xDFFF < c.val.toNat ∧ c.val.toNat < 0x110000) := c.valid
  simp only [String.utf8EncodeChar]
  generalize hv : c.val.toNat = v at hvalid ⊢
  -- the bytes of the character, as numbers
  have hlow := toNat_ofNat_of_lt (n := v % 64 + 128) (by omega)
  have hmiddle := toNat_ofNat_of_lt (n := v / 64 % 64 + 128) (by omega)
  have hhigh := toNat_ofNat_of_lt (n := v / 4096 % 64 + 128) (by omega)
  split_ifs with h1 h2 h3
  · have ha := toNat_ofNat_of_lt (n := v) (by omega)
    have hlead : tails? (UInt8.ofNat v) = some 0 := tails?_of_lead (by omega)
    simp only [List.cons_append, List.nil_append, first?, hlead, ha]
    rw [ofNat_eq_self hv.symm]
  · have ha := toNat_ofNat_of_lt (n := v / 64 % 32 + 192) (by omega)
    have hlead : tails? (UInt8.ofNat (v / 64 % 32 + 192)) = some 1 := tails?_of_lead (by omega)
    have hsecond : isSecond (UInt8.ofNat (v / 64 % 32 + 192)) (UInt8.ofNat (v % 64 + 128)) = true :=
      isSecond_of_range (by omega) (by omega) (by omega) (by omega) (by omega)
    simp only [List.cons_append, List.nil_append, first?, hlead, hsecond, if_true, payload, ha,
      hlow]
    rw [ofNat_eq_self (c := c) (by omega)]
  · have ha := toNat_ofNat_of_lt (n := v / 4096 % 16 + 224) (by omega)
    have hlead : tails? (UInt8.ofNat (v / 4096 % 16 + 224)) = some 2 := tails?_of_lead (by omega)
    have hsecond : isSecond (UInt8.ofNat (v / 4096 % 16 + 224)) (UInt8.ofNat (v / 64 % 64 + 128)) =
        true := isSecond_of_range (by omega) (by omega) (by omega) (by omega) (by omega)
    have htail := isTail_of_range (b := UInt8.ofNat (v % 64 + 128)) (by omega)
    simp only [List.cons_append, List.nil_append, first?, hlead, hsecond, htail, Bool.and_self,
      if_true, payload, ha, hmiddle, hlow]
    rw [ofNat_eq_self (c := c) (by omega)]
  · have ha := toNat_ofNat_of_lt (n := v / 262144 % 8 + 240) (by omega)
    have hlead : tails? (UInt8.ofNat (v / 262144 % 8 + 240)) = some 3 := tails?_of_lead (by omega)
    have hsecond : isSecond (UInt8.ofNat (v / 262144 % 8 + 240))
        (UInt8.ofNat (v / 4096 % 64 + 128)) = true :=
      isSecond_of_range (by omega) (by omega) (by omega) (by omega) (by omega)
    have hthird := isTail_of_range (b := UInt8.ofNat (v / 64 % 64 + 128)) (by omega)
    have htail := isTail_of_range (b := UInt8.ofNat (v % 64 + 128)) (by omega)
    simp only [List.cons_append, List.nil_append, first?, hlead, hsecond, hthird, htail,
      Bool.and_self, if_true, payload, ha, hhigh, hmiddle, hlow]
    rw [ofNat_eq_self (c := c) (by omega)]

/-- A character that is decoded is followed by what is decoded of the rest. -/
theorem run_of_first? {s rest : Bytes} {c : Char} (h : first? s = some (c, rest)) :
    run s = (c :: (run rest).1, (run rest).2) := by
  rw [run]
  split
  · next hnone => cases hnone.symm.trans h
  · next hsome =>
    cases hsome.symm.trans h
    rfl

/-- Where no character can be decoded the decoding ends. -/
theorem run_of_none {s : Bytes} (h : first? s = none) : run s = ([], s) := by
  rw [run]
  split
  · rfl
  · next hsome => cases h.symm.trans hsome

/-- Characters at the start of a string are read, and reading goes on after them. -/
theorem run_encode_append (cs : List Char) (rest : Bytes) :
    run (encode cs ++ rest) = (cs ++ (run rest).1, (run rest).2) := by
  induction cs with
  | nil => rfl
  | cons c cs ih =>
    have hsplit : encode (c :: cs) ++ rest =
        String.utf8EncodeChar c ++ (encode cs ++ rest) := List.append_assoc _ _ _
    rw [hsplit, run_of_first? (first?_encodeChar c _), ih]
    rfl

/-- **Every well-formed beginning of a string is part of what is read.** -/
theorem prefix_of_wellFormed {bs s : Bytes} (hwell : WellFormed bs) (hstarts : bs <+: s) :
    bs <+: encode (run s).1 := by
  obtain ⟨cs, rfl⟩ := hwell
  obtain ⟨rest, rfl⟩ := hstarts
  rw [run_encode_append, encode, encode, List.flatMap_append]
  exact List.prefix_append _ _

/-- A string is not well formed if its characters end at bytes that no character starts with. -/
theorem not_wellFormed_append {bs s : Bytes} (hwell : WellFormed bs) (hnone : first? s = none)
    (hne : s ≠ []) : ¬ WellFormed (bs ++ s) := by
  obtain ⟨cs, rfl⟩ := hwell
  rintro ⟨cs', hcs'⟩
  have hall := run_encode_append cs' []
  have hpart := run_encode_append cs s
  rw [List.append_nil, hcs', hpart, run_of_none hnone, run_of_none rfl] at hall
  exact hne (congrArg Prod.snd hall)

end Utf8

/-- The bytes of a set name are the beginning of the name field, up to its first zero byte or to
before that. -/
theorem Header.setNameBytes_prefix (h : Header) :
    h.setNameBytes <+: h.name.takeWhile (· ≠ 0) :=
  ⟨_, Utf8.encode_run _⟩

end BootImage
