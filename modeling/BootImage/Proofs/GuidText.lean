import BootImage.Guid
import Mathlib.Tactic.Common

/-!
# Identifiers and their texts

The text of an identifier has 36 ASCII characters and says which identifier it is. Reading does not
tell a digit from the same digit in the other case, so every text that is the identifier's text but
for the case of letters (`toLower`) is read as the identifier, and no other text is.

* `Guid.ofText?_text` — the text reads back.
* `Guid.ofText?_toLower` — the case of letters does not matter, of any text.
* `Guid.ofText?_eq_some` — which texts are read as an identifier.
* `Guid.length_text`, `Guid.isAscii_text` — what the text is made of.
-/

namespace BootImage

/-- An ASCII letter in lower case; every other byte as it is. -/
def toLower (c : UInt8) : UInt8 := if 65 ≤ c ∧ c ≤ 90 then c + 32 else c

/-- A letter and its other case are 32 apart. -/
theorem toNat_add_of_upper {c : UInt8} (h : 65 ≤ c ∧ c ≤ 90) : (c + 32).toNat = c.toNat + 32 := by
  simp only [UInt8.le_iff_toNat_le, UInt8.reduceToNat] at h
  simp only [UInt8.toNat_add, UInt8.reduceToNat]
  omega

/-- A string of ASCII characters. -/
def IsAscii (s : Bytes) : Prop := ∀ b ∈ s, b.toNat < 128

namespace Hexadecimal

/-! ### Pairs of digits -/

/-- Each byte takes two digits. -/
theorem length_ofBytes (bs : Bytes) : (ofBytes bs).length = 2 * bs.length := by
  induction bs with
  | nil => rfl
  | cons b bs ih =>
    have hpair : ofBytes (b :: bs) = pair b ++ ofBytes bs := rfl
    rw [hpair, List.length_append, ih, List.length_cons]
    simp only [pair, List.length_cons, List.length_nil]
    omega

/-- Pairs of digits are made of digits. -/
theorem forall_mem_ofBytes {P : UInt8 → Prop} (hdigit : ∀ n < 16, P (digit n)) (bs : Bytes) :
    ∀ c ∈ ofBytes bs, P c := by
  intro c hc
  obtain ⟨b, -, hb⟩ := List.mem_flatMap.mp hc
  have hlt := b.toNat_lt
  simp only [pair, List.mem_cons, List.not_mem_nil, or_false] at hb
  rcases hb with rfl | rfl
  · exact hdigit _ (by omega)
  · exact hdigit _ (by omega)

/-- Pairs of digits read back as the bytes they were written for, of which the number is known. -/
theorem takeBytes?_of_length {n : Nat} {bs : Bytes} (h : bs.length = n) (rest : Bytes) :
    takeBytes? n (ofBytes bs ++ rest) = some (bs, rest) := by
  subst h
  exact takeBytes?_ofBytes bs rest

/-- A digit has the same value in either case. -/
theorem value?_toLower (c : UInt8) : value? (toLower c) = value? c := by
  have hlt := c.toNat_lt
  unfold toLower
  split_ifs with hupper
  · have hadd := toNat_add_of_upper hupper
    simp only [UInt8.le_iff_toNat_le, UInt8.reduceToNat] at hupper
    simp only [value?, hadd]
    grind
  · rfl

/-- Pairs of digits have the same bytes in either case. -/
theorem takeBytes?_toLower (n : Nat) (s : Bytes) :
    takeBytes? n (s.map toLower) =
      (takeBytes? n s).map fun p => (p.1, p.2.map toLower) := by
  induction n generalizing s with
  | zero => rfl
  | succ n ih =>
    match s with
    | [] => rfl
    | [_] => rfl
    | a :: b :: s =>
      simp only [List.map_cons, takeBytes?, value?_toLower, ih]
      rcases value? a with _ | high
      · rfl
      · rcases value? b with _ | low
        · rfl
        · rcases takeBytes? n s with _ | ⟨bs, rest⟩ <;> rfl

/-- A character that is read as a digit is this digit, in either case. -/
theorem toLower_of_value? {c : UInt8} {n : Nat} (h : value? c = some n) :
    n < 16 ∧ toLower c = digit n := by
  have hlt := c.toNat_lt
  simp only [value?] at h
  split_ifs at h with hdecimal hlower hupper
  · cases h
    have hsame : toLower c = c :=
      if_neg (by simp only [UInt8.le_iff_toNat_le, UInt8.reduceToNat]; omega)
    refine ⟨by omega, ?_⟩
    rw [hsame, digit, if_pos (by omega), Nat.add_sub_cancel' hdecimal.1, UInt8.ofNat_toNat]
  · cases h
    have hsame : toLower c = c :=
      if_neg (by simp only [UInt8.le_iff_toNat_le, UInt8.reduceToNat]; omega)
    refine ⟨by omega, ?_⟩
    rw [hsame, digit, if_neg (by omega), Nat.add_sub_cancel' (by omega), UInt8.ofNat_toNat]
  · cases h
    have hletter : 65 ≤ c ∧ c ≤ 90 := by
      simp only [UInt8.le_iff_toNat_le, UInt8.reduceToNat]
      omega
    refine ⟨by omega, ?_⟩
    apply UInt8.toNat_inj.mp
    rw [toLower, if_pos hletter, toNat_add_of_upper hletter, digit, if_neg (by omega),
      UInt8.toNat_ofNat']
    omega

/-- Characters that are read as pairs of digits are these pairs, in either case. -/
theorem toLower_of_takeBytes? {n : Nat} {s bs rest : Bytes} (h : takeBytes? n s = some (bs, rest)) :
    ∃ digits, s = digits ++ rest ∧ digits.map toLower = ofBytes bs := by
  induction n generalizing s bs with
  | zero =>
    cases h
    exact ⟨[], rfl, rfl⟩
  | succ n ih =>
    match s with
    | [] => cases h
    | [_] => cases h
    | a :: b :: s =>
      simp only [takeBytes?, Option.bind_eq_bind, Option.bind_eq_some_iff, Option.pure_def,
        Option.some.injEq, Prod.mk.injEq, Prod.exists] at h
      obtain ⟨high, hhigh, low, hlow, bs, _, htake, rfl, rfl⟩ := h
      obtain ⟨digits, rfl, hdigits⟩ := ih htake
      obtain ⟨hhighLt, hhigh⟩ := toLower_of_value? hhigh
      obtain ⟨hlowLt, hlow⟩ := toLower_of_value? hlow
      have hbyte : (UInt8.ofNat (16 * high + low)).toNat = 16 * high + low := by
        rw [UInt8.toNat_ofNat']
        omega
      have hpair : pair (UInt8.ofNat (16 * high + low)) = [digit high, digit low] := by
        rw [pair, hbyte, show (16 * high + low) / 16 = high by omega,
          show (16 * high + low) % 16 = low by omega]
      refine ⟨a :: b :: digits, rfl, ?_⟩
      have hsplit : ofBytes (UInt8.ofNat (16 * high + low) :: bs) =
          pair (UInt8.ofNat (16 * high + low)) ++ ofBytes bs := rfl
      rw [List.map_cons, List.map_cons, hhigh, hlow, hdigits, hsplit, hpair]
      rfl

end Hexadecimal

namespace Guid

/-! ### The text of an identifier -/

section groups

variable (g : Guid)

/-- A GUID is read back from its bytes. -/
theorem ofBytes_bytes : ofBytes g.bytes = g := by
  have hfit : fit 16 g.bytes = g.bytes := fit_of_length g.length_bytes
  simp only [ofBytes, hfit]

/-- Its first group has four bytes. -/
theorem length_take_four : (g.bytes.take 4).reverse.length = 4 := by
  simp [g.length_bytes]

/-- The groups in the middle have two bytes. -/
theorem length_take_two {n : Nat} (h : n + 2 ≤ 16) : ((g.bytes.drop n).take 2).length = 2 :=
  length_window (by rwa [g.length_bytes])

/-- The last group has six bytes. -/
theorem length_drop_ten : (g.bytes.drop 10).length = 6 := by
  simp [g.length_bytes]

/-- **The text of an identifier says which identifier it is.** -/
theorem ofText?_text : ofText? g.text = some g := by
  have hfirst := Hexadecimal.takeBytes?_of_length g.length_take_four
  have hsecond := Hexadecimal.takeBytes?_of_length
    ((List.length_reverse ..).trans (g.length_take_two (n := 4) (by omega)))
  have hthird := Hexadecimal.takeBytes?_of_length
    ((List.length_reverse ..).trans (g.length_take_two (n := 6) (by omega)))
  have hfourth := Hexadecimal.takeBytes?_of_length (g.length_take_two (n := 8) (by omega))
  have hfifth := Hexadecimal.takeBytes?_of_length g.length_drop_ten []
  rw [List.append_nil] at hfifth
  -- the groups, each turned back, are the bytes in their order
  have hgroups : g.bytes.take 4 ++ (g.bytes.drop 4).take 2 ++ (g.bytes.drop 6).take 2 ++
      (g.bytes.drop 8).take 2 ++ g.bytes.drop 10 = g.bytes := by
    have hsplit : ∀ n, (g.bytes.drop n).take 2 ++ g.bytes.drop (n + 2) = g.bytes.drop n := by
      intro n
      rw [← List.drop_drop, List.take_append_drop]
    rw [List.append_assoc, List.append_assoc, List.append_assoc, hsplit 8, hsplit 6, hsplit 4,
      List.take_append_drop]
  simp only [ofText?, text, hfirst, hsecond, hthird, hfourth, hfifth, dropHyphen?, if_true,
    Option.bind_eq_bind, Option.bind_some, List.reverse_reverse, hgroups, ofBytes_bytes]

/-- The text has 36 characters. -/
theorem length_text : g.text.length = 36 := by
  simp only [text, List.length_append, List.length_cons, Hexadecimal.length_ofBytes,
    g.length_take_four, List.length_reverse, g.length_drop_ten]
  rw [g.length_take_two (by omega), g.length_take_two (by omega), g.length_take_two (by omega)]

/-- The text of an identifier is made of digits and hyphens. -/
theorem forall_mem_text {P : UInt8 → Prop} (hdigit : ∀ n < 16, P (Hexadecimal.digit n))
    (hhyphen : P hyphen) : ∀ c ∈ g.text, P c := by
  have hgroup := Hexadecimal.forall_mem_ofBytes hdigit
  simp only [text, List.forall_mem_append, List.forall_mem_cons]
  exact ⟨hgroup _, hhyphen, hgroup _, hhyphen, hgroup _, hhyphen, hgroup _, hhyphen, hgroup _⟩

/-- All of them are ASCII characters. -/
theorem isAscii_text : IsAscii g.text := g.forall_mem_text (by decide) (by decide)

/-- The text of an identifier is in lower case. -/
theorem toLower_text : g.text.map toLower = g.text := by
  have hlower : ∀ c ∈ g.text, toLower c = c := g.forall_mem_text (by decide) (by decide)
  exact (List.map_congr_left hlower).trans (List.map_id _)

end groups

/-! ### Letters in either case -/

/-- Only a hyphen becomes a hyphen in lower case. -/
theorem toLower_eq_hyphen (c : UInt8) : toLower c = hyphen ↔ c = hyphen := by
  unfold toLower
  split_ifs with hupper
  · have hadd := toNat_add_of_upper hupper
    simp only [UInt8.le_iff_toNat_le, UInt8.reduceToNat] at hupper
    simp only [← UInt8.toNat_inj, hadd, hyphen, UInt8.reduceToNat]
    omega
  · rfl

/-- Dropping a hyphen does not depend on the case of what follows. -/
theorem dropHyphen?_toLower (s : Bytes) :
    dropHyphen? (s.map toLower) = (dropHyphen? s).map (List.map toLower) := by
  cases s with
  | nil => rfl
  | cons c s =>
    rw [List.map_cons, dropHyphen?, dropHyphen?]
    simp only [toLower_eq_hyphen]
    split_ifs <;> rfl

/-- **Reading an identifier does not tell upper from lower case.** -/
theorem ofText?_toLower (s : Bytes) : ofText? (s.map toLower) = ofText? s := by
  unfold ofText?
  simp only [Hexadecimal.takeBytes?_toLower, dropHyphen?_toLower, Option.bind_eq_bind,
    Option.bind_map, Function.comp_def, List.map_eq_nil_iff]

/-- A text that is an identifier's text but for the case of letters is read as the identifier. -/
theorem ofText?_of_toLower {g : Guid} {s : Bytes} (h : s.map toLower = g.text) :
    ofText? s = some g := by
  rw [← ofText?_toLower, h, ofText?_text]

/-! ### No other texts -/

/-- What a hyphen is dropped from begins with it. -/
theorem eq_of_dropHyphen? {s rest : Bytes} (h : dropHyphen? s = some rest) :
    s = hyphen :: rest := by
  cases s with
  | nil => cases h
  | cons c s =>
    rw [dropHyphen?] at h
    split_ifs at h with hc
    cases h
    rw [hc]

/-- The text of the identifier that five groups of bytes make up. -/
theorem text_ofBytes {a b c d e : Bytes} (ha : a.length = 4) (hb : b.length = 2) (hc : c.length = 2)
    (hd : d.length = 2) (he : e.length = 6) :
    (ofBytes (a.reverse ++ b.reverse ++ c.reverse ++ d ++ e)).text =
      Hexadecimal.ofBytes a ++ hyphen :: (Hexadecimal.ofBytes b ++ hyphen ::
        (Hexadecimal.ofBytes c ++ hyphen :: (Hexadecimal.ofBytes d ++ hyphen ::
          Hexadecimal.ofBytes e))) := by
  have ha' : a.reverse.length = 4 := (List.length_reverse ..).trans ha
  have hb' : b.reverse.length = 2 := (List.length_reverse ..).trans hb
  have hc' : c.reverse.length = 2 := (List.length_reverse ..).trans hc
  have hbytes : (ofBytes (a.reverse ++ b.reverse ++ c.reverse ++ d ++ e)).bytes =
      a.reverse ++ (b.reverse ++ (c.reverse ++ (d ++ e))) := by
    have hlen : (a.reverse ++ b.reverse ++ c.reverse ++ d ++ e).length = 16 := by
      simp [ha, hb, hc, hd, he]
    exact (fit_of_length hlen).trans (by simp only [List.append_assoc])
  generalize ofBytes (a.reverse ++ b.reverse ++ c.reverse ++ d ++ e) = g at hbytes
  have h4 : g.bytes.drop 4 = b.reverse ++ (c.reverse ++ (d ++ e)) := by
    rw [hbytes, List.drop_left' ha']
  have h6 : g.bytes.drop 6 = c.reverse ++ (d ++ e) := by
    rw [← List.drop_drop (i := 2) (j := 4), h4, List.drop_left' hb']
  have h8 : g.bytes.drop 8 = d ++ e := by
    rw [← List.drop_drop (i := 2) (j := 6), h6, List.drop_left' hc']
  have h10 : g.bytes.drop 10 = e := by
    rw [← List.drop_drop (i := 2) (j := 8), h8, List.drop_left' hd]
  rw [text, h10, h8, h6, h4, hbytes, List.take_left' ha', List.take_left' hb', List.take_left' hc',
    List.take_left' hd, List.reverse_reverse, List.reverse_reverse, List.reverse_reverse]

/-- **A text that is read as an identifier is the identifier's text**, but for the case of
letters. -/
theorem toLower_of_ofText? {s : Bytes} {g : Guid} (h : ofText? s = some g) :
    s.map toLower = g.text := by
  simp only [ofText?, Option.bind_eq_bind, Option.bind_eq_some_iff, Prod.exists] at h
  obtain ⟨a, s₁, ha, t₁, ht₁, b, s₂, hb, t₂, ht₂, c, s₃, hc, t₃, ht₃, d, s₄, hd, t₄, ht₄, e, s₅, he,
    h⟩ := h
  split_ifs at h with hs₅
  cases h
  have hlengths := text_ofBytes (Hexadecimal.length_of_takeBytes? ha)
    (Hexadecimal.length_of_takeBytes? hb) (Hexadecimal.length_of_takeBytes? hc)
    (Hexadecimal.length_of_takeBytes? hd) (Hexadecimal.length_of_takeBytes? he)
  obtain ⟨first, rfl, hfirst⟩ := Hexadecimal.toLower_of_takeBytes? ha
  obtain rfl := eq_of_dropHyphen? ht₁
  obtain ⟨second, rfl, hsecond⟩ := Hexadecimal.toLower_of_takeBytes? hb
  obtain rfl := eq_of_dropHyphen? ht₂
  obtain ⟨third, rfl, hthird⟩ := Hexadecimal.toLower_of_takeBytes? hc
  obtain rfl := eq_of_dropHyphen? ht₃
  obtain ⟨fourth, rfl, hfourth⟩ := Hexadecimal.toLower_of_takeBytes? hd
  obtain rfl := eq_of_dropHyphen? ht₄
  obtain ⟨fifth, rfl, hfifth⟩ := Hexadecimal.toLower_of_takeBytes? he
  have hhyphen : toLower hyphen = hyphen := by decide
  rw [hlengths, hs₅]
  simp only [List.append_nil, List.map_append, List.map_cons, hfirst, hsecond, hthird, hfourth,
    hfifth,
    hhyphen]

/-- A text is read as a GUID exactly if it is the GUID's text but for case. -/
theorem ofText?_eq_some {s : Bytes} {g : Guid} : ofText? s = some g ↔ s.map toLower = g.text :=
  ⟨toLower_of_ofText?, ofText?_of_toLower⟩

end Guid

end BootImage
