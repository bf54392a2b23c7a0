import BootImage.Proofs.WireForm

/-!
# All the forms of a number

A number may be written in more digits than it needs, with zeros for the ones that it does not
(`padded`), up to the number of digits that a reader takes. A string is then one of three things: it
starts with a form of a number (`NumberForm`); it has as many digits as a number may have, but the
number does not end with them or ends too large (`Overlong`); or it ends before the number does
(`CutShort`).

* `varint_padded`, `varint_of_overlong`, `varint_of_cutShort` — how each is read.
* `reading` — there is no other answer, so each tells which of the three the string is
  (`varint_eq_ok`, `varint_eq_badVarint`).
* `NumberForm.length_ofNat_le`, `NumberForm.eq_ofNat` — the form that is written is the shortest,
  and the only one of its length.
-/

namespace BootImage.Wire

/-- A number in `n` digits and one more: the low digits with their high bit set, then the last. -/
def padded : Nat → Nat → Bytes
  | 0, v => [UInt8.ofNat v]
  | n + 1, v => UInt8.ofNat (v % 128 + 128) :: padded n (v / 128)

/-- A string of digits none of which is the last one of its number. -/
def Unended (s : Bytes) : Prop := ∀ d ∈ s, 128 ≤ d.toNat

/-- A form of a number below `size`, of at most the given number of digits. -/
structure NumberForm (digits size v : Nat) (u : Bytes) : Prop where
  inRange : v < size
  isPadded : ∃ n < digits, v < 128 ^ (n + 1) ∧ u = padded n v

/-- A string that has as many digits as a number may have, of which none is its last, or the last
one is larger than it may be. -/
def Overlong (digits last : Nat) (s : Bytes) : Prop :=
  ∃ ds d rest, s = ds ++ d :: rest ∧ ds.length + 1 = digits ∧ Unended ds ∧
    (128 ≤ d.toNat ∨ last < d.toNat)

/-- A string that ends before a number does. -/
def CutShort (digits : Nat) (s : Bytes) : Prop := s.length < digits ∧ Unended s

/-- One digit more that goes on leaves the number without an end. -/
theorem Unended.cons {d : UInt8} {s : Bytes} (hd : 128 ≤ d.toNat) (hs : Unended s) :
    Unended (d :: s) :=
  List.forall_mem_cons.mpr ⟨hd, hs⟩

/-- As many digits as a number may have, of which none is its last. -/
theorem overlong_replicate {d : UInt8} (hd : 128 ≤ d.toNat) (last n : Nat) :
    Overlong (n + 1) last (List.replicate (n + 1) d) := by
  refine ⟨List.replicate n d, d, [], List.replicate_succ', ?_, ?_, .inl hd⟩
  · rw [List.length_replicate]
  · intro b hb
    rwa [List.eq_of_mem_replicate hb]

/-! ### How a number is read -/

section varint

variable {last : Nat}

/-- **A padded form is read**, whatever follows it. -/
theorem varint_padded {n k v : Nat} (hk : k ≤ n) (hv : v < 128 ^ (k + 1))
    (hsize : v < 128 ^ n * (last + 1)) (rest : Bytes) :
    varint last (n + 1) (padded k v ++ rest) = .ok (v, rest) := by
  induction k generalizing n v with
  | zero =>
    have hbyte : (UInt8.ofNat v).toNat = v := toNat_ofNat_of_lt (by omega)
    have hread : varint last (n + 1) (UInt8.ofNat v :: rest) = .ok ((UInt8.ofNat v).toNat, rest) :=
      varint_cons_of_lt (by omega) (by rintro rfl; omega) rest
    rwa [hbyte] at hread
  | succ k ih =>
    obtain ⟨n, rfl⟩ : ∃ m, n = m + 1 := ⟨n - 1, by omega⟩
    have hbyte : (UInt8.ofNat (v % 128 + 128)).toNat = v % 128 + 128 := toNat_ofNat_of_lt (by omega)
    have hhigh : v / 128 < 128 ^ (k + 1) := Nat.div_lt_of_lt_mul (hv.trans_eq Nat.pow_succ')
    have hhighSize : v / 128 < 128 ^ n * (last + 1) := by
      rw [Nat.pow_succ', Nat.mul_assoc] at hsize
      exact Nat.div_lt_of_lt_mul hsize
    rw [padded, List.cons_append, varint_cons_of_le (by omega), ih (by omega) hhigh hhighSize,
      hbyte]
    have hsum : (v % 128 + 128) % 128 + 128 * (v / 128) = v := by omega
    exact congrArg (fun w => Except.ok (w, rest)) hsum

/-- **A number that does not end within its digits is malformed.** -/
theorem varint_of_overlong {n : Nat} {s : Bytes} (h : Overlong (n + 1) last s) :
    varint last (n + 1) s = .error .badVarint := by
  obtain ⟨ds, d, rest, rfl, hlen, hunended, hd⟩ := h
  induction ds generalizing n with
  | nil =>
    obtain rfl : n = 0 := by simpa using hlen.symm
    rw [List.nil_append, varint]
    split_ifs with hsmall hfits
    · rfl
    · omega
    · rfl
  | cons b ds ih =>
    obtain ⟨n, rfl⟩ : ∃ m, n = m + 1 := ⟨ds.length, by simpa using hlen.symm⟩
    obtain ⟨hb, hds⟩ := List.forall_mem_cons.mp hunended
    rw [List.cons_append, varint_cons_of_le hb, ih (by simpa using hlen) hds]
    rfl

/-- **A number that is cut off is refused for ending too early.** -/
theorem varint_of_cutShort {n : Nat} {s : Bytes} (h : CutShort (n + 1) s) :
    varint last (n + 1) s = .error .unexpectedEnd := by
  obtain ⟨hlen, hunended⟩ := h
  induction s generalizing n with
  | nil => rfl
  | cons b s ih =>
    obtain ⟨n, rfl⟩ : ∃ m, n = m + 1 := ⟨n - 1, by simp only [List.length_cons] at hlen; omega⟩
    obtain ⟨hb, hs⟩ := List.forall_mem_cons.mp hunended
    rw [varint_cons_of_le hb, ih (by simpa using hlen) hs]
    rfl

end varint

/-! ### There is no other string -/

/-- One more digit below the digits of a number. -/
theorem NumberForm.cons {digits size v : Nat} {u : Bytes} (h : NumberForm digits size v u)
    {b : UInt8} (hb : 128 ≤ b.toNat) :
    NumberForm (digits + 1) (128 * size) (b.toNat % 128 + 128 * v) (b :: u) := by
  obtain ⟨hrange, n, hn, hv, rfl⟩ := h
  have hlt := b.toNat_lt
  have hlow : (b.toNat % 128 + 128 * v) % 128 + 128 = b.toNat := by omega
  have hhigh : (b.toNat % 128 + 128 * v) / 128 = v := by omega
  refine ⟨by omega, n + 1, by omega, ?_, ?_⟩
  · rw [Nat.pow_succ]
    omega
  · rw [padded, hlow, hhigh, UInt8.ofNat_toNat]

/-- A number of one digit. -/
theorem NumberForm.of_lt {digits size : Nat} {b : UInt8} (hb : b.toNat < 128)
    (hrange : b.toNat < size) : NumberForm (digits + 1) size b.toNat [b] := by
  refine ⟨hrange, 0, Nat.succ_pos _, hb, ?_⟩
  rw [padded, UInt8.ofNat_toNat]

/-- The answers that a reader of numbers can give, each with what the string is. -/
inductive Reading (last n : Nat) (s : Bytes) : Except WireError (Nat × Bytes) → Prop
  /-- It starts with a number. -/
  | number {v : Nat} {u rest : Bytes} (hform : NumberForm (n + 1) (128 ^ n * (last + 1)) v u)
      (hs : s = u ++ rest) : Reading last n s (.ok (v, rest))
  /-- The number does not end within its digits, or is too large. -/
  | overlong (h : Overlong (n + 1) last s) : Reading last n s (.error .badVarint)
  /-- It ends before the number does. -/
  | cutShort (h : CutShort (n + 1) s) : Reading last n s (.error .unexpectedEnd)

/-- **There is no other answer**, by induction on the digits that a number may have. -/
theorem reading (last n : Nat) (s : Bytes) : Reading last n s (varint last (n + 1) s) := by
  induction n generalizing s with
  | zero =>
    cases s with
    | nil => exact .cutShort ⟨Nat.succ_pos _, List.forall_mem_nil _⟩
    | cons b s =>
      by_cases hb : 128 ≤ b.toNat ∨ last < b.toNat
      · have hlong : Overlong 1 last (b :: s) := ⟨[], b, s, rfl, rfl, List.forall_mem_nil _, hb⟩
        rw [varint_of_overlong hlong]
        exact .overlong hlong
      · rw [varint_cons_of_lt (by omega) (by omega)]
        exact .number (.of_lt (by omega) (by omega)) rfl
  | succ n ih =>
    cases s with
    | nil => exact .cutShort ⟨Nat.succ_pos _, List.forall_mem_nil _⟩
    | cons b s =>
      by_cases hb : 128 ≤ b.toNat
      · rw [varint_cons_of_le hb]
        have hhigh := ih s
        generalize varint last (n + 1) s = answer at hhigh
        cases hhigh with
        | number hform hs =>
          have hmore := hform.cons hb
          rw [← Nat.mul_assoc, ← Nat.pow_succ'] at hmore
          exact .number hmore (congrArg (b :: ·) hs)
        | overlong h =>
          obtain ⟨ds, d, rest, rfl, hlen, hds, hd⟩ := h
          exact .overlong ⟨b :: ds, d, rest, rfl, congrArg (· + 1) hlen, hds.cons hb, hd⟩
        | cutShort h => exact .cutShort ⟨Nat.succ_lt_succ h.1, h.2.cons hb⟩
      · have hpow : 128 ≤ 128 ^ (n + 1) := Nat.le_self_pow (Nat.succ_ne_zero n) 128
        have hroom : 128 ≤ 128 ^ (n + 1) * (last + 1) :=
          hpow.trans (Nat.le_mul_of_pos_right _ (Nat.succ_pos last))
        rw [varint_cons_of_lt (by omega) (by omega)]
        exact .number (.of_lt (by omega) (by omega)) rfl

section answers

variable {last n v : Nat} {s rest : Bytes}

/-- A number is read exactly from its forms. -/
theorem varint_eq_ok : varint last (n + 1) s = .ok (v, rest) ↔
    ∃ u, NumberForm (n + 1) (128 ^ n * (last + 1)) v u ∧ s = u ++ rest := by
  constructor
  · intro h
    have hreading := reading last n s
    rw [h] at hreading
    cases hreading with
    | number hform hs => exact ⟨_, hform, hs⟩
  · rintro ⟨u, ⟨hrange, k, hk, hv, rfl⟩, rfl⟩
    exact varint_padded (Nat.le_of_lt_succ hk) hv hrange rest

/-- A number is malformed exactly if it does not end within its digits, or is too large. -/
theorem varint_eq_badVarint :
    varint last (n + 1) s = .error .badVarint ↔ Overlong (n + 1) last s := by
  constructor
  · intro h
    have hreading := reading last n s
    rw [h] at hreading
    cases hreading with
    | overlong hlong => exact hlong
  · exact varint_of_overlong

end answers

/-- A number of 32 bits is read from its forms of up to five bytes and from nothing else. -/
theorem nat32_eq_ok {s rest : Bytes} {v : Nat} :
    nat32.run s = .ok (v, rest) ↔ ∃ u, NumberForm 5 UInt32.size v u ∧ s = u ++ rest := by
  have hsize : UInt32.size = 128 ^ 4 * (15 + 1) := by decide
  rw [hsize]
  exact varint_eq_ok

/-- One of 64 bits is read from its forms of up to ten bytes. -/
theorem nat64_eq_ok {s rest : Bytes} {v : Nat} :
    nat64.run s = .ok (v, rest) ↔ ∃ u, NumberForm 10 UInt64.size v u ∧ s = u ++ rest := by
  have hsize : UInt64.size = 128 ^ 9 * (1 + 1) := by decide
  rw [hsize]
  exact varint_eq_ok

/-! ### The shortest form -/

/-- Padding to a length gives that length. -/
theorem length_padded (n v : Nat) : (padded n v).length = n + 1 := by
  induction n generalizing v with
  | zero => rfl
  | succ n ih => rw [padded, List.length_cons, ih]

/-- The form that is written has no more digits than any other form, and if it has as many, it is
this form. -/
theorem ofNat_shortest {n v : Nat} (hv : v < 128 ^ (n + 1)) :
    (ofNat v).length ≤ n + 1 ∧ ((ofNat v).length = n + 1 → padded n v = ofNat v) := by
  induction n generalizing v with
  | zero =>
    have hform : ofNat v = [UInt8.ofNat v] := by rw [ofNat, if_pos (by omega)]
    rw [hform]
    exact ⟨Nat.le_refl _, fun _ => rfl⟩
  | succ n ih =>
    by_cases hsmall : v < 128
    · rw [ofNat, if_pos hsmall]
      refine ⟨by simp, fun hlen => ?_⟩
      simp at hlen
    · have hhigh : v / 128 < 128 ^ (n + 1) := Nat.div_lt_of_lt_mul (hv.trans_eq Nat.pow_succ')
      obtain ⟨hle, heq⟩ := ih hhigh
      rw [ofNat, if_neg hsmall]
      refine ⟨Nat.succ_le_succ hle, fun hlen => ?_⟩
      rw [padded, heq (by simpa using hlen)]

/-- No form is shorter than what is written. -/
theorem NumberForm.length_ofNat_le {digits size v : Nat} {u : Bytes}
    (h : NumberForm digits size v u) : (ofNat v).length ≤ u.length := by
  obtain ⟨-, n, -, hv, rfl⟩ := h
  rw [length_padded]
  exact (ofNat_shortest hv).1

/-- A form as short as what is written is what is written. -/
theorem NumberForm.eq_ofNat {digits size v : Nat} {u : Bytes} (h : NumberForm digits size v u)
    (hlen : (ofNat v).length = u.length) : u = ofNat v := by
  obtain ⟨-, n, -, hv, rfl⟩ := h
  rw [length_padded] at hlen
  exact (ofNat_shortest hv).2 hlen

end BootImage.Wire
