import BootImage.Proofs.GuidText
import BootImage.Proofs.Utf8
import BootImage.Wire.Config
import Mathlib.Algebra.Group.Nat.Defs
import Mathlib.Data.List.Infix

/-!
# The wire form of a configuration reads back

A reader does not look past the value that it takes, and it can tell when a value has been cut off.
Both are said of one written form at a time (`Wire.Exact`): whatever follows the form is left alone,
and any string that ends within the form ends too early. Exact forms compose as readers do
(`Wire.Exact.bind`), so a form of several parts is exact if its parts are.

* `Wire.exact_varint` — a base-128 number, by induction on its digits.
* `Wire.exact_option`, `Wire.exact_guid`, `Wire.exact_oneOf` — the other ways in which values are
  written.
* `BootConfig.exact_encode` — a configuration.
* `BootConfig.encode_reads_back` — what this comes to. The last two parts of it hold of any exact
  forms: no form starts another one.
-/

namespace BootImage

namespace Wire

variable {α β : Type}

/-- A form of a value is exact for a reader: at the start of any string it is read as the value, and
a string that ends within it is refused for ending too early. -/
structure Exact (reader : Reader α) (form : Bytes) (a : α) : Prop where
  reads : ∀ rest, reader.run (form ++ rest) = .ok (a, rest)
  ends : ∀ s, s <+: form → s ≠ form → reader.run s = .error .unexpectedEnd

/-! ### Composition -/

/-- A value that takes no bytes is read from none. -/
theorem Exact.pure (a : α) : Exact (Pure.pure a : Reader α) [] a where
  reads _ := rfl
  ends := by
    intro s hs hne
    exact absurd (List.prefix_nil.mp hs) hne

/-- A string that starts two forms, one after the other, ends within the first or in the second. -/
theorem prefix_append_cases {s form form' : Bytes} (h : s <+: form ++ form') :
    (s <+: form ∧ s ≠ form) ∨ ∃ t, t <+: form' ∧ s = form ++ t := by
  obtain ⟨rest, hrest⟩ := h
  rcases List.append_eq_append_iff.mp hrest with ⟨t, rfl, hrest⟩ | ⟨t, rfl, rfl⟩
  · cases t with
    | nil => exact .inr ⟨[], List.nil_prefix, by simp⟩
    | cons b t => exact .inl ⟨List.prefix_append _ _, by simp⟩
  · exact .inr ⟨t, List.prefix_append _ _, rfl⟩

/-- **Composition.** If the forms of the parts are exact, so is one after the other. -/
theorem Exact.bind {x : Reader α} {f : α → Reader β} {form form' : Bytes} {a : α} {b : β}
    (hx : Exact x form a) (hf : Exact (f a) form' b) : Exact (x >>= f) (form ++ form') b where
  reads := by
    intro rest
    rw [List.append_assoc, StateT.run_bind, hx.reads]
    exact hf.reads rest
  ends := by
    intro s hs hne
    rw [StateT.run_bind]
    rcases prefix_append_cases hs with ⟨hwithin, hne'⟩ | ⟨t, ht, rfl⟩
    · rw [hx.ends s hwithin hne']
      rfl
    · rw [hx.reads]
      refine hf.ends t ht ?_
      rintro rfl
      exact hne rfl

/-- A value that is made of what was read has the same form. -/
theorem Exact.bindPure {x : Reader α} {f : α → Reader β} {form : Bytes} {a : α} {b : β}
    (hx : Exact x form a) (hf : f a = Pure.pure b) : Exact (x >>= f) form b := by
  have h : Exact (x >>= f) (form ++ []) b := hx.bind (hf ▸ Exact.pure b)
  rwa [List.append_nil] at h

/-- A form that starts with a byte is exact if the reader gives up where there is none, and goes on
with an exact form after it. -/
theorem Exact.cons {reader : Reader β} {x : Reader α} {f : α → β} {b : UInt8} {form : Bytes} {a : α}
    (hx : Exact x form a) (hnil : reader.run [] = .error .unexpectedEnd)
    (hcons : ∀ s, reader.run (b :: s) = (x.run s).map fun p => (f p.1, p.2)) :
    Exact reader (b :: form) (f a) where
  reads := by
    intro rest
    rw [List.cons_append, hcons, hx.reads]
    rfl
  ends := by
    intro s hs hne
    cases s with
    | nil => exact hnil
    | cons c s =>
      obtain ⟨rfl, hrest⟩ := List.cons_prefix_cons.mp hs
      rw [hcons, hx.ends s hrest fun heq => hne (by rw [heq])]
      rfl

/-! ### Bytes and numbers -/

/-- A byte is read back. -/
theorem exact_byte (b : UInt8) : Exact byte [b] b :=
  (Exact.pure b).cons (f := id) rfl fun _ => rfl

/-- So are bytes whose number is known. -/
theorem exact_bytes (s : Bytes) : Exact (bytes s.length) s s where
  reads := by
    intro rest
    have hlen : s.length ≤ (s ++ rest).length := by
      rw [List.length_append]
      exact Nat.le_add_right _ _
    show bytes s.length (s ++ rest) = _
    rw [bytes, if_pos hlen, List.take_left, List.drop_left]
  ends := by
    intro t ht hne
    have hlen : ¬ s.length ≤ t.length := fun hle => hne (ht.eq_of_length_le hle)
    exact if_neg hlen

/-- A digit without its high bit is the last one. -/
theorem varint_cons_of_lt {last n : Nat} {b : UInt8} (hb : b.toNat < 128)
    (hlast : n = 0 → b.toNat ≤ last) (s : Bytes) :
    varint last (n + 1) (b :: s) = .ok (b.toNat, s) := by
  rw [varint, if_pos hb, if_neg]
  rintro ⟨hn, hlt⟩
  have := hlast hn
  omega

/-- A digit with its high bit is followed by the high digits. -/
theorem varint_cons_of_le {last n : Nat} {b : UInt8} (hb : 128 ≤ b.toNat) (s : Bytes) :
    varint last (n + 1) (b :: s) =
      (varint last n s).map fun p => (b.toNat % 128 + 128 * p.1, p.2) := by
  rw [varint, if_neg (by omega)]
  rcases varint last n s with e | ⟨high, rest⟩ <;> rfl

/-- A number of one digit, which is its last one. -/
theorem exact_varint_of_lt {last n v : Nat} (hv : v < 128) (hlast : n = 0 → v ≤ last) :
    Exact (varint last (n + 1)) (ofNat v) v := by
  have hform : ofNat v = [UInt8.ofNat v] := by rw [ofNat, if_pos hv]
  have hdigit : (UInt8.ofNat v).toNat = v := toNat_ofNat_of_lt (by omega)
  rw [hform]
  refine (Exact.pure v).cons (f := id) rfl ?_
  intro s
  have hread : varint last (n + 1) (UInt8.ofNat v :: s) = .ok ((UInt8.ofNat v).toNat, s) :=
    varint_cons_of_lt (by rwa [hdigit]) (by rwa [hdigit]) s
  rw [hdigit] at hread
  exact hread

/-- **The shortest form of a number is exact**, by induction on the digits that it may have. With
`n + 1` digits a number is below 128 to the power `n` times one more than the largest last digit. -/
theorem exact_varint {last : Nat} (hlast : last < 128) (n : Nat) {v : Nat}
    (hv : v < 128 ^ n * (last + 1)) : Exact (varint last (n + 1)) (ofNat v) v := by
  induction n generalizing v with
  | zero => exact exact_varint_of_lt (by omega) (by omega)
  | succ n ih =>
    by_cases hsmall : v < 128
    · exact exact_varint_of_lt hsmall (by omega)
    have hhigh : v / 128 < 128 ^ n * (last + 1) := by
      rw [Nat.pow_succ', Nat.mul_assoc] at hv
      exact Nat.div_lt_of_lt_mul hv
    have hform : ofNat v = UInt8.ofNat (v % 128 + 128) :: ofNat (v / 128) := by
      rw [ofNat, if_neg hsmall]
    have hsum : (v % 128 + 128) % 128 + 128 * (v / 128) = v := by omega
    have hdigits : Exact (varint last (n + 1 + 1)) (UInt8.ofNat (v % 128 + 128) :: ofNat (v / 128))
        ((v % 128 + 128) % 128 + 128 * (v / 128)) := by
      have hdigit : (UInt8.ofNat (v % 128 + 128)).toNat = v % 128 + 128 :=
        toNat_ofNat_of_lt (by omega)
      apply (ih hhigh).cons (f := fun high => (v % 128 + 128) % 128 + 128 * high) rfl
      intro s
      show varint last (n + 1 + 1) (_ :: s) = (varint last (n + 1) s).map _
      rw [varint_cons_of_le (by omega), hdigit]
    rwa [hsum, ← hform] at hdigits

/-- So is a number of 32 bits. -/
theorem exact_nat32 {v : Nat} (hv : v < UInt32.size) : Exact nat32 (ofNat v) v :=
  exact_varint (by decide) 4 (hv.trans_eq (by decide))

/-- So is one of 64 bits. -/
theorem exact_nat64 {v : Nat} (hv : v < UInt64.size) : Exact nat64 (ofNat v) v :=
  exact_varint (by decide) 9 (hv.trans_eq (by decide))

/-! ### Marks, texts and alternatives -/

/-- So is a truth value. -/
theorem exact_bool (b : Bool) : Exact bool (ofBool b) b := by
  cases b with
  | false => exact (exact_byte 0).bindPure rfl
  | true => exact (exact_byte 1).bindPure rfl

/-- So is an optional value, if its value is. -/
theorem exact_option {reader : Reader α} {write : α → Bytes} (o : Option α)
    (hvalue : ∀ a, o = some a → Exact reader (write a) a) :
    Exact (option reader) (ofOption write o) o := by
  cases o with
  | none => exact (exact_byte 0).bindPure rfl
  | some a =>
    have hsome : Exact (reader >>= fun a => Pure.pure (some a)) (write a) (some a) :=
      (hvalue a rfl).bindPure rfl
    exact (exact_byte 1).bind (f := fun b => if b = 0 then Pure.pure none
      else if b = 1 then reader >>= fun a => Pure.pure (some a) else refuse .badOption) hsome

end Wire

/-- ASCII characters are well-formed UTF-8. -/
theorem Utf8.run_of_isAscii {s : Bytes} (h : IsAscii s) : ∃ cs, Utf8.run s = (cs, []) := by
  induction s with
  | nil => exact ⟨[], Utf8.run_of_none rfl⟩
  | cons a s ih =>
    obtain ⟨cs, hcs⟩ := ih fun b hb => h b (List.mem_cons_of_mem _ hb)
    have ha := h a List.mem_cons_self
    have hle : a ≤ 0x7F := by
      rw [UInt8.le_iff_toNat_le]
      exact Nat.le_of_lt_succ ha
    have hlead : Utf8.tails? a = some 0 := if_pos hle
    have hfirst : Utf8.first? (a :: s) = some (Char.ofNat a.toNat, s) := by
      simp only [Utf8.first?, hlead]
    exact ⟨Char.ofNat a.toNat :: cs, by rw [Utf8.run_of_first? hfirst, hcs]⟩

namespace Wire

variable {α : Type}

/-- So is an ASCII text. -/
theorem exact_text {s : Bytes} (hascii : IsAscii s) (hlen : s.length < UInt64.size) :
    Exact text (ofText s) s := by
  obtain ⟨cs, hcs⟩ := Utf8.run_of_isAscii hascii
  have hdecode : Utf8.decode? s = some cs := by rw [Utf8.decode?, hcs]
  refine (exact_nat64 hlen).bind ((exact_bytes s).bindPure ?_)
  rw [hdecode]

/-- So is a GUID. -/
theorem exact_guid (g : Guid) : Exact guid (ofGuid g) g := by
  have hlen : g.text.length < UInt64.size := by
    rw [g.length_text]
    decide
  exact (exact_text g.isAscii_text hlen).bindPure (by rw [g.ofText?_text])

/-- So is an alternative, by its index. -/
theorem exact_oneOf {alternatives : List α} {i : Nat} {a : α} (h : alternatives[i]? = some a)
    (hi : i < UInt32.size) : Exact (oneOf alternatives) (ofNat i) a :=
  (exact_nat32 hi).bindPure (by rw [h])

end Wire

open Wire

/-! ### Configurations -/

/-- A boot flow is read back. -/
theorem BootFlow.exact_encode (f : BootFlow) : Exact BootFlow.reader f.encode f := by
  cases f with
  | restartCores => exact exact_oneOf rfl (by decide)
  | custom => exact exact_oneOf rfl (by decide)

/-- So are the settings of a SPI flash. -/
theorem SpiFlashConfig.exact_encode (c : SpiFlashConfig) :
    Exact SpiFlashConfig.reader c.encode c := by
  refine (exact_nat64 c.offset.toNat_lt).bindPure ?_
  rw [UInt64.ofNat_toNat]

/-- So are those of a card. -/
theorem MmcConfig.exact_encode (c : MmcConfig) : Exact MmcConfig.reader c.encode c :=
  (exact_bool c.useTable).bind ((exact_guid c.partitionType).bindPure rfl)

/-- So are those of QSPI flash. -/
theorem QspiConfig.exact_encode (c : QspiConfig) : Exact QspiConfig.reader c.encode c :=
  (exact_bool c.inPlace).bindPure rfl

namespace BootConfig

/-- **The form of a configuration is exact.** -/
theorem exact_encode (c : BootConfig) : Exact BootConfig.reader c.encode c := by
  have hspiFlash := exact_option c.spiFlash fun s _ => s.exact_encode
  have hmmc := exact_option c.mmc fun s _ => s.exact_encode
  have hqspi := exact_option c.qspi fun s _ => s.exact_encode
  have hpayload := exact_bool c.payload
  have hflow := c.bootFlow.exact_encode
  exact hspiFlash.bind (hmmc.bind (hqspi.bind (hpayload.bind (hflow.bindPure rfl))))

/-- A configuration whose form starts that of another one is the other one. -/
theorem eq_of_encode_starts {c c' : BootConfig} (h : c'.encode <+: c.encode) : c' = c := by
  obtain ⟨rest, hrest⟩ := h
  have hread := c'.exact_encode.reads rest
  have hread' := c.exact_encode.reads []
  rw [List.append_nil, ← hrest, hread] at hread'
  cases hread'
  rfl

/-- **The wire form of a configuration reads back.** Followed by any bytes, it is read as the
configuration, and these bytes are left. A string that ends within it is refused for ending too
early, so it is never taken for a configuration. Different configurations have different forms, and
no configuration's form is the beginning of another's. -/
theorem encode_reads_back (c : BootConfig) :
    (∀ rest, decode (c.encode ++ rest) = .ok (c, rest)) ∧
      (∀ s, s <+: c.encode → s ≠ c.encode → decode s = .error .unexpectedEnd) ∧
      Function.Injective encode ∧ ∀ c' : BootConfig, c' ≠ c → ¬ c'.encode <+: c.encode := by
  refine ⟨c.exact_encode.reads, c.exact_encode.ends, ?_, ?_⟩
  · intro a b hab
    apply eq_of_encode_starts
    rw [hab]
  · intro c' hne hprefix
    exact hne (eq_of_encode_starts hprefix)

/-- A board that boots from a card with a partition table. -/
def cardOnly : BootConfig := { default with mmc := some .default, bootFlow := .custom }

/-- The form of this board's configuration, cut off in the middle of its identifier. -/
def cardOnlyCut : Bytes := [0, 1, 1, 36] ++ bootPartitionType.text.take 20

/-- It is not read as a configuration, and the whole form is. -/
theorem decode_cardOnlyCut :
    cardOnlyCut <+: cardOnly.encode ∧ cardOnlyCut ≠ cardOnly.encode ∧
      decode cardOnlyCut = .error .unexpectedEnd ∧
      decode (cardOnly.encode ++ [0xFF]) = .ok (cardOnly, [0xFF]) ∧
      ¬ default.encode <+: cardOnly.encode := by
  have hrest : cardOnlyCut ++ (bootPartitionType.text.drop 20 ++ [0, 0, 1]) = cardOnly.encode := by
    decide +kernel
  have hcut : cardOnlyCut <+: cardOnly.encode := ⟨_, hrest⟩
  have hne : cardOnlyCut ≠ cardOnly.encode := by decide +kernel
  have hdifferent : default ≠ cardOnly := by decide
  obtain ⟨hreads, hends, -, hprefix⟩ := encode_reads_back cardOnly
  exact ⟨hcut, hne, hends _ hcut hne, hreads [0xFF], hprefix default hdifferent⟩

end BootConfig

end BootImage
