import BootImage.Proofs.Takes

/-!
# Reading and writing a configuration again

Several byte strings are read as the same configuration: each number may have zero digits that it
does not need, and the letters of the identifier may be in either case. `BootConfig.WireForm` says
which they are, part by part, and they are exactly the strings that are read (`takes_reader`). To
read a configuration and write it again therefore keeps its value and gives the shortest of its
forms, and a form as short as this one is the same but for the case of letters.

* `BootConfig.takes_reader` — the forms of a configuration, and the three places of its numbers.
* `BootConfig.WireForm.shortest` — the form that is written against any other.
* `BootConfig.decode_normalizes` — what this comes to.
-/

namespace BootImage

open Wire

/-! ### The forms of a configuration -/

def SpiFlashConfig.WireForm (c : SpiFlashConfig) (u : Bytes) : Prop :=
  NumberForm 10 UInt64.size c.offset.toNat u

def MmcConfig.WireForm (c : MmcConfig) (u : Bytes) : Prop :=
  ∃ guid, GuidForm c.partitionType guid ∧ u = ofBool c.useTable ++ guid

def QspiConfig.WireForm (c : QspiConfig) (u : Bytes) : Prop := u = ofBool c.inPlace

def BootFlow.WireForm (f : BootFlow) (u : Bytes) : Prop := NumberForm 5 UInt32.size f.index u

/-- **The forms of a configuration.** The forms of its fields follow one another; each number among
them may have zero digits that it does not need, and the letters of the identifier may be in either
case. -/
def BootConfig.WireForm (c : BootConfig) (u : Bytes) : Prop :=
  ∃ spiFlash mmc qspi flow,
    OptionForm SpiFlashConfig.WireForm c.spiFlash spiFlash ∧
    OptionForm MmcConfig.WireForm c.mmc mmc ∧
      OptionForm QspiConfig.WireForm c.qspi qspi ∧ c.bootFlow.WireForm flow ∧
      u = spiFlash ++ (mmc ++ (qspi ++ (ofBool c.payload ++ flow)))

/-- **The strings in which a configuration has a malformed number**, at one of the three places
where it has a number: the offset of the image in the SPI flash, the length of the identifier's
text, and the index of the boot flow. What comes before it is in order. -/
inductive BootConfig.Malformed : Bytes → Prop
  | offset {s : Bytes} (h : Overlong 10 1 s) : Malformed (1 :: s)
  | textLength {c : Option SpiFlashConfig} {spiFlash s : Bytes} (useTable : Bool)
      (hspiFlash : OptionForm SpiFlashConfig.WireForm c spiFlash) (h : Overlong 10 1 s) :
      Malformed (spiFlash ++ 1 :: (ofBool useTable ++ s))
  | bootFlow {c : Option SpiFlashConfig} {c' : Option MmcConfig} {c'' : Option QspiConfig}
      {spiFlash mmc qspi s : Bytes} (payload : Bool)
      (hspiFlash : OptionForm SpiFlashConfig.WireForm c spiFlash)
      (hmmc : OptionForm MmcConfig.WireForm c' mmc)
      (hqspi : OptionForm QspiConfig.WireForm c'' qspi)
      (h : Overlong 5 15 s) :
      Malformed (spiFlash ++ (mmc ++ (qspi ++ (ofBool payload ++ s))))

/-- The reader of SPI flash settings takes their forms, and refuses overlong numbers. -/
theorem SpiFlashConfig.takes_reader :
    Takes SpiFlashConfig.reader SpiFlashConfig.WireForm (Overlong 10 1) := by
  have hread := takes_nat64.make fun n => SpiFlashConfig.mk (UInt64.ofNat n)
  refine hread.congr (fun c u => ⟨?_, ?_⟩) fun s => Iff.rfl
  · rintro ⟨n, rfl, hform⟩
    rwa [SpiFlashConfig.WireForm, UInt64.toNat_ofNat_of_lt' hform.inRange]
  · intro hform
    exact ⟨c.offset.toNat, by rw [UInt64.ofNat_toNat], hform⟩

/-- That of card settings refuses an overlong length of the partition type's text. -/
theorem MmcConfig.takes_reader : Takes MmcConfig.reader MmcConfig.WireForm
    (fun s => ∃ useTable t, Overlong 10 1 t ∧ s = ofBool useTable ++ t) := by
  have hread := takes_bool.bind fun useTable => takes_guid.make (MmcConfig.mk useTable)
  refine hread.congr (fun c u => ⟨?_, ?_⟩) (fun s => ⟨?_, ?_⟩)
  · rintro ⟨useTable, _, guid, rfl, ⟨g, rfl, hform⟩, rfl⟩
    exact ⟨guid, hform, rfl⟩
  · rintro ⟨guid, hform, rfl⟩
    exact ⟨c.useTable, _, guid, rfl, ⟨c.partitionType, rfl, hform⟩, rfl⟩
  · rintro (h | ⟨useTable, _, t, rfl, h, rfl⟩)
    · exact h.elim
    · exact ⟨useTable, t, h, rfl⟩
  · rintro ⟨useTable, t, h, rfl⟩
    exact .inr ⟨useTable, _, t, rfl, h, rfl⟩

/-- That of QSPI settings reads no number that could be overlong. -/
theorem QspiConfig.takes_reader :
    Takes QspiConfig.reader QspiConfig.WireForm (fun _ => False) := by
  refine (takes_bool.make QspiConfig.mk).congr (fun c u => ⟨?_, ?_⟩) fun s => Iff.rfl
  · rintro ⟨b, rfl, hform⟩
    exact hform
  · exact fun hform => ⟨c.inPlace, rfl, hform⟩

/-- A flow is found at its index only. -/
theorem BootFlow.all_eq_some {i : Nat} {f : BootFlow} : all[i]? = some f ↔ i = f.index := by
  match i with
  | 0 => cases f <;> decide
  | 1 => cases f <;> decide
  | i + 2 => cases f <;> simp [all, index]

/-- The reader of a flow takes its index in any form, and refuses overlong ones. -/
theorem BootFlow.takes_reader : Takes BootFlow.reader BootFlow.WireForm (Overlong 5 15) := by
  refine (takes_oneOf BootFlow.all).congr (fun f u => ⟨?_, ?_⟩) fun s => Iff.rfl
  · rintro ⟨i, hi, hform⟩
    rwa [BootFlow.all_eq_some.mp hi] at hform
  · exact fun hform => ⟨f.index, BootFlow.all_eq_some.mpr rfl, hform⟩

namespace BootConfig

/-- **A configuration is read exactly from its forms**, and a number in it is malformed exactly at
one of its three places. -/
theorem takes_reader : Takes BootConfig.reader BootConfig.WireForm BootConfig.Malformed := by
  have hparts := (takes_option SpiFlashConfig.takes_reader).bind fun spiFlash =>
    (takes_option MmcConfig.takes_reader).bind fun mmc =>
      (takes_option QspiConfig.takes_reader).bind fun qspi =>
        takes_bool.bind fun payload => BootFlow.takes_reader.make (mk spiFlash mmc qspi payload)
  refine hparts.congr (fun c u => ⟨?_, ?_⟩) (fun s => ⟨?_, ?_⟩)
  · rintro ⟨_, spiFlash, _, hspiFlash, ⟨_, mmc, _, hmmc, ⟨_, qspi, _, hqspi, ⟨_, _, flow, rfl,
      ⟨_, rfl, hflow⟩, rfl⟩, rfl⟩, rfl⟩, rfl⟩
    exact ⟨spiFlash, mmc, qspi, flow, hspiFlash, hmmc, hqspi, hflow, rfl⟩
  · rintro ⟨spiFlash, mmc, qspi, flow, hspiFlash, hmmc, hqspi, hflow, rfl⟩
    exact ⟨_, spiFlash, _, hspiFlash, ⟨_, mmc, _, hmmc, ⟨_, qspi, _, hqspi, ⟨_, _, flow, rfl,
      ⟨_, rfl, hflow⟩, rfl⟩, rfl⟩, rfl⟩, rfl⟩
  · rintro (⟨t, h, rfl⟩ | ⟨_, spiFlash, _, hspiFlash, ⟨t, ⟨useTable, t', h, rfl⟩, rfl⟩ |
      ⟨_, mmc, _, hmmc, ⟨_, h, _⟩ | ⟨_, qspi, _, hqspi, h | ⟨payload, _, t, rfl, h, rfl⟩, rfl⟩, rfl⟩,
      rfl⟩)
    · exact .offset h
    · exact .textLength useTable hspiFlash h
    · exact h.elim
    · exact h.elim
    · exact .bootFlow payload hspiFlash hmmc hqspi h
  · intro h
    cases h with
    | offset h => exact .inl ⟨_, h, rfl⟩
    | textLength useTable hspiFlash h =>
      exact .inr ⟨_, _, _, hspiFlash, .inl ⟨_, ⟨useTable, _, h, rfl⟩, rfl⟩, rfl⟩
    | bootFlow payload hspiFlash hmmc hqspi h =>
      exact .inr ⟨_, _, _, hspiFlash, .inr ⟨_, _, _, hmmc, .inr ⟨_, _, _, hqspi,
        .inr ⟨payload, _, _, rfl, h, rfl⟩, rfl⟩, rfl⟩, rfl⟩

end BootConfig

/-! ### The shortest form -/

/-- No form of SPI flash settings is shorter than what is written. -/
theorem SpiFlashConfig.shortest :
    Shortest SpiFlashConfig.WireForm SpiFlashConfig.encode (fun c u => u = c.encode) :=
  fun _ _ hform => ⟨hform.length_ofNat_le, hform.eq_ofNat⟩

/-- Nor is one of QSPI settings. -/
theorem QspiConfig.shortest :
    Shortest QspiConfig.WireForm QspiConfig.encode (fun c u => u = c.encode) :=
  fun _ _ hform => ⟨Nat.le_of_eq (congrArg List.length hform.symm), fun _ => hform⟩

/-- The written form of the use of the card, with the identifier's letters in either case. -/
def MmcConfig.SameButCase (c : MmcConfig) (u : Bytes) : Prop :=
  ∃ text, text.map toLower = c.partitionType.text ∧ u = ofBool c.useTable ++ (ofNat 36 ++ text)

/-- What is written of a card is a byte, the length of the text and the text. -/
theorem MmcConfig.encode_eq (c : MmcConfig) :
    c.encode = ofBool c.useTable ++ (ofNat 36 ++ c.partitionType.text) := by
  rw [MmcConfig.encode, ofGuid, ofText, c.partitionType.length_text]

/-- No form of card settings is shorter, and those as short differ in case at most. -/
theorem MmcConfig.shortest :
    Shortest MmcConfig.WireForm MmcConfig.encode MmcConfig.SameButCase := by
  rintro c _ ⟨_, ⟨length, text, hlength, htext, rfl⟩, rfl⟩
  have hle := hlength.length_ofNat_le
  have hsame : text.length = c.partitionType.text.length :=
    (length_of_toLower htext).trans c.partitionType.length_text.symm
  simp only [c.encode_eq, List.length_append, hsame]
  refine ⟨by omega, fun hlen => ⟨text, htext, ?_⟩⟩
  rw [hlength.eq_ofNat (by omega)]

namespace BootConfig

/-- The text of the identifier in a configuration, if it has one. -/
def identifierText (c : BootConfig) : Bytes := c.mmc.elim [] fun m => m.partitionType.text

/-- The written form of a configuration, with the identifier's letters in either case. -/
def SameButCase (c : BootConfig) (u : Bytes) : Prop :=
  ∃ before text after, c.encode = before ++ (c.identifierText ++ after) ∧
    u = before ++ (text ++ after) ∧ text.map toLower = c.identifierText

/-- **The form that is written is the shortest**, and another one of its length is the same but for
the case of letters in the identifier. -/
theorem WireForm.shortest {c : BootConfig} {u : Bytes} (h : c.WireForm u) :
    c.encode.length ≤ u.length ∧ (c.encode.length = u.length → c.SameButCase u) := by
  obtain ⟨spiFlash, mmc, qspi, flow, hspiFlash, hmmc, hqspi, hflow, rfl⟩ := h
  obtain ⟨hspiFlashLe, hspiFlash⟩ := OptionForm.shortest SpiFlashConfig.shortest _ _ hspiFlash
  obtain ⟨hmmcLe, hmmc⟩ := OptionForm.shortest MmcConfig.shortest _ _ hmmc
  obtain ⟨hqspiLe, hqspi⟩ := OptionForm.shortest QspiConfig.shortest _ _ hqspi
  have hflowLe : c.bootFlow.encode.length ≤ flow.length := hflow.length_ofNat_le
  simp only [encode, List.length_append]
  refine ⟨by omega, fun hlen => ?_⟩
  -- no part is shorter than it is written, so all are as long
  have hspiFlash := (hspiFlash (by omega)).eq_ofOption
  have hqspi := (hqspi (by omega)).eq_ofOption
  have hflow : flow = c.bootFlow.encode :=
    hflow.eq_ofNat (show c.bootFlow.encode.length = _ by omega)
  have hmmc := hmmc (by omega)
  rw [SameButCase, identifierText, encode, hspiFlash, hqspi, hflow]
  generalize c.mmc = card at hmmc
  cases hmmc with
  | none => exact ⟨_, [], [], (List.append_nil _).symm, (List.append_nil _).symm, rfl⟩
  | @some m u h =>
    obtain ⟨text, htext, rfl⟩ := h
    refine ⟨ofOption SpiFlashConfig.encode c.spiFlash ++ (1 :: (ofBool m.useTable ++ ofNat 36)), text,
      ofOption QspiConfig.encode c.qspi ++ (ofBool c.payload ++ c.bootFlow.encode), ?_, ?_, htext⟩
    · simp only [ofOption, m.encode_eq, Option.elim_some, List.append_assoc, List.cons_append]
    · simp only [List.append_assoc, List.cons_append]

/-! ### What is read and written again -/

/-- **Reading and writing again keeps a configuration and shortens its form.** If a string is read
as a configuration, then what was read of it is one of the configuration's forms. The form that is
written is not longer than this one; in its place, it is read as the same configuration, and the
same bytes are left; and if it is as long, the two are the same but for the case of letters in the
identifier. Every form is read, whatever zero digits its numbers have that they do not need. A
number is malformed exactly if, at one of the three places of a number, there are as many digits as
it may have, and it does not end with them or ends too large. -/
theorem decode_normalizes (s : Bytes) :
    (∀ c rest, decode s = .ok (c, rest) →
      ∃ u, s = u ++ rest ∧ c.WireForm u ∧ c.encode.length ≤ u.length ∧
        decode (c.encode ++ rest) = .ok (c, rest) ∧
        (c.encode.length = u.length → c.SameButCase u)) ∧
      (∀ c u rest, c.WireForm u → s = u ++ rest → decode s = .ok (c, rest)) ∧
      (decode s = .error .badVarint ↔ Malformed s) := by
  refine ⟨fun c rest h => ?_, fun c u rest hform hs => ?_, takes_reader.badVarint_iff s⟩
  · obtain ⟨u, hform, hs⟩ := (takes_reader.ok_iff s c rest).mp h
    obtain ⟨hle, hsame⟩ := hform.shortest
    exact ⟨u, hs, hform, hle, c.exact_encode.reads rest, hsame⟩
  · exact (takes_reader.ok_iff s c rest).mpr ⟨u, hform, hs⟩

/-- A board with an image in its SPI flash and one on its card. -/
def flashAndCard : BootConfig := { cardOnly with spiFlash := some ⟨5⟩ }

/-- The text of the identifier with a capital letter in it. -/
def capitalText : Bytes := bootPartitionType.text.set 15 0x45

/-- The configuration of this board with this text, and its numbers in the given forms. -/
def flashAndCardForm (offset length flow : Bytes) : Bytes :=
  1 :: offset ++ (1 :: 1 :: (length ++ capitalText) ++ ([0] ++ ([0] ++ flow)))

/-- The three numbers in the form may be padded. -/
theorem wireForm_flashAndCard {offset length flow : Bytes}
    (hoffset : NumberForm 10 UInt64.size 5 offset) (hlength : NumberForm 10 UInt64.size 36 length)
    (hflow : NumberForm 5 UInt32.size 1 flow) :
    flashAndCard.WireForm (flashAndCardForm offset length flow) := by
  have htext : capitalText.map toLower = bootPartitionType.text := by decide +kernel
  have hcard : MmcConfig.default.WireForm (1 :: (length ++ capitalText)) :=
    ⟨_, ⟨_, _, hlength, htext, rfl⟩, rfl⟩
  exact ⟨_, _, _, _, .some hoffset, .some hcard, .none, hflow, rfl⟩

/-- A form with seven zero digits that are not needed. -/
def flashAndCardPadded : Bytes :=
  flashAndCardForm [0x85, 0x80, 0] [0xA4, 0] [0x81, 0x80, 0x80, 0x80, 0]

/-- A form without any. -/
def flashAndCardCapital : Bytes := flashAndCardForm [5] [36] [1]

/-- The first one is read, and written with seven bytes less; the second one differs from what is
written in the capital letter only; and an offset of ten digits without a last one is malformed. -/
theorem decode_flashAndCardForm :
    (decode (flashAndCardPadded ++ [0xFF]) = .ok (flashAndCard, [0xFF]) ∧
        flashAndCard.encode.length + 7 = flashAndCardPadded.length ∧
        decode (flashAndCard.encode ++ [0xFF]) = .ok (flashAndCard, [0xFF])) ∧
      (flashAndCard.SameButCase flashAndCardCapital ∧ flashAndCardCapital ≠ flashAndCard.encode) ∧
      decode (1 :: List.replicate 10 0x80) = .error .badVarint := by
  refine ⟨?_, ⟨?_, by decide +kernel⟩, ?_⟩
  · have hform : flashAndCard.WireForm flashAndCardPadded :=
      wireForm_flashAndCard ⟨by decide, 2, by decide, by decide, rfl⟩
        ⟨by decide, 1, by decide, by decide, rfl⟩ ⟨by decide, 4, by decide, by decide, rfl⟩
    obtain ⟨hnormal, hforms, -⟩ := decode_normalizes (flashAndCardPadded ++ [0xFF])
    have hread := hforms flashAndCard _ [0xFF] hform rfl
    obtain ⟨-, -, -, -, hagain, -⟩ := hnormal _ _ hread
    exact ⟨hread, by decide +kernel, hagain⟩
  · have hform : flashAndCard.WireForm flashAndCardCapital :=
      wireForm_flashAndCard ⟨by decide, 0, by decide, by decide, rfl⟩
        ⟨by decide, 0, by decide, by decide, rfl⟩ ⟨by decide, 0, by decide, by decide, rfl⟩
    obtain ⟨hnormal, hforms, -⟩ := decode_normalizes flashAndCardCapital
    obtain ⟨u, hu, -, -, -, hsame⟩ := hnormal _ _
      (hforms flashAndCard _ [] hform (List.append_nil _).symm)
    rw [List.append_nil] at hu
    exact hu ▸ hsame (by rw [← hu]; decide +kernel)
  · obtain ⟨-, -, hmalformed⟩ := decode_normalizes (1 :: List.replicate 10 0x80)
    exact hmalformed.mpr (.offset (overlong_replicate (by decide) 1 9))

end BootConfig

end BootImage
