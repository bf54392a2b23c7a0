import BootImage.Proofs.Utf8
import Mathlib.Data.List.TakeWhile

/-!
# The name of an image set

A field of 256 bytes holds a name that ends at the first zero byte, or with the field. Of the
strings that the field begins with, those without a zero byte that are well-formed UTF-8 may stand
for the name (`Header.MayName`), and the set name is the longest of them (`Header.Names`). There is
only one such string, so whatever does not change the candidates does not change the name.

* `Header.names_setNameBytes` — the bytes of the set name are the longest candidate.
* `Header.Names.eq_of_settled` — what comes after the first zero byte, or after bytes that nothing
  makes well formed, is never looked at.
* `Header.setName_longest` — both, said of the text.
-/

namespace BootImage

namespace Header

/-- A string may stand for the name in a field: the field begins with it, it has no zero byte, and
it is well-formed UTF-8. -/
structure MayName (field name : Bytes) : Prop where
  starts : name <+: field
  unended : 0 ∉ name
  wellFormed : Utf8.WellFormed name

/-- The longest string that may stand for the name in a field. -/
structure Names (field name : Bytes) : Prop extends MayName field name where
  longest : ∀ other, MayName field other → other <+: name

/-- Bytes after which a name does not go on: one of them is zero, or there is no well-formed string
that they are the beginning of. -/
def Settled (bs : Bytes) : Prop := 0 ∈ bs ∨ ∀ rest, ¬ Utf8.WellFormed (bs ++ rest)

/-! ### The longest candidate -/

/-- A beginning without zero bytes ends no later than the first zero byte. -/
theorem prefix_takeWhile {bs s : Bytes} (hstarts : bs <+: s) (hzero : 0 ∉ bs) :
    bs <+: s.takeWhile (· ≠ 0) := by
  obtain ⟨rest, rfl⟩ := hstarts
  have hall : ∀ b ∈ bs, decide (b ≠ 0) = true := by
    intro b hb
    exact decide_eq_true fun heq => hzero (heq ▸ hb)
  rw [List.takeWhile_append_of_pos hall]
  exact List.prefix_append _ _

/-- **The bytes of the set name are the longest string that may stand for the name.** -/
theorem names_setNameBytes (h : Header) : Names h.name h.setNameBytes where
  starts := h.setNameBytes_prefix.trans (List.takeWhile_prefix _)
  unended := by
    intro hmem
    have hzero := List.mem_takeWhile_imp (h.setNameBytes_prefix.subset hmem)
    exact absurd rfl (of_decide_eq_true hzero)
  wellFormed := ⟨h.setNameChars, rfl⟩
  longest := by
    intro other hother
    exact Utf8.prefix_of_wellFormed hother.wellFormed
      (prefix_takeWhile hother.starts hother.unended)

/-- A field has one name. -/
theorem Names.unique {field name name' : Bytes} (h : Names field name) (h' : Names field name') :
    name = name' :=
  (h'.longest name h.toMayName).eq_of_length_le (h.longest name' h'.toMayName).length_le

/-! ### What is never looked at -/

/-- A candidate ends within bytes after which no name goes on, so it is a candidate whatever comes
after them. -/
theorem MayName.of_settled {bs rest name : Bytes} (h : MayName (bs ++ rest) name)
    (hsettled : Settled bs) (rest' : Bytes) : MayName (bs ++ rest') name := by
  refine ⟨?_, h.unended, h.wellFormed⟩
  rcases List.prefix_or_prefix_of_prefix h.starts (List.prefix_append bs rest) with
    hwithin | hbeyond
  · exact hwithin.trans (List.prefix_append bs rest')
  · obtain ⟨more, rfl⟩ := hbeyond
    rcases hsettled with hzero | hbroken
    · exact absurd (List.mem_append_left more hzero) h.unended
    · exact absurd h.wellFormed (hbroken more)

/-- **What comes after such bytes does not change the name.** -/
theorem Names.eq_of_settled {bs rest rest' name name' : Bytes} (h : Names (bs ++ rest) name)
    (h' : Names (bs ++ rest') name') (hsettled : Settled bs) : name = name' := by
  apply h.unique
  refine ⟨h'.toMayName.of_settled hsettled rest, ?_⟩
  intro other hother
  exact h'.longest other (hother.of_settled hsettled rest')

/-! ### The text -/

/-- The text of the set name has the set name's bytes. -/
theorem toUTF8_setName (h : Header) : h.setName.toUTF8 = h.setNameBytes.toByteArray := by
  rw [String.toUTF8_eq_toByteArray, setName, String.toByteArray_ofList]
  rfl

/-- **The set name is the longest well-formed beginning of the field before its first zero byte.**
The bytes of its text are those of the longest string that the field begins with, that has no zero
byte, and that is well-formed UTF-8. Two fields that agree up to a zero byte, or up to bytes that
nothing makes well formed, have the same set name. -/
theorem setName_longest (h : Header) :
    (∃ name, h.setName.toUTF8 = name.toByteArray ∧ Names h.name name) ∧
      ∀ (h' : Header) (bs rest rest' : Bytes), h.name = bs ++ rest → h'.name = bs ++ rest' →
        Settled bs → h'.setName = h.setName := by
  refine ⟨⟨_, h.toUTF8_setName, h.names_setNameBytes⟩, ?_⟩
  intro h' bs rest rest' hfield hfield' hsettled
  have hnames := h.names_setNameBytes
  have hnames' := h'.names_setNameBytes
  rw [hfield] at hnames
  rw [hfield'] at hnames'
  have hbytes : h'.setName.toUTF8 = h.setName.toUTF8 := by
    rw [toUTF8_setName, toUTF8_setName, hnames.eq_of_settled hnames' hsettled]
  rwa [String.toUTF8_eq_toByteArray, String.toUTF8_eq_toByteArray, String.toByteArray_inj]
    at hbytes

/-- A header whose name has a byte that is in no character, and then some more bytes. -/
def damaged (rest : Bytes) : Header :=
  { zero with name := fit 256 ([0x6F, 0x6B, 0xFF] ++ rest), length_name := length_fit _ _ }

/-- The bytes after it do not show in the name. -/
theorem setName_damaged :
    Settled [0x6F, 0x6B, 0xFF] ∧ (damaged [0x21]).setName = (damaged [0x3F, 0xC3]).setName := by
  have hsettled : Settled [0x6F, 0x6B, 0xFF] := by
    refine .inr fun rest => ?_
    have hletters : Utf8.WellFormed [0x6F, 0x6B] := ⟨['o', 'k'], by decide⟩
    exact Utf8.not_wellFormed_append hletters (s := 0xFF :: rest) rfl (List.cons_ne_nil _ _)
  refine ⟨hsettled, ?_⟩
  exact (damaged [0x3F, 0xC3]).setName_longest.2 (damaged [0x21]) [0x6F, 0x6B, 0xFF] _ _ rfl rfl
    hsettled

end Header

end BootImage
