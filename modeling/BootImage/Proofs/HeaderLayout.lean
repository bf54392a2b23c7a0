import BootImage.Proofs.Corruption

/-!
# The layout of a header, and the convention of its checksum

The bytes of a header and its fields are two views of one thing: a header is read from any string
that has room for one, its bytes are the string's, and its words are the numbers that the bytes at
their places stand for. The checksum is a word at a place of these bytes and covers all of them,
with zeros for itself. So it can be computed whatever the word is, and a header that is stamped with
it passes its check.

* `Header.read_eq_ok`, `Header.bytes_of_read`, `Header.read_bytes_append` — reading and writing.
* `Header.run_checkTwice` — the check, and the check again.
* `Header.holds_stamped`, `valid_builtImage` — headers and images that are built by the convention.
* `Header.layout_and_checksum` — all of this.
-/

namespace BootImage

open Attempt

namespace Header

/-! ### Reading -/

/-- A header is read exactly if there is room for one. -/
theorem read_eq_ok {image : Bytes} {h : Header} :
    read image = .ok h ↔ size ≤ image.length ∧ h = ofBytes image := by
  unfold read
  split_ifs with hlen
  · rw [Except.ok.injEq, eq_comm]
    exact ⟨fun h => ⟨hlen, h⟩, And.right⟩
  · exact ⟨fun h => (nomatch h), fun h => absurd h.1 hlen⟩

/-- Its bytes are those of the image. -/
theorem bytes_of_read {image : Bytes} {h : Header} (hread : read image = .ok h) :
    h.bytes = image.take size := by
  obtain ⟨hlen, rfl⟩ := read_eq_ok.mp hread
  rw [bytes_ofBytes, fit_of_le hlen]

/-- Every header is read from its bytes, whatever follows them. -/
theorem read_bytes_append (h : Header) (rest : Bytes) : read (h.bytes ++ rest) = .ok h := by
  have hstarts : h.bytes <+: h.bytes ++ rest := List.prefix_append _ _
  exact read_eq_ok.mpr ⟨h.length_bytes ▸ hstarts.length_le, (ofBytes_of_starts hstarts).symm⟩

/-! ### The check -/

/-- The check, and then the check again. -/
def checkTwice (crc : Checksum) : Attempt Header (Bool × Bool) := do
  let first ← checkChecksum crc
  let second ← checkChecksum crc
  return (first, second)

instance (crc : Checksum) (h : Header) : Decidable (h.Holds crc) :=
  inferInstanceAs (Decidable (_ = _))

/-- A header holds if it has the checksum of its own bytes, with those of the checksum zeroed. -/
theorem holds_iff (crc : Checksum) (h : Header) :
    h.Holds crc ↔ h.checksum = crc (zeroedAt 4 h.bytes) := by
  rw [Holds, bytes_zeroed_eq, eq_comm]

/-- The check leaves the header as it was, so it has the same answer the second time. -/
theorem run_checkTwice (crc : Checksum) (h : Header) {b : Bool} (hb : h.Holds crc ↔ b = true) :
    ((checkTwice crc).run h).result = .ok (b, b) := by
  have hcheck := (checkChecksum_eq crc h b).mpr hb
  have hkept : ((checkChecksum crc).run h).state = h := by rw [run_checkChecksum]
  refine result_bind_eq_ok.mpr ⟨b, hcheck, result_bind_eq_ok.mpr ⟨b, ?_, rfl⟩⟩
  rw [hkept, hcheck]

/-! ### The convention -/

/-- A header with the checksum that it has written into it. -/
def stamped (crc : Checksum) (h : Header) : Header :=
  { h with checksum := crc (zeroedAt 4 h.bytes) }

/-- A stamped header passes, as the checksum that it had before does not count. -/
theorem holds_stamped (crc : Checksum) (h : Header) : (h.stamped crc).Holds crc := by
  have hzeroed : (h.stamped crc).zeroed = h.zeroed := rfl
  rw [Holds, hzeroed, bytes_zeroed_eq, stamped]

/-- The header of an image with this magic word, name and body, before it is stamped. -/
def forBody (magic : UInt32) (name body : Bytes) : Header where
  magic := magic
  checksum := 0
  length := UInt64.ofNat (size + body.length)
  name := fit 256 name
  length_name := length_fit 256 name

end Header

/-- An image with this magic word, name and body. -/
def builtImage (crc : Checksum) (magic : UInt32) (name body : Bytes) : Bytes :=
  ((Header.forBody magic name body).stamped crc).bytes ++ body

/-- Such an image is valid if its magic word is the plain one. -/
theorem valid_builtImage (crc : Checksum) (name body : Bytes) :
    Valid crc (builtImage crc Header.plainMagic name body) :=
  (Header.valid_iff_of_starts (List.prefix_append _ _)).mpr ⟨rfl, Header.holds_stamped crc _⟩

namespace Header

/-- **The layout of a header, and the convention of its checksum.** A header is read exactly from
the strings of at least 272 bytes; its bytes are the first 272 of the string, and its words are the
numbers that the bytes at their places stand for. Every header is read from its bytes, whatever
follows. The check of the checksum changes nothing; it says whether the stored checksum is that of
the bytes with zeros in its place, and says it again when it is made again. A header passes once it
is stamped, whatever checksum it had. So an image that is built by this convention, with any magic
word, name and body, reads back and passes, and with the plain magic word it is validated. -/
theorem layout_and_checksum (crc : Checksum) :
    (∀ image : Bytes, ((∃ h, read image = .ok h) ↔ size ≤ image.length) ∧
      ∀ h, read image = .ok h → h.bytes = image.take size ∧
        h.magic.toNat = ofLE (image.take 4) ∧
        h.checksum.toNat = ofLE ((image.drop 4).take 4) ∧
        h.length.toNat = ofLE ((image.drop 8).take 8)) ∧
      (∀ (h : Header) (rest : Bytes), read (h.bytes ++ rest) = .ok h) ∧
      (∀ h : Header, ((checkChecksum crc).run h).state = h ∧
        ∃ b, (b = true ↔ h.checksum = crc (zeroedAt 4 h.bytes)) ∧
          ((checkChecksum crc).run h).result = .ok b ∧
          ((checkTwice crc).run h).result = .ok (b, b)) ∧
      (∀ h : Header, ((checkChecksum crc).run
        { h with checksum := crc (zeroedAt 4 h.bytes) }).result = .ok true) ∧
      ∀ (magic : UInt32) (name body : Bytes), ∃ h,
        read (builtImage crc magic name body) = .ok h ∧
        h.magic = magic ∧ h.name = fit 256 name ∧ h.length = UInt64.ofNat (size + body.length) ∧
        ((checkChecksum crc).run h).result = .ok true ∧
        (magic = plainMagic → ∀ (σ : Type) (wasUnpacked : Bool) (s : σ),
          ((Pipeline.validate crc (builtImage crc magic name body) wasUnpacked).run s).result =
            .ok h) := by
  have hpasses : ∀ h : Header, ((checkChecksum crc).run (h.stamped crc)).result = .ok true :=
    fun h => (checkChecksum_eq crc _ true).mpr (iff_of_true (holds_stamped crc h) rfl)
  refine ⟨fun image => ⟨?_, fun h hread => ⟨bytes_of_read hread, ?_⟩⟩, read_bytes_append,
    fun h => ⟨by rw [run_checkChecksum], ?_⟩, hpasses, fun magic name body => ?_⟩
  · simp only [read_eq_ok]
    exact ⟨fun ⟨_, hlen, _⟩ => hlen, fun hlen => ⟨_, hlen, rfl⟩⟩
  · obtain ⟨hlen, rfl⟩ := read_eq_ok.mp hread
    rw [magic_ofBytes hlen, checksum_ofBytes hlen, length_ofBytes hlen]
    exact ⟨toNat_word32 _ 0, toNat_word32 _ 4, toNat_word64 _ 8⟩
  · have hanswer : h.Holds crc ↔ decide (h.Holds crc) = true := decide_eq_true_iff.symm
    refine ⟨decide (h.Holds crc), ?_, (checkChecksum_eq crc h _).mpr hanswer,
      run_checkTwice crc h hanswer⟩
    rw [← hanswer, holds_iff]
  · have hread := read_bytes_append ((forBody magic name body).stamped crc) body
    refine ⟨_, hread, rfl, rfl, rfl, hpasses _, ?_⟩
    rintro rfl σ wasUnpacked s
    exact (validate_eq_ok crc _ wasUnpacked s).mpr
      ⟨valid_builtImage crc name body, (read_eq_ok.mp hread).2⟩

/-- An image with the name "set" and three bytes after its header. -/
def setImage : Bytes := builtImage Crc32.checksum plainMagic [115, 101, 116] [1, 2, 3]

/-- It reads back, passes, and is validated; cut off one byte before the end of its header it has no
header. -/
theorem setImage_validated :
    (∃ h, read setImage = .ok h ∧ h.bytes = setImage.take size ∧ h.length = 275 ∧
      ((checkTwice Crc32.checksum).run h).result = .ok (true, true) ∧
      ((Pipeline.validate Crc32.checksum setImage false).run ()).result = .ok h) ∧
      ¬ ∃ h, read (setImage.take 271) = .ok h := by
  obtain ⟨hreads, -, hchecks, -, hbuilt⟩ := layout_and_checksum Crc32.checksum
  constructor
  · obtain ⟨h, hread, -, -, hlength, hpasses, hvalidated⟩ :=
      hbuilt plainMagic [115, 101, 116] [1, 2, 3]
    obtain ⟨-, b, -, hcheck, htwice⟩ := hchecks h
    obtain rfl : b = true := Except.ok.inj (hcheck.symm.trans hpasses)
    exact ⟨h, hread, ((hreads setImage).2 h hread).1, hlength, htwice, hvalidated rfl Unit false ()⟩
  · rw [(hreads _).1, List.length_take, size]
    omega

end Header

end BootImage
