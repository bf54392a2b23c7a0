import BootImage.Proofs.Burst
import BootImage.Proofs.Registration

/-!
# Corrupted headers

The check of a header looks at three parts of it: the magic word, the stored checksum, and the rest.
A burst of at most four bytes within one of them breaks a header that passed, whichever part it is
in. In the stored checksum it changes what the check compares with, and nothing else; elsewhere it
changes what the checksum is computed from, and so the checksum (`Crc32.breaks_of_burst`).

* `Header.breaks_of_burst` — the check fails after such a burst.
* `corruption_refused` — so a boot whose image starts with the corrupted header answers no and
  registers nothing, and no boot in any history registers an image that starts with it.
-/

namespace BootImage

open Attempt

/-! ### What a burst does to the bytes that are checked -/

/-- The window is within the magic word, within the stored checksum, or within what comes after
it. -/
def Header.WithinPart (pos len : Nat) : Prop :=
  pos + len ≤ 4 ∨ 4 ≤ pos ∧ pos + len ≤ 8 ∨ 8 ≤ pos ∧ pos + len ≤ Header.size

/-- The bytes of an image that are checked are those of its header, with zeros for the stored
checksum. -/
theorem checkedBytes_eq_zeroedAt (image : Bytes) :
    checkedBytes image = zeroedAt 4 (image.take Header.size) := by
  rw [checkedBytes, zeroedAt, List.take_take]
  rfl

/-! ### Headers -/

namespace Header

/-- The checksum that a header states is that of its own bytes. -/
def Holds (crc : Checksum) (h : Header) : Prop := crc h.zeroed.bytes = h.checksum

/-- The check of a header's checksum says whether it holds. -/
theorem checkChecksum_eq (crc : Checksum) (h : Header) (b : Bool) :
    ((checkChecksum crc).run h).result = .ok b ↔ (h.Holds crc ↔ b = true) := by
  rw [run_checkChecksum, Holds]
  cases b <;> simp

/-- The bytes of a zeroed header are its bytes with the stored checksum zeroed. -/
theorem bytes_zeroed_eq (h : Header) : h.zeroed.bytes = zeroedAt 4 h.bytes :=
  h.bytes_with_checksum 0

/-- The stored checksum is a word of the header's bytes. -/
theorem checksum_eq_word32 (h : Header) : h.checksum = word32 h.bytes 4 := by
  have hword : (ofBytes h.bytes).checksum = word32 h.bytes 4 :=
    checksum_ofBytes (Nat.le_of_eq h.length_bytes.symm)
  rwa [ofBytes_bytes] at hword

/-- **A burst of at most four bytes within one part of a header breaks it.** -/
theorem breaks_of_burst {h h' : Header} {pos len : Nat} (hholds : h.Holds Crc32.checksum)
    (hburst : BurstAt pos len h.bytes h'.bytes) (h4 : len ≤ 4) (hpart : WithinPart pos len) :
    ¬ h'.Holds Crc32.checksum := by
  unfold Holds at hholds ⊢
  rw [bytes_zeroed_eq, checksum_eq_word32] at hholds ⊢
  have hroom : 4 + 4 ≤ h.bytes.length := h.length_bytes ▸ (by decide)
  exact Crc32.breaks_of_burst hburst hroom h4 (hpart.imp_right (Or.imp_right And.left)) hholds

/-- The header at the start of an image that starts with the bytes of a header is this header. -/
theorem ofBytes_of_starts {h : Header} {image : Bytes} (hstarts : h.bytes <+: image) :
    ofBytes image = h := by
  obtain ⟨rest, rfl⟩ := hstarts
  rw [ofBytes_append (Nat.le_of_eq h.length_bytes.symm), ofBytes_bytes]

/-- An image that starts with the bytes of a header is valid exactly if this header has the plain
magic word and its checksum holds. -/
theorem valid_iff_of_starts {crc : Checksum} {h : Header} {image : Bytes}
    (hstarts : h.bytes <+: image) : Valid crc image ↔ h.magic = plainMagic ∧ h.Holds crc := by
  have hlong : size ≤ image.length := h.length_bytes ▸ hstarts.length_le
  have hmagic := magic_ofBytes hlong
  have hchecksum := checksum_ofBytes hlong
  have hzeroed := bytes_zeroed hlong
  rw [ofBytes_of_starts hstarts] at hmagic hchecksum hzeroed
  rw [Holds, hmagic, hchecksum, hzeroed]
  exact ⟨fun h => ⟨h.plain, h.intact⟩, fun h => ⟨hlong, h.1, h.2⟩⟩

/-- No image that starts with a broken header is valid. -/
theorem not_valid_of_starts {crc : Checksum} {h : Header} {image : Bytes}
    (hbroken : ¬ h.Holds crc) (hstarts : h.bytes <+: image) : ¬ Valid crc image :=
  fun hvalid => hbroken ((valid_iff_of_starts hstarts).mp hvalid).2

end Header

namespace Pipeline

variable {δ ζ ℓ : Type} [Device δ] [Decompressor ζ] [Launcher ℓ]

/-- **A corrupted header is always caught.** Let a header pass its check, and another differ from it
by a burst of at most four bytes within one of its parts. Then the other fails the check. In any
history of a pipeline with this checksum, a boot whose image starts with it answers no and does not
call the launcher, and nothing that starts with it is registered. -/
theorem corruption_refused {h h' : Header} {pos len : Nat}
    (hpasses : ((Header.checkChecksum Crc32.checksum).run h).result = .ok true)
    (hburst : BurstAt pos len h.bytes h'.bytes) (h4 : len ≤ 4)
    (hpart : Header.WithinPart pos len) :
    ((Header.checkChecksum Crc32.checksum).run h').result = .ok false ∧
      ∀ (p : Pipeline δ ζ ℓ) (requests : List Request), p.crc = Crc32.checksum →
        ∀ record ∈ p.history requests,
          (record.request = .boot → ∀ c, record.before.prepared.result = .ok c →
            h'.bytes <+: c.image →
              record.ran.result = .ok false ∧ record.ran.trace.filter Event.isLaunch = []) ∧
          ∀ place slice, .register place slice ∈ record.ran.trace → ¬ h'.bytes <+: slice := by
  have hholds : h.Holds Crc32.checksum := ((Header.checkChecksum_eq _ h true).mp hpasses).mpr rfl
  have hbroken := Header.breaks_of_burst hholds hburst h4 hpart
  refine ⟨(Header.checkChecksum_eq _ h' false).mpr (by simp [hbroken]), ?_⟩
  intro p requests hcrc record hmem
  obtain ⟨hevolves, hran⟩ := evolves_of_mem_history hmem
  obtain ⟨q, request, ran⟩ := record
  obtain rfl : ran = (serve request).run q := hran
  have hcrc' : q.crc = Crc32.checksum := hevolves.crc.trans hcrc
  constructor
  · rintro hboot c hc hstarts
    obtain rfl : request = .boot := hboot
    have hvalid := Header.not_valid_of_starts hbroken hstarts
    rw [← hcrc'] at hvalid
    obtain ⟨hresult, -, hcalls⟩ := boot_of_no_reply (not_gets_of_not_valid hc hvalid)
    exact ⟨hresult, hcalls⟩
  · intro place slice hregister hstarts
    cases request with
    | select medium => exact not_registered_select medium q place slice hregister
    | boot =>
      obtain ⟨c, header, hover, -, rfl⟩ := handover_of_registered hregister
      have hvalid := hover.valid.1
      rw [hcrc'] at hvalid
      exact Header.not_valid_of_starts hbroken (hstarts.trans (List.take_prefix _ _)) hvalid

/-- A header without a name, with the checksum that it has. -/
def namelessHeader : Header :=
  { claiming 272 with checksum := Crc32.checksum (claiming 272).bytes }

/-- The same header with another first byte of the name. -/
def renamedHeader : Header :=
  { namelessHeader with
    name := 1 :: List.replicate 255 0
    length_name := congrArg (· + 1) List.length_replicate }

/-- A board whose linked image has the other name. -/
def renamedBoard : Pipeline Bench.Media Bench.Unpacker Bench.BenchLauncher :=
  (new .none (.custom false) { BootConfig.default with payload := true } []).withPayload
    renamedHeader.bytes

/-- The change of one byte of the name is caught, and the image that has it does not boot. -/
theorem renamed_refused :
    ((Header.checkChecksum Crc32.checksum).run namelessHeader).result = .ok true ∧
      ((Header.checkChecksum Crc32.checksum).run renamedHeader).result = .ok false ∧
      (boot.run renamedBoard).result = .ok false := by
  have hholds : namelessHeader.Holds Crc32.checksum := rfl
  have hpasses := (Header.checkChecksum_eq _ namelessHeader true).mpr
    ⟨fun _ => rfl, fun _ => hholds⟩
  have hburst : BurstAt 16 1 namelessHeader.bytes renamedHeader.bytes := by
    have hsame : ([1] : Bytes).length = ([0] : Bytes).length := rfl
    have hne : ([1] : Bytes) ≠ [0] := by decide
    exact .of_append (toLE 4 namelessHeader.magic.toNat ++ toLE 4 namelessHeader.checksum.toNat ++
      toLE 8 namelessHeader.length.toNat) hsame hne (List.replicate 255 0)
  have hlen : Header.size ≤ renamedHeader.bytes.length :=
    Nat.le_of_eq renamedHeader.length_bytes.symm
  have hrecognized : (Header.ofBytes renamedHeader.bytes).recognized = true := by
    rw [Header.ofBytes_bytes]
    rfl
  have hsucceeds := Source.run_acquireLinked hlen hrecognized renamedBoard.toWorkspace
  have hacquires : renamedBoard.Acquires (.linked renamedHeader.bytes)
      (.resident .payload renamedHeader.bytes) :=
    ⟨⟨.payload, rfl, rfl⟩, congrArg Ran.result hsucceeds, hlen⟩
  have hmagic : word32 renamedHeader.bytes 0 ≠ Header.compressedMagic := by decide
  have hprepared := prepare_eq_ok.mpr (.plain hacquires hmagic)
  obtain ⟨hfails, hhistories⟩ :=
    @corruption_refused Bench.Media Bench.Unpacker Bench.BenchLauncher _ _ _ namelessHeader
      renamedHeader 16 1 hpasses hburst (by decide) (.inr (.inr (by decide)))
  have hrecord := hhistories renamedBoard [.boot] rfl _ List.mem_cons_self
  exact ⟨hpasses, hfails, (hrecord.1 rfl _ hprepared List.prefix_rfl).1⟩

end Pipeline

end BootImage
