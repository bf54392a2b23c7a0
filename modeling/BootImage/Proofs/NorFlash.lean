import BootImage.Bench.FlashImage
import BootImage.Proofs.FlashCalls
import BootImage.Proofs.Offering
import BootImage.Proofs.Simulation

/-!
# A NOR flash stands in for a plain medium

Over a driver that holds some data, and reads at multiples of its granule (`FlashDriver.Holds`), the
adapter answers every aligned read of its medium as plain media with the same data do: within the
data with the bytes there, past the end with a fault and an untouched buffer
(`NorDevice.SameData.like`). Lookups only make aligned reads, and so does a copy if its offset and
the length of its image are aligned.

* `NorDevice.SameData.blocksAlike` — reads of whole blocks are aligned, so lookups come to the same.
* `NorDevice.SameData.sameOutcome` — aligned copies come to the same.
* `NorDevice.SameData.acquire_of_offset_misaligned`,
  `NorDevice.SameData.acquire_of_length_misaligned` — what becomes of the other copies.
* `NorDevice.stands_in` — all of this (`NorDevice.StandsIn`), and which calls reach the driver.
-/

namespace BootImage

open Attempt

/-! ### Drivers that hold data -/

namespace FlashDriver

variable {φ : Type} [FlashDriver φ]

/-- A driver over some data. It reads at multiples of a granule, as many bytes as are a multiple of
it, and refuses to read otherwise. Its offsets have 32 bits. -/
structure Serves (data : Bytes) (granule : Nat) (f : φ) : Prop where
  capacity : capacity f = data.length
  aligned : ∀ {offset : Nat} {buffer : Bytes}, offset < UInt32.size → granule ∣ offset →
    granule ∣ buffer.length → offset + buffer.length ≤ data.length →
      (read f offset buffer).fault = none ∧
        (read f offset buffer).buffer = (data.drop offset).take buffer.length
  misaligned : ∀ {offset : Nat} {buffer : Bytes}, offset < UInt32.size →
    ¬ (granule ∣ offset ∧ granule ∣ buffer.length) → (read f offset buffer).fault ≠ none

/-- Whatever was read before, the driver is one over this data. -/
def Holds (data : Bytes) (granule : Nat) (f : φ) : Prop :=
  ∀ f', Reaches f f' → Serves data granule f'

/-- Reads leave a driver one over this data. -/
theorem Holds.reaches {data : Bytes} {granule : Nat} {f f' : φ} (h : Holds data granule f)
    (hr : Reaches f f') : Holds data granule f' := fun f'' hf' => h f'' (hr.trans hf')

end FlashDriver

namespace Bench

/-- Plain media refuse a read past the end of their contents, and leave the buffer as it was. -/
theorem media_read_past {m : Media} {medium : BlockMedium} {content : Bytes}
    (h : m.content medium = some content) {offset : Nat} {buffer : Bytes}
    (hpast : content.length < offset + buffer.length) :
    Device.read m medium offset buffer = ⟨some "OutOfRange", buffer, m⟩ := by
  have hbytes : m.bytesAt medium offset buffer.length = .error "OutOfRange" := by
    simp [Media.bytesAt, h, Nat.not_le.mpr hpast]
  show m.read medium offset buffer = _
  rw [Media.read, hbytes]

end Bench

/-! ### Flash and plain media with the same data -/

/-- The length that the header at an offset claims, missing bytes counting as zero. -/
def BlockCopy.lengthIn (c : BlockCopy) (data : Bytes) : Nat :=
  (Header.ofBytes (data.drop c.offset.toNat)).length.toNat

namespace NorDevice

/-- A flash whose driver holds the data that plain media have for its medium. All of the data can be
addressed, and the size of a header is a multiple of the driver's granule. -/
structure SameData {φ : Type} [FlashDriver φ] (data : Bytes) (granule : Nat) (n : NorDevice φ)
    (m : Bench.Media) : Prop where
  flash : FlashDriver.Holds data granule n.flash
  media : m.content n.medium = some data
  addressable : data.length ≤ UInt32.size
  granule : granule ∣ 16

namespace SameData

variable {φ : Type} [FlashDriver φ] {data : Bytes} {granule : Nat} {n : NorDevice φ}
  {m : Bench.Media} {medium : BlockMedium} {offset : Nat} {buffer : Bytes}

/-- Reads leave both with the data. -/
theorem next (h : n.SameData data granule m) (medium : BlockMedium) (offset : Nat)
    (buffer buffer' : Bytes) :
    (Device.read n medium offset buffer).device.SameData data granule
      (Device.read m medium offset buffer').device := by
  obtain ⟨hmedium, hreaches⟩ := n.device_read medium offset buffer
  have hsame : (Device.read m medium offset buffer').device = m :=
    Bench.media_of_reaches (.read _ _ _ .refl)
  refine ⟨h.flash.reaches hreaches, ?_, h.addressable, h.granule⟩
  rw [hmedium, hsame]
  exact h.media

/-- **Aligned reads are answered alike.** Only an empty read could be within the data and yet at an
offset that has no 32 bits. -/
theorem like (h : n.SameData data granule m) (hmedium : medium = n.medium)
    (hoffset : granule ∣ offset) (hlength : granule ∣ buffer.length)
    (hsmall : offset < UInt32.size ∨ 0 < buffer.length) :
    (Device.read n medium offset buffer).Like (Device.read m medium offset buffer) := by
  subst hmedium
  have hserves := h.flash n.flash .refl
  have haddressable := h.addressable
  by_cases hwithin : offset + buffer.length ≤ data.length
  · have hoffset32 : offset < UInt32.size := by omega
    have hpermit : n.permit n.medium offset buffer.length = .ok () :=
      permit_eq_ok_iff.mpr ⟨rfl, hoffset32, hserves.capacity.symm ▸ hwithin⟩
    obtain ⟨hfault, hbuffer⟩ := hserves.aligned hoffset32 hoffset hlength hwithin
    obtain ⟨hfault', hbuffer'⟩ := Bench.media_serves h.media m .refl offset buffer hwithin
    rw [read_of_permit hpermit]
    exact ⟨by simp [hfault, hfault'], hbuffer.trans hbuffer'.symm⟩
  · have hrefused : n.permit n.medium offset buffer.length ≠ .ok () := by
      intro hpermit
      exact hwithin (hserves.capacity ▸ (permit_eq_ok_iff.mp hpermit).2.2)
    obtain ⟨fault, hread⟩ := read_of_not_permit hrefused
    rw [hread, Bench.media_read_past h.media (Nat.not_le.mp hwithin)]
    exact ⟨by simp, rfl⟩

/-- A read that is not aligned has a fault, permitted or not. -/
theorem fault_of_misaligned (h : n.SameData data granule m)
    (hmisaligned : ¬ (granule ∣ offset ∧ granule ∣ buffer.length)) :
    (Device.read n medium offset buffer).fault ≠ none := by
  by_cases hpermit : n.permit medium offset buffer.length = .ok ()
  · have hoffset := (permit_eq_ok_iff.mp hpermit).2.1
    have hfault := (h.flash n.flash .refl).misaligned hoffset hmisaligned
    rw [read_of_permit hpermit]
    exact mt Option.map_eq_none_iff.mp hfault
  · obtain ⟨fault, hread⟩ := read_of_not_permit hpermit
    rw [hread]
    exact Option.some_ne_none fault

/-! ### Lookups -/

/-- Reads of whole blocks are answered alike. -/
theorem blocksAlike (data : Bytes) (granule : Nat) (medium : BlockMedium) :
    Device.BlocksAlike medium fun (n : NorDevice φ) m =>
      n.medium = medium ∧ n.SameData data granule m := by
  have hblock : ∀ {n : NorDevice φ} {m}, n.SameData data granule m → granule ∣ blockSize :=
    fun h => Nat.dvd_trans h.granule (by decide)
  constructor
  · rintro n m ⟨hmedium, h⟩ offset buffer hoffset hbuffer
    have hpositive : 0 < buffer.length := hbuffer ▸ by decide
    exact h.like hmedium.symm (Nat.dvd_trans (hblock h) hoffset) (hbuffer ▸ hblock h)
      (.inr hpositive)
  · rintro n m ⟨hmedium, h⟩ offset buffer _ _
    exact ⟨(n.device_read _ _ _).1.trans hmedium, h.next _ _ _ _⟩

/-! ### Copies -/

section copies

variable {c : BlockCopy} {w : Workspace (NorDevice φ)} {w' : Workspace Bench.Media}
  (h : w.device.SameData data granule w'.device) (hmedium : c.medium = w.device.medium)
  (hw : w.SameRegions w')

include h

/-- A header read from the flash at an offset that is not aligned has a fault. -/
theorem acquire_of_offset_misaligned (hoffset : ¬ granule ∣ c.offset.toNat) :
    (c.acquire.run w).result = .error (.failed .acquisition) ∧
      (c.acquire.run w).state.target = w.target := by
  have hfault : (c.headerAnswer w).fault ≠ none :=
    h.fault_of_misaligned fun haligned => hoffset haligned.1
  obtain ⟨hstate, -, hresult⟩ := c.acquire_of_not_goesOn w fun hgoes => hfault hgoes.read
  rw [hstate, hresult, BlockCopy.refusal, if_pos hfault]
  exact ⟨rfl, rfl⟩

/-- The length of a header is aligned. -/
theorem dvd_length_scratch : granule ∣ w.scratch.bytes.length := by
  rw [w.scratch.length_bytes]
  exact Nat.dvd_trans h.granule (by decide)

/-- A copy on the flash that goes on has a header within the data, and claims what this header
claims. -/
theorem claimed_of_goesOn (hoffset : granule ∣ c.offset.toNat) (hgoes : c.GoesOn w) :
    c.offset.toNat < UInt32.size ∧ c.claimed w = c.lengthIn data := by
  have hpermit : w.device.permit c.medium c.offset.toNat w.scratch.bytes.length = .ok () := by
    by_contra hrefused
    obtain ⟨fault, hanswer⟩ := read_of_not_permit hrefused
    cases hgoes.read.symm.trans (congrArg ReadAnswer.fault hanswer)
  obtain ⟨-, hoffset32, hwithin⟩ := permit_eq_ok_iff.mp hpermit
  have hserves := h.flash w.device.flash .refl
  rw [hserves.capacity] at hwithin
  obtain ⟨-, hbuffer⟩ := hserves.aligned hoffset32 hoffset h.dvd_length_scratch hwithin
  have hlong : Header.size ≤ (data.drop c.offset.toNat).length := by
    rw [w.scratch.length_bytes] at hwithin
    rw [List.length_drop]
    omega
  have hscratch : (c.headerRead w).scratch = Header.ofBytes (data.drop c.offset.toNat) := by
    show Header.ofBytes (c.headerAnswer w).buffer = _
    rw [BlockCopy.headerAnswer, read_of_permit hpermit]
    simp only [hbuffer, w.scratch.length_bytes]
    exact Header.ofBytes_take hlong (Nat.le_refl _)
  exact ⟨hoffset32, by rw [BlockCopy.claimed, hscratch, BlockCopy.lengthIn]⟩

include hmedium hw

/-- The header of an aligned copy is read alike. -/
theorem headerAnswer_like (hoffset : granule ∣ c.offset.toNat) :
    (c.headerAnswer w).Like (c.headerAnswer w') := by
  rw [BlockCopy.headerAnswer, BlockCopy.headerAnswer, ← hw.scratch]
  exact h.like hmedium hoffset h.dvd_length_scratch (.inr (by rw [w.scratch.length_bytes]; decide))

/-- **A copy of an aligned image comes to the same on the flash as on plain media.** -/
theorem sameOutcome (hoffset : granule ∣ c.offset.toNat) (hlength : granule ∣ c.lengthIn data) :
    SameOutcome (c.acquire.run w) (c.acquire.run w') := by
  have hheader := headerAnswer_like h hmedium hw hoffset
  refine BlockCopy.sameOutcome hw hheader fun hgoes => ?_
  obtain ⟨hoffset32, hclaimed⟩ := claimed_of_goesOn h hoffset hgoes
  have hmedium' : c.medium = (c.headerAnswer w).device.medium :=
    hmedium.trans (w.device.device_read _ _ _).1.symm
  have hroom : granule ∣ (w.target.take (c.claimed w)).length := by
    rw [List.length_take_of_le hgoes.room, hclaimed]
    exact hlength
  rw [BlockCopy.imageAnswer, BlockCopy.imageAnswer, ← BlockCopy.claimed_like hw hheader,
    ← hw.target]
  exact (h.next _ _ _ _).like hmedium' hoffset hroom (.inl hoffset32)

/-- If the length of the image is not aligned, the flash refuses the read of the image. What made
the copy fail before that read makes it fail here. -/
theorem acquire_of_length_misaligned (hoffset : granule ∣ c.offset.toNat)
    (hlength : ¬ granule ∣ c.lengthIn data) :
    (∀ n, (c.acquire.run w').result = .ok n →
        (c.acquire.run w).result = .error (.failed .acquisition)) ∧
      ∀ why, (c.acquire.run w').result = .error why → (c.acquire.run w).result = .error why := by
  have hheader := headerAnswer_like h hmedium hw hoffset
  by_cases hgoes : c.GoesOn w
  · obtain ⟨-, hclaimed⟩ := claimed_of_goesOn h hoffset hgoes
    have hfault : (c.imageAnswer w).fault ≠ none := by
      apply (h.next c.medium c.offset.toNat w.scratch.bytes w'.scratch.bytes).fault_of_misaligned
      rw [List.length_take_of_le hgoes.room, hclaimed]
      exact fun haligned => hlength haligned.2
    have hresult : (c.acquire.run w).result = .error (.failed .acquisition) := by
      rw [(c.acquire_of_goesOn w hgoes).2.2, if_neg hfault]
    obtain ⟨-, -, hresult'⟩ :=
      c.acquire_of_goesOn w' ((BlockCopy.goesOn_like hw hheader).mp hgoes)
    refine ⟨fun n _ => hresult, ?_⟩
    intro why hwhy
    rw [hresult'] at hwhy
    split_ifs at hwhy
    rw [hresult, ← hwhy]
  · have hsame := (BlockCopy.sameOutcome hw hheader fun h => absurd h hgoes).result
    refine ⟨?_, ?_⟩
    · intro n hn
      have hresult := (c.acquire_of_not_goesOn w hgoes).2.2
      cases hresult.symm.trans (hsame.trans hn)
    · intro why hwhy
      exact hsame.trans hwhy

end copies

end SameData

end NorDevice

/-! ### The adapter as a whole -/

namespace NorDevice

variable {φ : Type} [FlashDriver φ]

/-- What becomes of a copy, and of lookups on its medium, in a workspace with a flash over a driver
that reads at multiples of a granule, and in one with plain media that hold the same data. -/
structure StandsIn (data : Bytes) (granule : Nat) (c : BlockCopy) (w : Workspace (NorDevice φ))
    (w' : Workspace Bench.Media) : Prop where
  /-- If its offset and its image's length are multiples of the granule, the copy has the same
  result, leaves the same scratch header and target, and makes the same reads. -/
  aligned : granule ∣ c.offset.toNat → granule ∣ c.lengthIn data →
    SameOutcome (c.acquire.run w) (c.acquire.run w')
  /-- If its offset is none, it fails to acquire, and leaves the target alone. -/
  offset : ¬ granule ∣ c.offset.toNat →
    (c.acquire.run w).result = .error (.failed .acquisition) ∧
      (c.acquire.run w).state.target = w.target
  /-- If only the length is none, it fails where the other copy fails, for the same cause, and fails
  to acquire where the other one succeeds. -/
  length : granule ∣ c.offset.toNat → ¬ granule ∣ c.lengthIn data →
    (∀ n, (c.acquire.run w').result = .ok n →
        (c.acquire.run w).result = .error (.failed .acquisition)) ∧
      ∀ why, (c.acquire.run w').result = .error why → (c.acquire.run w).result = .error why
  /-- A lookup in a partition table has the same result and makes the same reads. -/
  lookup : ∀ partitionType,
    ((findPartition c.medium partitionType).run w.device).result =
        ((findPartition c.medium partitionType).run w'.device).result ∧
      ((findPartition c.medium partitionType).run w.device).reads =
        ((findPartition c.medium partitionType).run w'.device).reads

/-- **A NOR flash stands in for a plain medium.** Over a driver that holds data, and that reads at
multiples of a granule which divides 16, reads of the adapter's medium compare with reads of plain
media that hold the same data there, for every scratch header and every target (`StandsIn`).

And for any driver, of whatever capacity and with whatever data, and any sequence of reads of any
media, the driver is only called for some of the reads of its own medium, as they come, at offsets
of 32 bits and within its capacity. What is noted to say so has no bearing on the driver. -/
theorem stands_in (φ : Type) [FlashDriver φ] :
    (∀ {data : Bytes} {granule : Nat} {c : BlockCopy} {w : Workspace (NorDevice φ)}
        {w' : Workspace Bench.Media}, w.device.SameData data granule w'.device →
      c.medium = w.device.medium → w.SameRegions w' → StandsIn data granule c w w') ∧
      ∀ (n : NorDevice φ) (requests : List ReadRequest),
        (Device.after n.recorded requests).unrecorded = Device.after n requests ∧
          CallsAt (Device.after n.recorded requests).flash.calls (placesOn n.medium requests) := by
  refine ⟨?_, driver_calls⟩
  intro data granule c w w' h hmedium hw
  refine ⟨h.sameOutcome hmedium hw, h.acquire_of_offset_misaligned,
    h.acquire_of_length_misaligned hmedium hw, ?_⟩
  intro partitionType
  have hmatches := findPartition_matches (SameData.blocksAlike data granule c.medium)
    partitionType ⟨hmedium.symm, h⟩
  exact ⟨hmatches.result, hmatches.reads⟩

end NorDevice

namespace Bench

/-- Reads only add to what is noted of them. -/
theorem flashImage_of_reaches {f f' : FlashImage} (h : FlashDriver.Reaches f f') :
    ∃ reads, f' = { f with reads := reads } := by
  induction h with
  | refl => exact ⟨f.reads, rfl⟩
  | read offset buffer _ ih =>
    obtain ⟨reads, rfl⟩ := ih
    refine ⟨reads ++ [(offset, buffer.length)], ?_⟩
    show (FlashImage.read _ offset buffer).driver = _
    simp only [FlashImage.read]
    split <;> rfl

/-- A flash image that works, and that reports the length of its contents, holds them. -/
theorem flashImage_holds {f : FlashImage} (hcapacity : f.capacity = f.data.length)
    (hworks : f.failing = false) : FlashDriver.Holds f.data f.readSize f := by
  intro f' hf'
  obtain ⟨reads, rfl⟩ := flashImage_of_reaches hf'
  refine ⟨hcapacity, ?_, ?_⟩
  · intro offset buffer _ hoffset hlength hwithin
    have hbytes : FlashImage.bytesAt { f with reads := reads } offset buffer.length =
        .ok ((f.data.drop offset).take buffer.length) := by
      simp [FlashImage.bytesAt, hworks, Nat.mod_eq_zero_of_dvd hoffset,
        Nat.mod_eq_zero_of_dvd hlength, Nat.not_lt.mpr hwithin]
    show (FlashImage.read _ offset buffer).fault = none ∧
      (FlashImage.read _ offset buffer).buffer = _
    rw [FlashImage.read, hbytes]
    exact ⟨rfl, rfl⟩
  · intro offset buffer _ hmisaligned
    have hbytes : FlashImage.bytesAt { f with reads := reads } offset buffer.length =
        .error .notAligned := by
      have hrest : offset % f.readSize ≠ 0 ∨ buffer.length % f.readSize ≠ 0 := by
        rw [← not_and_or]
        rintro ⟨hoffset, hlength⟩
        exact hmisaligned ⟨Nat.dvd_of_mod_eq_zero hoffset, Nat.dvd_of_mod_eq_zero hlength⟩
      simp [FlashImage.bytesAt, hworks, hrest]
    show (FlashImage.read _ offset buffer).fault ≠ none
    rw [FlashImage.read, hbytes]
    exact Option.some_ne_none _

/-- A SPI flash with some data, read 16 bytes at a time. -/
def spiFlash (data : Bytes) : NorDevice FlashImage :=
  ⟨.spiFlash, ⟨data, data.length, 16, false, []⟩⟩

/-- A workspace with a SPI flash. -/
def withSpiFlash (data : Bytes) : Workspace (NorDevice FlashImage) :=
  ⟨spiFlash data, Header.zero, List.replicate 300 0xEE⟩

/-- The same workspace with plain media. -/
def withSpiMedia (data : Bytes) : Workspace Media :=
  ⟨Media.none.set .spiFlash data, Header.zero, List.replicate 300 0xEE⟩

/-- A header at the start of a flash is copied as from plain media. From an offset of 8 nothing is
copied. -/
theorem copies_from_flash :
    ((BlockCopy.mk .spiFlash 0).acquire.run (withSpiFlash bareCard)).result =
        ((BlockCopy.mk .spiFlash 0).acquire.run (withSpiMedia bareCard)).result ∧
      ((BlockCopy.mk .spiFlash 8).acquire.run (withSpiFlash bareCard)).result =
        .error (.failed .acquisition) := by
  have hdata : bareCard.length = 272 := Header.length_bytes _
  have h : (withSpiFlash bareCard).device.SameData bareCard 16 (withSpiMedia bareCard).device :=
    ⟨flashImage_holds rfl rfl, rfl, by rw [hdata]; decide, Nat.dvd_refl 16⟩
  have hregions : (withSpiFlash bareCard).SameRegions (withSpiMedia bareCard) := ⟨rfl, rfl⟩
  have hlength : (BlockCopy.mk .spiFlash 0).lengthIn bareCard = 272 := by
    have hheader : Header.ofBytes (bareCard.drop 0) = Pipeline.claiming 272 :=
      Header.ofBytes_bytes _
    show (Header.ofBytes (bareCard.drop 0)).length.toNat = 272
    rw [hheader]
    rfl
  have hcopies : ∀ c : BlockCopy, c.medium = .spiFlash →
      NorDevice.StandsIn bareCard 16 c (withSpiFlash bareCard) (withSpiMedia bareCard) :=
    fun _ hmedium => (NorDevice.stands_in FlashImage).1 h hmedium hregions
  have haligned := (hcopies ⟨.spiFlash, 0⟩ rfl).aligned (by decide) (by rw [hlength]; decide)
  exact ⟨haligned.result, ((hcopies ⟨.spiFlash, 8⟩ rfl).offset (by decide)).1⟩

end Bench

end BootImage
