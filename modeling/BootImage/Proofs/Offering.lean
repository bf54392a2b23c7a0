import BootImage.Proofs.Fallback

/-!
# Images that a strategy has to offer

Each of the four strategies can have an image to offer: at the start of the linked bytes, at the
start of the window, at an offset of a medium, or at the start of a partition (`Source.Offers`).
What follows the image there is left open.

* `Source.Offers.acquire_of_recognized` — an offered image with an accepted magic word is acquired.
  The strategies differ only in the bytes that they give after it (`Source.surplus`): those that
  copy give none.
* `Source.Offers.acquire_of_unrecognized` — with another magic word every strategy fails.
* `Whole.valid_append`, `Whole.claimedPart_append` — bytes after an image that claims just itself
  change neither whether it is valid nor what is registered of it.
-/

namespace BootImage

open Attempt

/-- An image that claims all of itself, and has room for a header. -/
structure Whole (image : Bytes) : Prop where
  long : Header.size ≤ image.length
  claims : (word64 image 8).toNat = image.length

namespace Header

variable {image : Bytes}

/-- The first bytes of an image are enough for its header. -/
theorem ofBytes_take (hlong : size ≤ image.length) {n : Nat} (hn : size ≤ n) :
    ofBytes (image.take n) = ofBytes image := by
  have hcut : size ≤ (image.take n).length := by
    rw [List.length_take]
    omega
  have himage : ofBytes (image.take n ++ image.drop n) = ofBytes image := by
    rw [List.take_append_drop]
  rwa [ofBytes_append hcut] at himage

end Header

namespace Whole

variable {image : Bytes} (h : Whole image) (rest : Bytes)

include h

/-- What comes after an image does not change the words of its header. -/
theorem word32_append {pos : Nat} (hpos : pos + 4 ≤ Header.size) :
    word32 (image ++ rest) pos = word32 image pos := by
  have hcut : (image ++ rest).take image.length = image := List.take_left
  rw [← word32_take (Nat.le_trans hpos h.long), hcut]

/-- Nor does it change the longer ones. -/
theorem word64_append {pos : Nat} (hpos : pos + 8 ≤ Header.size) :
    word64 (image ++ rest) pos = word64 image pos := by
  have hcut : (image ++ rest).take image.length = image := List.take_left
  rw [← word64_take (Nat.le_trans hpos h.long), hcut]

/-- Bytes after an image do not change whether it is valid. -/
theorem valid_append (crc : Checksum) : Valid crc (image ++ rest) ↔ Valid crc image := by
  have hchecked : checkedBytes (image ++ rest) = checkedBytes image := by
    have h4 : 4 ≤ image.length := Nat.le_trans (by decide) h.long
    rw [checkedBytes, checkedBytes, List.take_append_of_le_length h4,
      List.take_append_of_le_length h.long]
  have hlong : Header.size ≤ (image ++ rest).length := by
    have := h.long
    rw [List.length_append]
    omega
  have hmagic : word32 (image ++ rest) 0 = word32 image 0 := h.word32_append rest (by decide)
  have hstored : word32 (image ++ rest) 4 = word32 image 4 := h.word32_append rest (by decide)
  constructor
  · rintro ⟨-, hplain, hintact⟩
    exact ⟨h.long, hmagic ▸ hplain, hstored ▸ hchecked ▸ hintact⟩
  · rintro ⟨-, hplain, hintact⟩
    exact ⟨hlong, hmagic ▸ hplain, hstored ▸ hchecked ▸ hintact⟩

/-- What an image claims of itself and of bytes after it is itself. -/
theorem claimedPart_append : claimedPart (image ++ rest) = image := by
  have hmin : min image.length (image ++ rest).length = image.length := by
    rw [List.length_append]
    omega
  rw [claimedPart, h.word64_append rest (by decide), h.claims, hmin, List.take_left]

/-- An image that claims just itself is its own claimed part. -/
theorem claimedPart_eq : claimedPart image = image := by
  have happend := h.claimedPart_append []
  rwa [List.append_nil] at happend

end Whole

variable {δ : Type} [Device δ]

/-- What a strategy has to do with an image: the image is where the strategy looks for one, and
reads of the medium succeed there. -/
inductive Source.Offers (d : δ) (image : Bytes) : Source → Prop
  | linked (rest : Bytes) : Offers d image (.linked (image ++ rest))
  | mapped (rest : Bytes) : Offers d image (.mapped (image ++ rest))
  | copied {content : Bytes} (copy : BlockCopy) (hserves : Device.Serves copy.medium content d)
      (hthere : image <+: content.drop copy.offset.toNat) : Offers d image (.copied copy)
  /-- The table of the card is sound, and its first partition of the type starts with the image. -/
  | partitioned {card : Bytes} {extent : Extent} (copy : TableCopy)
      (hserves : Device.Serves copy.medium card d) (hcard : card.length < UInt64.size)
      (hgives : Card.Gives card copy.partitionType extent)
      (hthere : image <+: card.drop (extent.first.toNat * blockSize)) :
      Offers d image (.partitioned copy)

/-- The bytes after an image that a strategy does not cut off. -/
def Source.surplus (image : Bytes) : Source → Bytes
  | linked blob => blob.drop image.length
  | mapped window => window.drop image.length
  | copied _ | partitioned _ => []

/-! ### Copies -/

section copies

variable {w : Workspace δ} {image : Bytes}

/-- The bytes of an image that is somewhere in a content. -/
theorem take_drop_of_starts {content : Bytes} {offset n : Nat}
    (hthere : image <+: content.drop offset) (hn : n ≤ image.length) (hpos : 0 < n) :
    offset + n ≤ content.length ∧ (content.drop offset).take n = image.take n := by
  obtain ⟨rest, hrest⟩ := hthere
  constructor
  · have hlen := congrArg List.length hrest
    rw [List.length_append, List.length_drop] at hlen
    omega
  · rw [← hrest, List.take_append_of_le_length hn]

namespace BlockCopy

variable {c : BlockCopy} {content : Bytes} (hserves : Device.Serves c.medium content w.device)
  (hthere : image <+: content.drop c.offset.toNat) (hwhole : Whole image)

include hserves hthere hwhole

/-- The header that is read ahead of an image is the one at its start. -/
theorem headerRead_of_serves :
    (c.headerAnswer w).fault = none ∧ (c.headerRead w).scratch = Header.ofBytes image := by
  obtain ⟨hwithin, hbytes⟩ := take_drop_of_starts hthere hwhole.long (by decide)
  have hwithin' : c.offset.toNat + w.scratch.bytes.length ≤ content.length := by
    rw [Header.length_bytes]
    exact hwithin
  obtain ⟨hfault, hbuffer⟩ := hserves _ .refl _ _ hwithin'
  rw [Header.length_bytes, hbytes] at hbuffer
  refine ⟨hfault, ?_⟩
  have hscratch : (c.headerRead w).scratch = Header.ofBytes (c.headerAnswer w).buffer := rfl
  have hheader : (c.headerAnswer w).buffer = image.take Header.size := hbuffer
  rw [hscratch, hheader, Header.ofBytes_take hwhole.long (Nat.le_refl _)]

/-- The header that was read claims the length of the image. -/
theorem claimed_of_serves : c.claimed w = image.length := by
  rw [claimed, (headerRead_of_serves hserves hthere hwhole).2, Header.length_ofBytes hwhole.long,
    hwhole.claims]

/-- The image is read as it is. -/
theorem imageAnswer_of_serves (hroom : image.length ≤ w.target.length) :
    (c.imageAnswer w).fault = none ∧ (c.imageAnswer w).buffer = image := by
  have hclaimed := claimed_of_serves hserves hthere hwhole
  have hpos : 0 < image.length := Nat.lt_of_lt_of_le (by decide) hwhole.long
  obtain ⟨hwithin, hbytes⟩ := take_drop_of_starts hthere (Nat.le_refl _) hpos
  have hlen : (w.target.take (c.claimed w)).length = image.length := by
    rw [hclaimed, List.length_take, Nat.min_eq_left hroom]
  have hwithin' : c.offset.toNat + (w.target.take (c.claimed w)).length ≤ content.length := by
    rw [hlen]
    exact hwithin
  obtain ⟨hfault, hbuffer⟩ := hserves _ (.read _ _ _ .refl) _ _ hwithin'
  rw [hlen, hbytes, List.take_length] at hbuffer
  exact ⟨hfault, hbuffer⟩

/-- An image with an accepted magic word is copied to the target. -/
theorem acquire_of_serves (hroom : image.length ≤ w.target.length)
    (hmagic : (Header.ofBytes image).recognized = true) :
    (c.acquire.run w).result = .ok image.length ∧
      (c.acquire.run w).state.target.take image.length = image := by
  obtain ⟨hread, hscratch⟩ := headerRead_of_serves hserves hthere hwhole
  obtain ⟨hread', hbuffer⟩ := imageAnswer_of_serves hserves hthere hwhole hroom
  have hclaimed := claimed_of_serves hserves hthere hwhole
  have hresult : (c.acquire.run w).result = .ok image.length := by
    rcases hrun : c.acquire.run w with ⟨result, t, w'⟩
    have hcourse := c.course w
    rw [hrun] at hcourse
    cases hcourse with
    | headerUnreadable hfault => cases hread.symm.trans hfault
    | unrecognized _ hnot =>
      rw [hscratch, hmagic] at hnot
      cases hnot
    | tooLarge _ _ hsmall => omega
    | imageUnreadable _ _ _ hfault => cases hread'.symm.trans hfault
    | copied _ _ _ _ => rw [hclaimed]
  refine ⟨hresult, ?_⟩
  rw [(c.course_of_ok w hresult).2.2.2, hbuffer]

/-- With another magic word a copy fails. -/
theorem acquire_of_serves_unrecognized (hmagic : (Header.ofBytes image).recognized = false) :
    ∃ cause, (c.acquire.run w).result = .error (.failed cause) := by
  obtain ⟨hread, hscratch⟩ := headerRead_of_serves hserves hthere hwhole
  rcases hrun : c.acquire.run w with ⟨result, t, w'⟩
  have hcourse := c.course w
  rw [hrun] at hcourse
  cases hcourse with
  | headerUnreadable _ => exact ⟨_, rfl⟩
  | unrecognized _ _ => exact ⟨_, rfl⟩
  | tooLarge _ _ _ => exact ⟨_, rfl⟩
  | imageUnreadable _ _ _ _ => exact ⟨_, rfl⟩
  | copied _ hyes _ _ =>
    rw [hscratch, hmagic] at hyes
    cases hyes

end BlockCopy

namespace TableCopy

/-- The copy that a copy from a partition comes to. -/
def blockCopy (c : TableCopy) (extent : Extent) : BlockCopy := ⟨c.medium, offsetOf extent.first⟩

/-- A copy from a partition that is found is a copy from where the partition starts, from a
workspace that only the lookup has changed. -/
theorem run_acquire_of_gives {c : TableCopy} {card : Bytes} {extent : Extent}
    (hserves : Device.Serves c.medium card w.device) (hcard : card.length < UInt64.size)
    (hgives : Card.Gives card c.partitionType extent) :
    ∃ w', w.Reaches w' ∧ w'.target = w.target ∧
      (c.acquire.run w).result = ((c.blockCopy extent).acquire.run w').result ∧
      (c.acquire.run w).state = ((c.blockCopy extent).acquire.run w').state := by
  have hfound : (c.lookedUp w).result = .ok extent := findPartition_of_gives hserves hcard hgives
  have hreaches := (findPartition_keeps c.medium c.partitionType (.refl (d := w.device))).state
  have hfollowing : c.following w = c.blockCopy extent := by
    rw [following, hfound]
    rfl
  refine ⟨c.afterLookup w, ⟨hreaches, rfl⟩, rfl, ?_⟩
  rw [run_acquire, hfollowing]
  exact ⟨rfl, rfl⟩

/-- A copy from a partition that starts with an image copies from there. -/
theorem starts_blockCopy (c : TableCopy) {card : Bytes} {extent : Extent}
    (hcard : card.length < UInt64.size) (hwhole : Whole image)
    (hthere : image <+: card.drop (extent.first.toNat * blockSize)) :
    image <+: card.drop (c.blockCopy extent).offset.toNat := by
  have hpos : 0 < image.length := Nat.lt_of_lt_of_le (by decide) hwhole.long
  have hwithin := (take_drop_of_starts hthere (Nat.le_refl _) hpos).1
  have hoffset : (c.blockCopy extent).offset.toNat = extent.first.toNat * blockSize :=
    toNat_offsetOf (by omega)
  rw [hoffset]
  exact hthere

end TableCopy

end copies

/-! ### Any strategy -/

namespace Source.Offers

variable {source : Source} {w : Workspace δ} {image : Bytes} (h : source.Offers w.device image)
  (hwhole : Whole image)

include h hwhole

/-- **An offered image with an accepted magic word is acquired**, and what is acquired is the image
and the surplus of the strategy. -/
theorem acquire_of_recognized (hroom : image.length ≤ w.target.length)
    (hmagic : (Header.ofBytes image).recognized = true) :
    ∃ location, (source.acquire.run w).result = .ok location ∧
      location.bytes (source.acquire.run w).state.target = image ++ source.surplus image := by
  have hlong : ∀ rest : Bytes, Header.size ≤ (image ++ rest).length := by
    intro rest
    have := hwhole.long
    rw [List.length_append]
    omega
  have hmagic' : ∀ rest, (Header.ofBytes (image ++ rest)).recognized = true := by
    intro rest
    rw [Header.ofBytes_append hwhole.long, hmagic]
  cases h with
  | linked rest =>
    refine ⟨.resident .payload (image ++ rest), ?_, ?_⟩
    · rw [acquire, run_acquireLinked (hlong rest) (hmagic' rest)]
    · rw [surplus, List.drop_left]
      rfl
  | mapped rest =>
    refine ⟨.resident .window (image ++ rest), ?_, ?_⟩
    · rw [acquire, run_acquireMapped (hlong rest) (hmagic' rest)]
    · rw [surplus, List.drop_left]
      rfl
  | copied copy hserves hthere =>
    obtain ⟨hresult, htarget⟩ := copy.acquire_of_serves hserves hthere hwhole hroom hmagic
    refine ⟨.inTarget image.length, ?_, ?_⟩
    · rw [acquire, run_bind_of_ok hresult]
      rfl
    · rw [acquire, run_bind_of_ok hresult, surplus, List.append_nil]
      exact htarget
  | partitioned copy hserves hcard hgives hthere =>
    obtain ⟨w', hreaches, htarget, hresult, hstate⟩ :=
      TableCopy.run_acquire_of_gives hserves hcard hgives
    rw [← htarget] at hroom
    obtain ⟨hresult', htarget'⟩ := BlockCopy.acquire_of_serves (hserves.reaches hreaches.device)
      (copy.starts_blockCopy hcard hwhole hthere) hwhole hroom hmagic
    rw [← hresult] at hresult'
    rw [← hstate] at htarget'
    refine ⟨.inTarget image.length, ?_, ?_⟩
    · rw [acquire, run_bind_of_ok hresult']
      rfl
    · rw [acquire, run_bind_of_ok hresult', surplus, List.append_nil]
      exact htarget'

/-- With another magic word every strategy fails. -/
theorem acquire_of_unrecognized (hmagic : (Header.ofBytes image).recognized = false) :
    ∃ cause, (source.acquire.run w).result = .error (.failed cause) := by
  have hread : ∀ rest, Header.read (image ++ rest) = .ok (Header.ofBytes image) := by
    intro rest
    rw [← Header.ofBytes_append hwhole.long rest]
    apply if_pos
    have := hwhole.long
    rw [List.length_append]
    omega
  cases h with
  | linked rest =>
    refine ⟨.magicMismatch (Header.ofBytes image).magic, ?_⟩
    simp [acquire, acquireLinked, hread, Header.run_requireMagic_of_not hmagic]
  | mapped rest =>
    refine ⟨.magicMismatch (Header.ofBytes image).magic, ?_⟩
    simp [acquire, acquireMapped, hread, Header.run_requireMagic_of_not hmagic, Except.map]
  | copied copy hserves hthere =>
    obtain ⟨cause, hresult⟩ := copy.acquire_of_serves_unrecognized hserves hthere hwhole hmagic
    exact ⟨cause, by rw [acquire, run_bind_of_error hresult]⟩
  | partitioned copy hserves hcard hgives hthere =>
    obtain ⟨w', hreaches, htarget, hresult, hstate⟩ :=
      TableCopy.run_acquire_of_gives hserves hcard hgives
    obtain ⟨cause, hresult'⟩ := BlockCopy.acquire_of_serves_unrecognized
      (hserves.reaches hreaches.device) (copy.starts_blockCopy hcard hwhole hthere) hwhole hmagic
    rw [← hresult] at hresult'
    exact ⟨cause, by rw [acquire, run_bind_of_error hresult']⟩

end Source.Offers

end BootImage
