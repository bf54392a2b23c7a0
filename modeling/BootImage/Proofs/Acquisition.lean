import BootImage.Proofs.PartitionTable
import BootImage.Source

/-!
# What an acquisition gives

Of the four strategies two use an image where it is and two copy it to the target
(`Source.Yields`). The bytes of an acquired image are then a matter of its location and of the
target (`Location.bytes`), and a location that lies in the target (`Location.Fits`) always has them.

* `Source.acquire_keeps` — an acquisition reads and logs, keeps the target's length, and gives a
  location of the kind that its strategy calls for.
* `Source.last_read_of_inTarget` — the last thing that a successful copy does is to read as many
  bytes as it then says it has.
-/

namespace BootImage

open Attempt

namespace Location

/-- The bytes of an image, given what is in the target. -/
def bytes (target : Bytes) : Location → Bytes
  | resident _ image => image
  | inTarget length => target.take length

/-- A location that the target has room for. -/
def Fits (target : Bytes) : Location → Prop
  | resident _ _ => True
  | inTarget length => length ≤ target.length

/-- The bytes at a location that fits can be had. -/
theorem image_of_fits {σ : Type} {target : Bytes} {location : Location} (h : location.Fits target) :
    (location.image target : Attempt σ Bytes) = pure (location.bytes target) := by
  cases location with
  | resident place image => rfl
  | inTarget length => exact cut_of_le h

end Location

/-- The locations that a strategy can give, with a target as it is afterwards. -/
inductive Source.Yields (target : Bytes) : Source → Location → Prop
  | linked (image : Bytes) : Yields target (.linked image) (.resident .payload image)
  | mapped (window : Bytes) : Yields target (.mapped window) (.resident .window window)
  | copied (copy : BlockCopy) {n : Nat} (h : n ≤ target.length) :
      Yields target (.copied copy) (.inTarget n)
  | partitioned (copy : TableCopy) {n : Nat} (h : n ≤ target.length) :
      Yields target (.partitioned copy) (.inTarget n)

/-- What a source yields fits the target. -/
theorem Source.Yields.fits {target : Bytes} {source : Source} {location : Location}
    (h : source.Yields target location) : location.Fits target := by
  cases h with
  | linked image => trivial
  | mapped window => trivial
  | copied copy hn => exact hn
  | partitioned copy hn => exact hn

section checks

variable {σ : Type} {reached : σ → Prop} {s : σ}

/-- The check of the magic word logs at most. -/
theorem Header.requireMagic_keeps (h : Header) (hs : reached s) :
    (h.requireMagic.run s).Keeps Event.OfAcquisition reached fun _ _ => True := by
  unfold Header.requireMagic Header.checkMagic
  split_ifs with hmagic
  · exact .ok (by simp) hs trivial
  · exact .failed (by simp) hs

/-- Logging the details of a header is all that it does. -/
theorem Header.logDetails_keeps (h : Header) (hs : reached s) :
    (h.logDetails.run s).Keeps Event.OfAcquisition reached fun _ _ => True := by
  rw [run_logDetails]
  exact .ok (by simp [details]) hs trivial

/-- One of the two magic words passes the check without a message. -/
theorem Header.run_requireMagic {h : Header} (hmagic : h.recognized = true) (s : σ) :
    h.requireMagic.run s = ⟨.ok (), [], s⟩ := by
  simp [requireMagic, checkMagic, hmagic]

/-- Another one is logged, and fails it. -/
theorem Header.run_requireMagic_of_not {h : Header} (hmagic : h.recognized = false) (s : σ) :
    h.requireMagic.run s =
      ⟨.error (.failed (.magicMismatch h.magic)), [.logged (.unknownMagic h.magic)], s⟩ := by
  simp [requireMagic, checkMagic, hmagic]

/-- A linked image whose magic word is accepted is acquired. -/
theorem Source.run_acquireLinked {image : Bytes} (hlen : Header.size ≤ image.length)
    (hmagic : (Header.ofBytes image).recognized = true) (s : σ) :
    (acquireLinked image).run s =
      ⟨.ok (.resident .payload image), (Header.ofBytes image).details, s⟩ := by
  have hread : Header.read image = .ok (Header.ofBytes image) := if_pos hlen
  simp [acquireLinked, hread, Header.run_requireMagic hmagic, Except.map]

/-- A window whose magic word is accepted is acquired. -/
theorem Source.run_acquireMapped {window : Bytes} (hlen : Header.size ≤ window.length)
    (hmagic : (Header.ofBytes window).recognized = true) (s : σ) :
    (acquireMapped window).run s =
      ⟨.ok (.resident .window window), [.logged .checkingInPlace], s⟩ := by
  have hread : Header.read window = .ok (Header.ofBytes window) := if_pos hlen
  simp [acquireMapped, hread, Header.run_requireMagic hmagic, Except.map]

/-- The acquisition of a linked image logs at most, and gives that image. -/
theorem Source.acquireLinked_keeps (image : Bytes) (hs : reached s) :
    ((acquireLinked image).run s).Keeps Event.OfAcquisition reached
      fun location _ => location = .resident .payload image := by
  unfold acquireLinked
  refine (Ran.Keeps.ofExcept _ hs).bind ?_
  intro header s₁ hs₁ _
  refine (header.requireMagic_keeps hs₁).bind ?_
  intro _ s₂ hs₂ _
  refine (header.logDetails_keeps hs₂).bind ?_
  intro _ s₃ hs₃ _
  exact .ok (by simp) hs₃ rfl

/-- So does that of a mapped window. -/
theorem Source.acquireMapped_keeps (window : Bytes) (hs : reached s) :
    ((acquireMapped window).run s).Keeps Event.OfAcquisition reached
      fun location _ => location = .resident .window window := by
  unfold acquireMapped
  rw [run_bind, run_log]
  refine Ran.Keeps.next (by simp) ?_
  refine (Ran.Keeps.ofExcept _ hs).bind ?_
  intro header s₁ hs₁ _
  refine (header.requireMagic_keeps hs₁).bind ?_
  intro _ s₂ hs₂ _
  exact .ok (by simp) hs₂ rfl

end checks

variable {δ : Type} [Device δ]

namespace TableCopy

/-- A lookup, caught, leaves the target as it is and always has a value. -/
theorem lookup_keeps (c : TableCopy) (w : Workspace δ) :
    ((caught (Workspace.onDevice (findPartition c.medium c.partitionType))).run w).Keeps
      Event.OfAcquisition (Workspace.Reaches w) fun _ _ => True := by
  have hlookup := findPartition_keeps c.medium c.partitionType (.refl (d := w.device))
  have hon : ((Workspace.onDevice (findPartition c.medium c.partitionType)).run w).Keeps
      Event.OfAcquisition (Workspace.Reaches w) fun _ _ => True :=
    hlookup.on (fun d hd => ⟨hd, rfl⟩) (fun _ _ _ _ => trivial)
  exact hon.caught.mono (fun _ h => h) (fun _ h => h) (fun _ _ _ _ => trivial)

/-- The choice of the first block logs at most. -/
theorem firstLba_keeps {σ : Type} {reached : σ → Prop} {s : σ} (found : Except Error Extent)
    (hs : reached s) :
    ((firstLba found).run s).Keeps Event.OfAcquisition reached fun _ _ => True := by
  cases found with
  | ok extent => exact .ok (by simp) hs trivial
  | error cause => exact .ok (by simp) hs trivial

/-- A copy from a partition keeps the contract of a copy. -/
theorem acquire_keeps (c : TableCopy) (w : Workspace δ) :
    (c.acquire.run w).Keeps Event.OfAcquisition (Workspace.Reaches w)
      fun n w' => n ≤ w'.target.length := by
  unfold acquire
  refine (c.lookup_keeps w).bind ?_
  intro found w₁ hw₁ _
  refine (firstLba_keeps found hw₁).bind ?_
  intro lba w₂ hw₂ _
  exact (BlockCopy.acquire_keeps _ w₂).mono (fun _ h => h) (fun _ h => hw₂.trans h)
    (fun _ _ _ h => h)

/-- A copy from a partition that succeeds ends with the copy from a block medium. -/
theorem last_read_of_ok (c : TableCopy) (w : Workspace δ) {n : Nat}
    (h : (c.acquire.run w).result = .ok n) :
    ∃ offset earlier, (c.acquire.run w).trace = earlier ++ [.read c.medium offset n] := by
  unfold acquire at h ⊢
  obtain ⟨found, hfound, h⟩ := result_bind_eq_ok.mp h
  obtain ⟨lba, hlba, h⟩ := result_bind_eq_ok.mp h
  obtain ⟨-, -, ⟨earlier, htrace⟩, -⟩ := BlockCopy.course_of_ok _ _ h
  rw [run_bind_of_ok hfound, run_bind_of_ok hlba]
  simp only [htrace, ← List.append_assoc]
  exact ⟨_, _, rfl⟩

end TableCopy

namespace Source

/-- **An acquisition reads and logs, and gives a location of its strategy's kind.** -/
theorem acquire_keeps (source : Source) (w : Workspace δ) :
    (source.acquire.run w).Keeps Event.OfAcquisition (Workspace.Reaches w)
      fun location w' => source.Yields w'.target location := by
  cases source with
  | linked image =>
    refine (acquireLinked_keeps image (Workspace.Reaches.refl w)).mono (fun _ h => h)
      (fun _ h => h) ?_
    rintro _ w' - rfl
    exact .linked image
  | mapped window =>
    refine (acquireMapped_keeps window (Workspace.Reaches.refl w)).mono (fun _ h => h)
      (fun _ h => h) ?_
    rintro _ w' - rfl
    exact .mapped window
  | copied copy =>
    refine (copy.acquire_keeps w).bind ?_
    intro n w' hw' hn
    exact .ok (by simp) hw' (.copied copy hn)
  | partitioned copy =>
    refine (copy.acquire_keeps w).bind ?_
    intro n w' hw' hn
    exact .ok (by simp) hw' (.partitioned copy hn)

/-- **The last thing that a successful copy does is to read the image.** -/
theorem last_read_of_inTarget (source : Source) (w : Workspace δ) {n : Nat}
    (h : (source.acquire.run w).result = .ok (.inTarget n)) :
    ∃ medium offset earlier,
      (source.acquire.run w).trace = earlier ++ [.read medium offset n] := by
  cases source with
  | linked image =>
    have hyields := (acquire_keeps (.linked image) w).value _ h
    cases hyields
  | mapped window =>
    have hyields := (acquire_keeps (.mapped window) w).value _ h
    cases hyields
  | copied copy =>
    obtain ⟨m, hm, hn⟩ := result_bind_eq_ok.mp h
    cases hn
    obtain ⟨-, -, ⟨earlier, htrace⟩, -⟩ := copy.course_of_ok w hm
    refine ⟨copy.medium, copy.offset.toNat, earlier, ?_⟩
    rw [acquire, run_bind_of_ok hm, htrace]
    exact List.append_nil _
  | partitioned copy =>
    obtain ⟨m, hm, hn⟩ := result_bind_eq_ok.mp h
    cases hn
    obtain ⟨offset, earlier, htrace⟩ := copy.last_read_of_ok w hm
    refine ⟨copy.medium, offset, earlier, ?_⟩
    rw [acquire, run_bind_of_ok hm, htrace]
    exact List.append_nil _

end Source

end BootImage
