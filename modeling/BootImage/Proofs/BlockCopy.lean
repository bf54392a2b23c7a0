import BootImage.BlockCopy
import BootImage.Proofs.Contract

/-!
# What a copy from a block medium can leave

A copy makes one read for the header and, if the header calls for it, one for the image. The device
may answer the two differently, so the two answers have names of their own
(`BlockCopy.headerAnswer`, `BlockCopy.imageAnswer`), as have the workspaces after them.

* `BlockCopy.course` — every copy takes one of five courses, and each is given with its result, its
  trace and the workspace it leaves. All later facts about copies are read off them.
* `BlockCopy.acquire_keeps` — a copy logs and reads, does nothing else, and gives the length of a
  prefix of the target.
* `BlockCopy.course_of_ok` — a copy that succeeds has read its image last, and the image is what
  that read answered.
-/

namespace BootImage

open Attempt

/-- The events of an acquisition: reads, and messages that do not say of a change of stage. -/
def Event.OfAcquisition : Event → Prop
  | logged message => ∀ old new, message ≠ .stage old new
  | read _ _ _ => True
  | _ => False

/-- Messages about changes of stage are the ones left out. -/
@[simp] theorem Event.ofAcquisition_logged (message : Message) :
    (logged message).OfAcquisition ↔ ∀ old new, message ≠ .stage old new := Iff.rfl

/-- Reads are among the events of an acquisition. -/
@[simp] theorem Event.ofAcquisition_read (medium : BlockMedium) (offset length : Nat) :
    (read medium offset length).OfAcquisition := trivial

namespace Device

variable {δ : Type} [Device δ]

/-- The states that a device can get into by reads. -/
inductive Reaches (d : δ) : δ → Prop
  | refl : Reaches d d
  | read {d' : δ} (medium : BlockMedium) (offset : Nat) (buffer : Bytes) (h : Reaches d d') :
      Reaches d (Device.read d' medium offset buffer).device

/-- Reads can go on after reads. -/
theorem Reaches.trans {d d' d'' : δ} (h : Reaches d d') (h' : Reaches d' d'') : Reaches d d'' := by
  induction h' with
  | refl => exact h
  | read medium offset buffer _ ih => exact ih.read medium offset buffer

/-- A read keeps the length of its buffer. -/
theorem fetch_keeps {d₀ d : δ} (h : Reaches d₀ d) (medium : BlockMedium) (offset : Nat)
    (buffer : Bytes) :
    ((fetch medium offset buffer).run d).Keeps Event.OfAcquisition (Reaches d₀)
      fun answer _ => answer.1.length = buffer.length := by
  rw [run_fetch]
  exact Ran.Keeps.ok (by simp) (h.read medium offset buffer) (length_read d medium offset buffer)

end Device

namespace Workspace

variable {δ : Type} [Device δ]

/-- The workspaces that acquisitions can lead to: the device has made reads, and the target has
another content of the same length. -/
structure Reaches (w w' : Workspace δ) : Prop where
  device : Device.Reaches w.device w'.device
  length_target : w'.target.length = w.target.length

/-- A workspace that nothing happens to is reached. -/
theorem Reaches.refl (w : Workspace δ) : Reaches w w := ⟨.refl, rfl⟩

/-- What is reached from a workspace that is reached is reached. -/
theorem Reaches.trans {w w' w'' : Workspace δ} (h : Reaches w w') (h' : Reaches w' w'') :
    Reaches w w'' := ⟨h.device.trans h'.device, h'.length_target.trans h.length_target⟩

end Workspace

/-- The messages about a header. -/
def Header.details (h : Header) : List Event :=
  [.logged (.setName h.setName), .logged (.magic h.magic), .logged (.claimedLength h.length)]

/-- The details of a header are logged one by one. -/
@[simp] theorem Header.run_logDetails {σ : Type} (h : Header) (s : σ) :
    h.logDetails.run s = ⟨.ok (), h.details, s⟩ := rfl

namespace BlockCopy

variable {δ : Type} [Device δ] (c : BlockCopy) (w : Workspace δ)

/-- The answer to the read of the header. -/
def headerAnswer : ReadAnswer δ :=
  Device.read w.device c.medium c.offset.toNat w.scratch.bytes

/-- The workspace after the read of the header. -/
def headerRead : Workspace δ :=
  { w with
    device := (c.headerAnswer w).device, scratch := Header.ofBytes (c.headerAnswer w).buffer }

/-- The number of bytes that the header read ahead claims. -/
def claimed : Nat := (c.headerRead w).scratch.length.toNat

/-- The answer to the read of the image. -/
def imageAnswer : ReadAnswer δ :=
  Device.read (c.headerAnswer w).device c.medium c.offset.toNat (w.target.take (c.claimed w))

/-- The workspace after the read of the image. -/
def imageRead : Workspace δ :=
  { c.headerRead w with
    device := (c.imageAnswer w).device
    target := (c.imageAnswer w).buffer ++ w.target.drop (c.claimed w) }

/-- The events up to the read of the header. -/
def opening : List Event :=
  [.logged (.preparingCopy c.medium c.offset.toNat), .logged .readingHeader,
    .read c.medium c.offset.toNat Header.size]

/-- The message about a read that failed. -/
def readFault (length : Nat) (fault : String) : Event :=
  .logged (.readFailed length c.medium c.offset.toNat fault)

/-- The events of a copy whose header is accepted, up to the read of the image. -/
def transfer : List Event :=
  c.opening ++ (c.headerRead w).scratch.details ++
    [.logged (.copying (c.claimed w)), .read c.medium c.offset.toNat (c.claimed w)]

/-- The courses that a copy can take. -/
inductive Course : Ran (Workspace δ) Nat → Prop
  /-- The header cannot be read. -/
  | headerUnreadable {fault : String} (hfault : (c.headerAnswer w).fault = some fault) :
      Course ⟨.error (.failed .acquisition), c.opening ++ [c.readFault Header.size fault],
        c.headerRead w⟩
  /-- The header's magic word is not an accepted one. -/
  | unrecognized (hread : (c.headerAnswer w).fault = none)
      (hmagic : (c.headerRead w).scratch.recognized = false) :
      Course ⟨.error (.failed (.magicMismatch (c.headerRead w).scratch.magic)),
        c.opening ++ [.logged (.unknownMagic (c.headerRead w).scratch.magic)], c.headerRead w⟩
  /-- The image that the header claims has no room in the target. -/
  | tooLarge (hread : (c.headerAnswer w).fault = none)
      (hmagic : (c.headerRead w).scratch.recognized = true)
      (hroom : w.target.length < c.claimed w) :
      Course ⟨.error (.failed (.imageTooLarge (c.headerRead w).scratch.length w.target.length)),
        c.opening ++ (c.headerRead w).scratch.details ++
          [.logged (.targetTooSmall (c.headerRead w).scratch.length w.target.length)],
        c.headerRead w⟩
  /-- The image cannot be read. -/
  | imageUnreadable {fault : String} (hread : (c.headerAnswer w).fault = none)
      (hmagic : (c.headerRead w).scratch.recognized = true)
      (hroom : c.claimed w ≤ w.target.length) (hfault : (c.imageAnswer w).fault = some fault) :
      Course ⟨.error (.failed .acquisition), c.transfer w ++ [c.readFault (c.claimed w) fault],
        c.imageRead w⟩
  /-- The image is in the target. -/
  | copied (hread : (c.headerAnswer w).fault = none)
      (hmagic : (c.headerRead w).scratch.recognized = true)
      (hroom : c.claimed w ≤ w.target.length) (hread' : (c.imageAnswer w).fault = none) :
      Course ⟨.ok (c.claimed w), c.transfer w, c.imageRead w⟩

/-- The read of the header fills the scratch header with what the device answered, fault or not. -/
theorem run_readScratch :
    c.readScratch.run w =
      continueWith ⟨.ok (), [.read c.medium c.offset.toNat Header.size], c.headerRead w⟩
        fun _ => c.checkRead Header.size (c.headerAnswer w).fault := by
  simp only [readScratch, Workspace.onDevice, run_bind, run_get, run_on, Device.run_fetch,
    continueWith_ok, run_modify, Header.length_bytes, List.nil_append]
  rfl

/-- The read of the image fills the start of the target with what the device answered, fault or
not. -/
theorem run_readTarget (hroom : c.claimed w ≤ w.target.length) :
    (c.readTarget (c.claimed w)).run (c.headerRead w) =
      continueWith ⟨.ok (), [.read c.medium c.offset.toNat (c.claimed w)], c.imageRead w⟩
        fun _ => c.checkRead (c.claimed w) (c.imageAnswer w).fault := by
  have hlen : (w.target.take (c.claimed w)).length = c.claimed w := by
    rw [List.length_take]
    omega
  have hcut : (cut (c.headerRead w).target (c.claimed w) : Attempt (Workspace δ) Bytes) =
      pure (w.target.take (c.claimed w)) := cut_of_le hroom
  simp only [readTarget, Workspace.onDevice, run_bind, run_get, run_on, Device.run_fetch,
    continueWith_ok, run_modify, hcut, run_pure, List.nil_append, hlen]
  rfl

/-- A copy whose header is accepted goes on with the image, if the target has room for it. -/
theorem run_acquire_of_recognized (hread : (c.headerAnswer w).fault = none)
    (hmagic : (c.headerRead w).scratch.recognized = true) :
    c.acquire.run w =
      continueWith ⟨.ok (), c.opening ++ (c.headerRead w).scratch.details, c.headerRead w⟩ fun _ =>
        if c.claimed w ≤ w.target.length then do
          log (.copying (c.claimed w))
          c.readTarget (c.claimed w)
          return c.claimed w
        else
          failWith (.targetTooSmall (c.headerRead w).scratch.length w.target.length)
            (.imageTooLarge (c.headerRead w).scratch.length w.target.length) := by
  simp only [acquire, run_bind, run_log, continueWith_ok, run_readScratch, hread, checkRead,
    run_pure, run_get, Header.requireMagic, Header.checkMagic, hmagic, if_true,
    Header.run_logDetails, opening, List.cons_append, List.nil_append]
  rfl

/-- **Every copy takes one of the five courses.** -/
theorem course : c.Course w (c.acquire.run w) := by
  rcases hread : (c.headerAnswer w).fault with _ | fault
  · rcases hmagic : (c.headerRead w).scratch.recognized with _ | _
    · have h := Course.unrecognized hread hmagic
      simpa [acquire, run_readScratch, hread, hmagic, checkRead, Header.requireMagic,
        Header.checkMagic, opening] using h
    · rw [run_acquire_of_recognized c w hread hmagic, continueWith_ok]
      by_cases hroom : c.claimed w ≤ w.target.length
      · have hrun := run_readTarget c w hroom
        rcases hread' : (c.imageAnswer w).fault with _ | fault
        · have h := Course.copied hread hmagic hroom hread'
          simpa [hroom, hrun, hread', checkRead, transfer, Except.map] using h
        · have h := Course.imageUnreadable hread hmagic hroom hread'
          simpa [hroom, hrun, hread', checkRead, transfer, readFault, Except.map] using h
      · have h := Course.tooLarge hread hmagic (Nat.lt_of_not_le hroom)
        simpa [hroom] using h
  · have h := Course.headerUnreadable hread
    simpa [acquire, run_readScratch, hread, checkRead, opening, readFault] using h

/-! ### What the courses have in common -/

/-- The read of the image leaves a target of the same length. -/
theorem length_target_imageRead (hroom : c.claimed w ≤ w.target.length) :
    (c.imageRead w).target.length = w.target.length := by
  have hbuffer : (c.imageAnswer w).buffer.length = c.claimed w := by
    rw [imageAnswer, Device.length_read, List.length_take]
    omega
  have htarget : (c.imageRead w).target =
      (c.imageAnswer w).buffer ++ w.target.drop (c.claimed w) := rfl
  rw [htarget, List.length_append, hbuffer, List.length_drop]
  omega

/-- The read of the header leads to a workspace that is reached. -/
theorem reaches_headerRead : Workspace.Reaches w (c.headerRead w) :=
  ⟨.read _ _ _ .refl, rfl⟩

/-- So does the read of the image. -/
theorem reaches_imageRead (hroom : c.claimed w ≤ w.target.length) :
    Workspace.Reaches w (c.imageRead w) :=
  ⟨.read _ _ _ (.read _ _ _ .refl), c.length_target_imageRead w hroom⟩

/-- A copy logs and reads. What it gives is the length of a prefix of the target. -/
theorem acquire_keeps : (c.acquire.run w).Keeps Event.OfAcquisition (Workspace.Reaches w)
    fun n w' => n ≤ w'.target.length := by
  rcases hrun : c.acquire.run w with ⟨result, t, w'⟩
  have hcourse := c.course w
  rw [hrun] at hcourse
  cases hcourse with
  | headerUnreadable hfault =>
    exact .failed (by simp [opening, readFault]) (c.reaches_headerRead w)
  | unrecognized hread hmagic =>
    exact .failed (by simp [opening]) (c.reaches_headerRead w)
  | tooLarge hread hmagic hroom =>
    exact .failed (by simp [opening, Header.details]) (c.reaches_headerRead w)
  | imageUnreadable hread hmagic hroom hfault =>
    exact .failed (by simp [transfer, opening, Header.details, readFault])
      (c.reaches_imageRead w hroom)
  | copied hread hmagic hroom hread' =>
    refine .ok (by simp [transfer, opening, Header.details]) (c.reaches_imageRead w hroom) ?_
    rw [c.length_target_imageRead w hroom]
    exact hroom

/-- **What a copy that succeeds has done.** Its last event is the read of the image, of as many
bytes as it gives, and these bytes of the target are what that read answered. -/
theorem course_of_ok {n : Nat} (h : (c.acquire.run w).result = .ok n) :
    n = c.claimed w ∧ (c.imageAnswer w).fault = none ∧
      (∃ earlier, (c.acquire.run w).trace = earlier ++ [.read c.medium c.offset.toNat n]) ∧
      (c.acquire.run w).state.target.take n = (c.imageAnswer w).buffer := by
  rcases hrun : c.acquire.run w with ⟨result, t, w'⟩
  have hcourse := c.course w
  rw [hrun] at hcourse h
  cases hcourse with
  | copied hread hmagic hroom hread' =>
    cases h
    refine ⟨rfl, hread', ⟨c.opening ++ (c.headerRead w).scratch.details ++
      [.logged (.copying (c.claimed w))], by simp [transfer]⟩, ?_⟩
    apply List.take_left'
    rw [imageAnswer, Device.length_read, List.length_take]
    omega
  | _ => cases h

end BlockCopy

end BootImage
