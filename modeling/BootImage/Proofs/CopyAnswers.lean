import BootImage.Proofs.BlockCopy

/-!
# A copy depends on the answers to its reads

A copy does not know what device it reads from: its result, and all that it leaves in scratch header
and target, is a matter of the answers to its one or two reads. Copies on two devices, which may be
of different kinds, therefore come to the same if the devices answer these reads alike.

* `BlockCopy.GoesOn` — when there is a second read.
* `BlockCopy.acquire_of_goesOn`, `BlockCopy.acquire_of_not_goesOn` — what a copy comes to with the
  second read and without it, read off the courses that a copy can take.
* `BlockCopy.sameOutcome` — copies whose reads are answered alike.
-/

namespace BootImage

open Attempt

/-- The reads of a run, in order. -/
def Ran.reads {σ α : Type} (r : Ran σ α) : List (BlockMedium × Nat × Nat) :=
  r.trace.filterMap Event.read?

/-- Answers of two devices that leave the same bytes, and of which both are faults or neither. The
devices may put a fault in different words. -/
structure ReadAnswer.Like {δ δ' : Type} (a : ReadAnswer δ) (a' : ReadAnswer δ') : Prop where
  fault : a.fault = none ↔ a'.fault = none
  buffer : a.buffer = a'.buffer

namespace BlockCopy

variable {δ : Type} [Device δ] (c : BlockCopy) (w : Workspace δ)

/-- The header was read and is accepted, and the target has room for the image. -/
structure GoesOn : Prop where
  read : (c.headerAnswer w).fault = none
  recognized : (c.headerRead w).scratch.recognized = true
  room : c.claimed w ≤ w.target.length

/-- Why a copy stops before the read of the image, if it does. -/
def refusal : Error :=
  if (c.headerAnswer w).fault ≠ none then .acquisition
  else if (c.headerRead w).scratch.recognized = false then
    .magicMismatch (c.headerRead w).scratch.magic
  else .imageTooLarge (c.headerRead w).scratch.length w.target.length

/-- A copy that goes on reads the image, and its result says whether that read failed. -/
theorem acquire_of_goesOn (h : c.GoesOn w) :
    (c.acquire.run w).state = c.imageRead w ∧
      (c.acquire.run w).reads = [(c.medium, c.offset.toNat, Header.size),
        (c.medium, c.offset.toNat, c.claimed w)] ∧
      (c.acquire.run w).result = if (c.imageAnswer w).fault = none then .ok (c.claimed w)
        else .error (.failed .acquisition) := by
  rcases hrun : c.acquire.run w with ⟨result, t, w'⟩
  have hcourse := c.course w
  rw [hrun] at hcourse
  cases hcourse with
  | headerUnreadable hfault => cases h.read.symm.trans hfault
  | unrecognized _ hmagic => cases h.recognized.symm.trans hmagic
  | tooLarge _ _ hroom => exact absurd h.room (Nat.not_le_of_lt hroom)
  | imageUnreadable _ _ _ hfault =>
    rw [if_neg (by simp [hfault])]
    exact ⟨rfl, rfl, rfl⟩
  | copied _ _ _ hread =>
    rw [if_pos hread]
    exact ⟨rfl, rfl, rfl⟩

/-- A copy that does not go on leaves the target alone, and fails. -/
theorem acquire_of_not_goesOn (h : ¬ c.GoesOn w) :
    (c.acquire.run w).state = c.headerRead w ∧
      (c.acquire.run w).reads = [(c.medium, c.offset.toNat, Header.size)] ∧
      (c.acquire.run w).result = .error (.failed (c.refusal w)) := by
  rcases hrun : c.acquire.run w with ⟨result, t, w'⟩
  have hcourse := c.course w
  rw [hrun] at hcourse
  cases hcourse with
  | headerUnreadable hfault => exact ⟨rfl, rfl, by simp [refusal, hfault]⟩
  | unrecognized hread hmagic => exact ⟨rfl, rfl, by simp [refusal, hread, hmagic]⟩
  | tooLarge hread hmagic hroom => exact ⟨rfl, rfl, by simp [refusal, hread, hmagic]⟩
  | imageUnreadable hread hmagic hroom _ => exact absurd ⟨hread, hmagic, hroom⟩ h
  | copied hread hmagic hroom _ => exact absurd ⟨hread, hmagic, hroom⟩ h

/-- A copy only gives up for one of three causes, none of which is a failed lookup. -/
theorem ne_partitionLookup (cause : PartitionError) :
    (c.acquire.run w).result ≠ .error (.failed (.partitionLookup cause)) := by
  by_cases h : c.GoesOn w
  · rw [(c.acquire_of_goesOn w h).2.2]
    split_ifs <;> simp
  · rw [(c.acquire_of_not_goesOn w h).2.2, refusal]
    split_ifs <;> simp

end BlockCopy

/-! ### Copies on two devices -/

section likeness

variable {δ δ' : Type} [Device δ] [Device δ']

/-- Two acquisitions that cannot be told apart by their results, by what they leave in scratch
header and target, and by their reads. -/
structure SameOutcome (r : Ran (Workspace δ) Nat) (r' : Ran (Workspace δ') Nat) : Prop where
  result : r.result = r'.result
  scratch : r.state.scratch = r'.state.scratch
  target : r.state.target = r'.state.target
  reads : r.reads = r'.reads

/-- Workspaces with the same scratch header and the same target. -/
structure Workspace.SameRegions (w : Workspace δ) (w' : Workspace δ') : Prop where
  scratch : w.scratch = w'.scratch
  target : w.target = w'.target

namespace BlockCopy

variable {c : BlockCopy} {w : Workspace δ} {w' : Workspace δ'} (hw : w.SameRegions w')
  (hheader : (c.headerAnswer w).Like (c.headerAnswer w'))

include hw hheader

/-- Like answers fill the scratch header alike. -/
theorem headerRead_like : (c.headerRead w).SameRegions (c.headerRead w') := by
  have hscratch : ∀ {ε : Type} [Device ε] (v : Workspace ε),
      (c.headerRead v).scratch = Header.ofBytes (c.headerAnswer v).buffer := fun _ => rfl
  exact ⟨by rw [hscratch, hscratch, hheader.buffer], hw.target⟩

/-- After like answers the headers claim the same length. -/
theorem claimed_like : c.claimed w = c.claimed w' := by
  rw [claimed, claimed, (headerRead_like hw hheader).scratch]

/-- Both copies go on, or neither does. -/
theorem goesOn_like : c.GoesOn w ↔ c.GoesOn w' := by
  have hscratch := (headerRead_like hw hheader).scratch
  have hclaimed := claimed_like hw hheader
  constructor
  · rintro ⟨hread, hmagic, hroom⟩
    exact ⟨hheader.fault.mp hread, hscratch ▸ hmagic, hclaimed ▸ hw.target ▸ hroom⟩
  · rintro ⟨hread, hmagic, hroom⟩
    exact ⟨hheader.fault.mpr hread, hscratch ▸ hmagic, hclaimed ▸ hw.target ▸ hroom⟩

/-- They are refused for the same cause. -/
theorem refusal_like : c.refusal w = c.refusal w' := by
  have hscratch := (headerRead_like hw hheader).scratch
  unfold refusal
  rw [hscratch, hw.target]
  simp only [ne_eq, hheader.fault]

/-- **Copies whose reads are answered alike come to the same.** -/
theorem sameOutcome (himage : c.GoesOn w → (c.imageAnswer w).Like (c.imageAnswer w')) :
    SameOutcome (c.acquire.run w) (c.acquire.run w') := by
  have hscratch := (headerRead_like hw hheader).scratch
  have hclaimed := claimed_like hw hheader
  by_cases hgoes : c.GoesOn w
  · obtain ⟨hstate, hreads, hresult⟩ := c.acquire_of_goesOn w hgoes
    obtain ⟨hstate', hreads', hresult'⟩ :=
      c.acquire_of_goesOn w' ((goesOn_like hw hheader).mp hgoes)
    have hlike := himage hgoes
    refine ⟨?_, ?_, ?_, ?_⟩
    · rw [hresult, hresult', hclaimed]
      simp only [hlike.fault]
    · rw [hstate, hstate']
      exact hscratch
    · rw [hstate, hstate']
      show (c.imageAnswer w).buffer ++ w.target.drop (c.claimed w) =
        (c.imageAnswer w').buffer ++ w'.target.drop (c.claimed w')
      rw [hlike.buffer, hw.target, hclaimed]
    · rw [hreads, hreads', hclaimed]
  · obtain ⟨hstate, hreads, hresult⟩ := c.acquire_of_not_goesOn w hgoes
    obtain ⟨hstate', hreads', hresult'⟩ :=
      c.acquire_of_not_goesOn w' fun h => hgoes ((goesOn_like hw hheader).mpr h)
    refine ⟨?_, ?_, ?_, ?_⟩
    · rw [hresult, hresult', refusal_like hw hheader]
    · rw [hstate, hstate']
      exact hscratch
    · rw [hstate, hstate']
      exact hw.target
    · rw [hreads, hreads']

end BlockCopy

end likeness

end BootImage
