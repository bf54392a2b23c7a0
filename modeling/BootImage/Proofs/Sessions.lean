import BootImage.Selection
import Mathlib.Tactic.Common

/-!
# The selection stays in step with its region

A region that keeps the selected medium is opened, stored to, closed, erased and stored to by others
in any order, while its flash starts and ceases to fail. The selection that the program holds is a
copy of what is in the region: it is made when the region is opened, and changed only after a store
that succeeded.

* `inStep_step`, `inStep_after` — a step, and so every run, keeps the selection in step with the
  region: while it is open, the selection is what the stored bytes stand for (`Session.InStep`).
* `value_of_not_writes`, `value_after_of_spares` — nothing but a store that succeeds and an erasure
  changes the stored bytes, and a run without either leaves them alone (`Session.Spares`).
* `Selection.load_of_opens`, `Cell.not_opens_iff` — what is selected when a region is opened, and
  what keeps it from being opened.
* `follows_flash` — what this comes to at any moment of a run (`Session.FollowsFlash`).

Several byte strings stand for one medium, and bytes after it do not count. The selection is
therefore compared with what the stored bytes stand for, and not with the bytes.
-/

namespace BootImage

/-! ### What is stored -/

/-- A medium that is written reads as itself. -/
theorem BootMedium.deserializeFrom_encode (m : BootMedium) : deserializeFrom m.encode = .ok m := by
  have hencode : m.encode = [UInt8.ofNat m.index] := by
    rw [encode, Wire.ofNat, if_pos]
    cases m <;> decide
  rw [hencode]
  cases m <;> rfl

namespace Cell

/-- What the stored bytes stand for: nothing if there are none, a medium, or nothing that can be
told. -/
def decoded (c : Cell) : Except ValueError (Option BootMedium) :=
  match c.value with
  | none => .ok none
  | some stored => (BootMedium.deserializeFrom stored).map some

/-- No bytes stand for no medium. -/
theorem decoded_of_none {c : Cell} (h : c.value = none) : c.decoded = .ok none := by
  rw [decoded, h]

/-- Bytes stand for what they decode to. -/
theorem decoded_of_some {c : Cell} {stored : Bytes} (h : c.value = some stored) :
    c.decoded = (BootMedium.deserializeFrom stored).map some := by
  rw [decoded, h]

/-- What is stored cannot be told exactly if there are stored bytes that do not decode. -/
theorem decoded_eq_error {c : Cell} {cause : ValueError} :
    c.decoded = .error cause ↔
      ∃ stored, c.value = some stored ∧ BootMedium.deserializeFrom stored = .error cause := by
  rcases hvalue : c.value with _ | stored
  · simp [decoded_of_none hvalue]
  · rw [decoded_of_some hvalue]
    rcases hread : BootMedium.deserializeFrom stored with cause' | m <;> simp [Except.map, hread]

/-- A flash that can be read gives what the stored bytes stand for. -/
theorem fetch_of_readable {c : Cell} (hreads : c.readsFail = false) :
    c.fetch = c.decoded.mapError .undecodable := by
  rcases hvalue : c.value with _ | stored
  · simp [fetch, hreads, hvalue, decoded_of_none hvalue, Except.mapError]
  · rcases hread : BootMedium.deserializeFrom stored with cause | m <;>
      simp [fetch, hreads, hvalue, decoded_of_some hvalue, hread, Except.map, Except.mapError]

/-- A region can be opened: it is as many pages as it should be, its size is a number of 32 bits,
its flash can be read, and it is known what its stored bytes stand for. -/
structure Opens (c : Cell) (pages : Nat) (selected : Option BootMedium) : Prop where
  pages : c.hasPages pages = true
  size : c.capacity < UInt32.size
  readable : c.readsFail = false
  decoded : c.decoded = .ok selected

end Cell

namespace Selection

/-- **Opening a region gives what is stored there, if it can be opened.** -/
theorem load_of_opens {pages : Nat} {c : Cell} {selected : Option BootMedium}
    (h : c.Opens pages selected) : (load pages c).2 = .ok ⟨selected, false⟩ := by
  have hfetch : c.fetch = .ok selected := by
    rw [Cell.fetch_of_readable h.readable, h.decoded]
    rfl
  rw [load, h.pages, if_neg (by simp), if_neg (Nat.not_le_of_lt h.size), hfetch]
  cases selected with
  | none => rfl
  | some medium => rfl

/-- If it cannot be opened, opening it fails. -/
theorem load_of_not_opens {pages : Nat} {c : Cell} (h : ∀ selected, ¬ c.Opens pages selected) :
    (load pages c).2 = .error .storage := by
  unfold load
  split_ifs with hpages hsize
  · rfl
  · rfl
  · rcases hreads : c.readsFail with _ | _
    · rw [Cell.fetch_of_readable hreads]
      rcases hdecoded : c.decoded with cause | selected
      · rfl
      · exact absurd ⟨by simpa using hpages, Nat.lt_of_not_le hsize, hreads, hdecoded⟩ (h selected)
    · rw [Cell.fetch, hreads]
      rfl

/-- A store either writes the medium and selects it, or fails and leaves the selected medium. -/
theorem store_cases (s : Selection) (c : Cell) (medium : BootMedium) :
    ((c.store s.located medium.encode).1 = .ok () ∧ s.store c medium =
        ⟨[.storing medium], .ok (), ⟨some medium, true⟩, (c.store s.located medium.encode).2⟩) ∨
      ∃ fault, (c.store s.located medium.encode).1 = .error fault ∧ s.store c medium =
        ⟨[.storing medium, .storeFailed fault], .error .storage, { s with located := false },
          (c.store s.located medium.encode).2⟩ := by
  unfold store
  rcases c.store s.located medium.encode with ⟨fault | _, cell⟩
  · exact .inr ⟨fault, rfl, rfl⟩
  · exact .inl ⟨rfl, rfl⟩

end Selection

namespace Cell

/-- Cells with the same bytes stand for the same. -/
theorem decoded_congr {c c' : Cell} (h : c'.value = c.value) : c'.decoded = c.decoded := by
  rw [decoded, decoded, h]

/-- A store leaves the region where it is. -/
theorem region_of_store (c : Cell) (located : Bool) (value : Bytes) :
    (c.store located value).2.capacity = c.capacity ∧
      (c.store located value).2.eraseSize = c.eraseSize := by
  unfold store
  split_ifs <;> exact ⟨rfl, rfl⟩

/-- The number of pages is a matter of two sizes. -/
theorem hasPages_congr {c c' : Cell} (hcapacity : c'.capacity = c.capacity)
    (herase : c'.eraseSize = c.eraseSize) (pages : Nat) : c'.hasPages pages = c.hasPages pages := by
  rw [hasPages, hasPages, pageCount, pageCount, hcapacity, herase]

/-- A region is a number of pages exactly if its size is that many times the size of a page. -/
theorem hasPages_iff {c : Cell} (herase : 0 < c.eraseSize) {pages : Nat} :
    c.hasPages pages = true ↔ c.capacity = pages * c.eraseSize := by
  have hspelled : c.hasPages pages = true ↔
      c.capacity % c.eraseSize = 0 ∧ c.capacity / c.eraseSize = pages := by
    unfold hasPages
    rw [Bool.and_eq_true, decide_eq_true_iff, decide_eq_true_iff]
    rfl
  rw [hspelled]
  constructor
  · rintro ⟨hmod, rfl⟩
    exact (Nat.div_mul_cancel (Nat.dvd_of_mod_eq_zero hmod)).symm
  · intro h
    rw [h]
    exact ⟨Nat.mul_mod_left _ _, Nat.mul_div_cancel _ herase⟩

/-- What keeps a region from being opened. -/
theorem not_opens_iff {c : Cell} (herase : 0 < c.eraseSize) {pages : Nat} :
    (∀ selected, ¬ c.Opens pages selected) ↔
      c.capacity ≠ pages * c.eraseSize ∨ UInt32.size ≤ c.capacity ∨ c.readsFail = true ∨
        ∃ stored cause, c.value = some stored ∧
          BootMedium.deserializeFrom stored = .error cause := by
  constructor
  · intro h
    by_contra hnone
    simp only [not_or, not_not, Nat.not_le, Bool.not_eq_true] at hnone
    obtain ⟨hcapacity, hsize, hreads, hdecodes⟩ := hnone
    rcases hdecoded : c.decoded with cause | selected
    · obtain ⟨stored, hstored⟩ := decoded_eq_error.mp hdecoded
      exact hdecodes ⟨stored, cause, hstored⟩
    · exact h selected ⟨(hasPages_iff herase).mpr hcapacity, hsize, hreads, hdecoded⟩
  · rintro (hcapacity | hsize | hreads | ⟨stored, cause, hstored⟩) selected hopens
    · exact hcapacity ((hasPages_iff herase).mp hopens.pages)
    · exact Nat.not_lt_of_le hsize hopens.size
    · cases hreads.symm.trans hopens.readable
    · cases (decoded_eq_error.mpr ⟨stored, hstored⟩).symm.trans hopens.decoded

end Cell

/-! ### One step -/

namespace Session

variable {s : Session}

/-- The selected medium, while the region is open. -/
def get (s : Session) : Option (Option BootMedium) := s.selection.map (·.selected)

/-- The selection is in step with the region: while it is open, it is what the stored bytes stand
for, and the region has the size that it should have. -/
structure InStep (s : Session) : Prop where
  decoded : ∀ selected, s.get = some selected → s.cell.decoded = .ok selected
  pages : ∀ selected, s.get = some selected → s.cell.hasPages s.pages = true
  size : ∀ selected, s.get = some selected → s.cell.capacity < UInt32.size

/-- A region that is closed is in step. -/
theorem inStep_of_closed (h : s.selection = none) : s.InStep := by
  have hget : ∀ selected, s.get ≠ some selected := by simp [get, h]
  exact ⟨fun _ h => absurd h (hget _), fun _ h => absurd h (hget _), fun _ h => absurd h (hget _)⟩

/-- Opening a region that can be opened selects what is stored there. -/
theorem step_reopen_of_opens {selected : Option BootMedium} (h : s.cell.Opens s.pages selected) :
    (s.step .reopen).outcome = .ok () ∧
      (s.step .reopen).session = { s with selection := some ⟨selected, false⟩ } := by
  have hload := Selection.load_of_opens h
  rcases hrun : Selection.load s.pages s.cell with ⟨messages, outcome⟩
  rw [hrun] at hload
  obtain rfl : outcome = .ok ⟨selected, false⟩ := hload
  rw [step, hrun]
  exact ⟨rfl, rfl⟩

/-- A region that cannot be opened stays closed. -/
theorem step_reopen_of_not_opens (h : ∀ selected, ¬ s.cell.Opens s.pages selected) :
    (s.step .reopen).outcome = .error .storage ∧
      (s.step .reopen).session = { s with selection := none } := by
  have hload := Selection.load_of_not_opens h
  rcases hrun : Selection.load s.pages s.cell with ⟨messages, outcome⟩
  rw [hrun] at hload
  obtain rfl : outcome = .error .storage := hload
  rw [step, hrun]
  exact ⟨rfl, rfl⟩

/-- Opening a region changes nothing but the selection. -/
theorem session_reopen (s : Session) :
    ∃ selection, (s.step .reopen).session = { s with selection := selection } := by
  by_cases h : ∃ selected, s.cell.Opens s.pages selected
  · obtain ⟨selected, h⟩ := h
    exact ⟨_, (step_reopen_of_opens h).2⟩
  · exact ⟨_, (step_reopen_of_not_opens (not_exists.mp h)).2⟩

/-- A region with stored bytes that do not decode cannot be opened. -/
theorem step_reopen_of_undecodable {stored : Bytes} {cause : ValueError}
    (hvalue : s.cell.value = some stored)
    (hread : BootMedium.deserializeFrom stored = .error cause) :
    (s.step .reopen).outcome = .error .storage := by
  refine (step_reopen_of_not_opens ?_).1
  intro selected hopens
  cases (Cell.decoded_eq_error.mpr ⟨stored, hvalue, hread⟩).symm.trans hopens.decoded

/-- A store to a closed region does nothing. -/
theorem step_store_of_closed (hclosed : s.selection = none) (medium : BootMedium) :
    s.step (.store medium) = silently s := by
  rw [step, hclosed]

/-- A store to an open region is that of its selection. -/
theorem step_store_of_open {selection : Selection} (hopen : s.selection = some selection)
    (medium : BootMedium) : s.step (.store medium) =
      ⟨(selection.store s.cell medium).messages, (selection.store s.cell medium).outcome,
        { s with
          cell := (selection.store s.cell medium).cell
          selection := some (selection.store s.cell medium).selection }⟩ := by
  rw [step, hopen]

/-- A store to an open region writes the medium and selects it, or changes neither the stored bytes
nor the selected medium. -/
theorem step_store_cases {selected : Option BootMedium} (hopen : s.get = some selected)
    (medium : BootMedium) :
    ((s.step (.store medium)).outcome = .ok () ∧
        (s.step (.store medium)).session.get = some (some medium) ∧
        (s.step (.store medium)).session.cell.value = some medium.encode) ∨
      ((s.step (.store medium)).outcome = .error .storage ∧
        (s.step (.store medium)).session.get = some selected ∧
        (s.step (.store medium)).session.cell.value = s.cell.value) := by
  obtain ⟨selection, hselection, rfl⟩ := Option.map_eq_some_iff.mp hopen
  rw [step_store_of_open hselection]
  rcases selection.store_cases s.cell medium with ⟨hstore, hrun⟩ | ⟨fault, hstore, hrun⟩
  · rw [hrun]
    exact .inl ⟨rfl, rfl, Cell.value_of_store_ok hstore⟩
  · rw [hrun]
    exact .inr ⟨rfl, rfl, Cell.value_of_store_error hstore⟩

/-- No step moves the region or changes its size. -/
theorem region_of_step (s : Session) (x : SessionStep) :
    (s.step x).session.pages = s.pages ∧ (s.step x).session.cell.capacity = s.cell.capacity ∧
      (s.step x).session.cell.eraseSize = s.cell.eraseSize := by
  cases x with
  | reopen =>
    obtain ⟨selection, hsession⟩ := session_reopen s
    rw [hsession]
    exact ⟨rfl, rfl, rfl⟩
  | store medium =>
    rcases hselection : s.selection with _ | selection
    · rw [step_store_of_closed hselection]
      exact ⟨rfl, rfl, rfl⟩
    · have hregion := s.cell.region_of_store selection.located medium.encode
      rw [step_store_of_open hselection]
      rcases selection.store_cases s.cell medium with ⟨-, hrun⟩ | ⟨fault, -, hrun⟩
      · rw [hrun]
        exact ⟨rfl, hregion⟩
      · rw [hrun]
        exact ⟨rfl, hregion⟩
  | storeRaw value => exact ⟨rfl, s.cell.region_of_store false value⟩
  | faults reads writes => exact ⟨rfl, rfl, rfl⟩
  | close => exact ⟨rfl, rfl, rfl⟩
  | erase => exact ⟨rfl, rfl, rfl⟩
  | look => exact ⟨rfl, rfl, rfl⟩

/-- **A step keeps the selection in step with the region.** -/
theorem inStep_step (h : s.InStep) (x : SessionStep) : (s.step x).session.InStep := by
  cases x with
  | reopen =>
    by_cases hopens : ∃ selected, s.cell.Opens s.pages selected
    · obtain ⟨selected, hopens⟩ := hopens
      rw [(step_reopen_of_opens hopens).2]
      refine ⟨?_, fun _ _ => hopens.pages, fun _ _ => hopens.size⟩
      intro selected' hget
      cases hget
      exact hopens.decoded
    · rw [(step_reopen_of_not_opens (not_exists.mp hopens)).2]
      exact inStep_of_closed rfl
  | store medium =>
    rcases hget : s.get with _ | selected
    · have hclosed : s.selection = none := Option.map_eq_none_iff.mp hget
      rw [step_store_of_closed hclosed]
      exact h
    · obtain ⟨hpages, hcapacity, herase⟩ := region_of_step s (.store medium)
      refine ⟨?_, ?_, ?_⟩
      · rcases step_store_cases hget medium with ⟨-, hget', hvalue⟩ | ⟨-, hget', hvalue⟩
        · intro selected' hselected'
          cases hget'.symm.trans hselected'
          rw [Cell.decoded_of_some hvalue, BootMedium.deserializeFrom_encode]
          rfl
        · intro selected' hselected'
          cases hget'.symm.trans hselected'
          rw [Cell.decoded_congr hvalue]
          exact h.decoded _ hget
      · intro _ _
        rw [hpages, Cell.hasPages_congr hcapacity herase]
        exact h.pages _ hget
      · intro _ _
        rw [hcapacity]
        exact h.size _ hget
  | storeRaw value => exact inStep_of_closed rfl
  | faults reads writes => exact ⟨h.decoded, h.pages, h.size⟩
  | close => exact inStep_of_closed rfl
  | erase => exact inStep_of_closed rfl
  | look => exact h

/-! ### Runs -/

/-- The session after a run of steps. -/
def after (s : Session) : List SessionStep → Session
  | [] => s
  | x :: steps => (s.step x).session.after steps

/-- **A run keeps the selection in step with the region.** -/
theorem inStep_after (h : s.InStep) (steps : List SessionStep) : (s.after steps).InStep := by
  induction steps generalizing s with
  | nil => exact h
  | cons x steps ih => exact ih (inStep_step h x)

/-- No run moves the region or changes its size. -/
theorem region_after (s : Session) (steps : List SessionStep) :
    (s.after steps).pages = s.pages ∧ (s.after steps).cell.capacity = s.cell.capacity ∧
      (s.after steps).cell.eraseSize = s.cell.eraseSize := by
  induction steps generalizing s with
  | nil => exact ⟨rfl, rfl, rfl⟩
  | cons x steps ih =>
    obtain ⟨hpages, hcapacity, herase⟩ := ih (s.step x).session
    obtain ⟨hpages', hcapacity', herase'⟩ := region_of_step s x
    exact ⟨hpages.trans hpages', hcapacity.trans hcapacity', herase.trans herase'⟩

/-- A step writes the region: it stores and that succeeds, or it erases. -/
def Writes (s : Session) : SessionStep → Prop
  | .store medium => s.selection.isSome ∧ (s.step (.store medium)).outcome = .ok ()
  | .storeRaw value => (s.cell.store false value).1 = .ok ()
  | .erase => True
  | .reopen | .faults _ _ | .close | .look => False

/-- No step of a run writes the region. -/
def Spares (s : Session) : List SessionStep → Prop
  | [] => True
  | x :: steps => ¬ s.Writes x ∧ (s.step x).session.Spares steps

/-- A step that does not write the region leaves the stored bytes. -/
theorem value_of_not_writes {x : SessionStep} (h : ¬ s.Writes x) :
    (s.step x).session.cell.value = s.cell.value := by
  cases x with
  | reopen =>
    obtain ⟨selection, hsession⟩ := session_reopen s
    rw [hsession]
  | store medium =>
    rcases hget : s.get with _ | selected
    · have hclosed : s.selection = none := Option.map_eq_none_iff.mp hget
      rw [step_store_of_closed hclosed]
      rfl
    · rcases step_store_cases hget medium with ⟨hok, -, -⟩ | ⟨-, -, hvalue⟩
      · have hopen : s.selection.isSome := by
          obtain ⟨selection, hselection, -⟩ := Option.map_eq_some_iff.mp hget
          rw [hselection]
          rfl
        exact absurd ⟨hopen, hok⟩ h
      · exact hvalue
  | storeRaw value =>
    rcases hstore : (s.cell.store false value).1 with fault | _
    · exact Cell.value_of_store_error hstore
    · exact absurd hstore h
  | faults reads writes => rfl
  | close => rfl
  | erase => exact absurd trivial h
  | look => rfl

/-- **A run that does not write the region leaves the stored bytes.** -/
theorem value_after_of_spares {steps : List SessionStep} (h : s.Spares steps) :
    (s.after steps).cell.value = s.cell.value := by
  induction steps generalizing s with
  | nil => rfl
  | cons x steps ih => exact (ih h.2).trans (value_of_not_writes h.1)

/-! ### At any moment -/

/-- A medium that is stored stays the selected one, while the region is open, until the region is
written again. -/
theorem get_after_store (h : s.InStep) {medium : BootMedium} {selected : Option BootMedium}
    (hvalue : s.cell.value = some medium.encode) {later : List SessionStep}
    (hspares : s.Spares later) (hget : (s.after later).get = some selected) :
    selected = some medium := by
  have hdecoded := (inStep_after h later).decoded _ hget
  rw [Cell.decoded_of_some ((value_after_of_spares hspares).trans hvalue),
    BootMedium.deserializeFrom_encode] at hdecoded
  exact (Except.ok.inj hdecoded).symm

/-- A store that fails changes neither the selected medium nor the stored bytes. -/
theorem step_store_of_error {medium : BootMedium} {cause : Error}
    (herror : (s.step (.store medium)).outcome = .error cause) :
    (s.step (.store medium)).session.get = s.get ∧
      (s.step (.store medium)).session.cell.value = s.cell.value := by
  rcases hget : s.get with _ | selected
  · rw [step_store_of_closed (Option.map_eq_none_iff.mp hget)]
    exact ⟨hget, rfl⟩
  · rcases step_store_cases hget medium with ⟨hok, -, -⟩ | ⟨-, hget', hvalue⟩
    · cases hok.symm.trans herror
    · exact ⟨hget', hvalue⟩

/-- An open region that is not written can be opened again, once its flash can be read. -/
theorem opens_after_of_spares (h : s.InStep) {selected : Option BootMedium}
    (hget : s.get = some selected) {later : List SessionStep} (hspares : s.Spares later)
    (hreads : (s.after later).cell.readsFail = false) :
    (s.after later).cell.Opens (s.after later).pages selected := by
  obtain ⟨hpages, hcapacity, herase⟩ := region_after s later
  refine ⟨?_, ?_, hreads, ?_⟩
  · rw [hpages, Cell.hasPages_congr hcapacity herase]
    exact h.pages _ hget
  · rw [hcapacity]
    exact h.size _ hget
  · rw [Cell.decoded_congr (value_after_of_spares hspares)]
    exact h.decoded _ hget

/-- Opening a region fails exactly if it cannot be opened. -/
theorem outcome_reopen : (s.step .reopen).outcome = .error .storage ↔
    ∀ selected, ¬ s.cell.Opens s.pages selected := by
  constructor
  · intro herror selected hopens
    cases (step_reopen_of_opens hopens).1.symm.trans herror
  · exact fun h => (step_reopen_of_not_opens h).1

/-- A region that was erased can be opened, with nothing selected, until it is written again, if it
has the size that it should have and its flash can be read then. -/
theorem opens_after_erase (herase : 0 < s.cell.eraseSize) {later : List SessionStep}
    (hspares : (s.step .erase).session.Spares later)
    (hcapacity : s.cell.capacity = s.pages * s.cell.eraseSize)
    (hsize : s.cell.capacity < UInt32.size)
    (hreads : ((s.step .erase).session.after later).cell.readsFail = false) :
    ((s.step .erase).session.after later).cell.Opens
      ((s.step .erase).session.after later).pages none := by
  obtain ⟨hpages', hcapacity', herase'⟩ := region_after (s.step .erase).session later
  obtain ⟨hpages, hcapacity'', herase''⟩ := region_of_step s .erase
  refine ⟨?_, ?_, hreads, ?_⟩
  · rw [hpages', hpages, Cell.hasPages_congr (hcapacity'.trans hcapacity'')
      (herase'.trans herase'')]
    exact (Cell.hasPages_iff herase).mpr hcapacity
  · rw [hcapacity', hcapacity'']
    exact hsize
  · exact Cell.decoded_of_none (value_after_of_spares hspares)

/-- What there is to say of a region and its selection at any moment of a run, and of what may come
after it. -/
structure FollowsFlash (s : Session) : Prop where
  /-- While the region is open, the selected medium is what the stored bytes stand for. -/
  opened : ∀ selected, s.get = some selected → s.cell.decoded = .ok selected
  /-- A medium that is stored is the selected one, and it stays so, while the region is open, until
  the region is written again. -/
  stored : ∀ medium, s.get.isSome → (s.step (.store medium)).outcome = .ok () →
    (s.step (.store medium)).session.get = some (some medium) ∧
      ∀ later, (s.step (.store medium)).session.Spares later → ∀ selected,
        ((s.step (.store medium)).session.after later).get = some selected →
          selected = some medium
  /-- A store that fails changes neither the selected medium nor the stored bytes. -/
  failed : ∀ medium cause, (s.step (.store medium)).outcome = .error cause →
    (s.step (.store medium)).session.get = s.get ∧
      (s.step (.store medium)).session.cell.value = s.cell.value
  /-- An open region can be opened again at any later moment, unless it was written or its flash
  cannot be read then, and has the same medium selected. -/
  reopened : ∀ selected later, s.get = some selected → s.Spares later →
    (s.after later).cell.readsFail = false →
      ((s.after later).step .reopen).outcome = .ok () ∧
        ((s.after later).step .reopen).session.get = some selected
  /-- The region cannot be opened exactly if its size is not that of its pages, or is no number of
  32 bits, or its flash cannot be read, or there are stored bytes that do not decode. -/
  refused : (s.step .reopen).outcome = .error .storage ↔
    s.cell.capacity ≠ s.pages * s.cell.eraseSize ∨ UInt32.size ≤ s.cell.capacity ∨
      s.cell.readsFail = true ∨ ∃ stored cause, s.cell.value = some stored ∧
        BootMedium.deserializeFrom stored = .error cause
  /-- In all other cases it is opened, and what the stored bytes stand for is selected. -/
  accepted : (s.step .reopen).outcome = .error .storage ∨
    (s.step .reopen).outcome = .ok () ∧
      ∃ selected, (s.step .reopen).session.get = some selected ∧ s.cell.decoded = .ok selected
  /-- Opening the region, or failing to, does not change it. -/
  untouched : (s.step .reopen).session.cell = s.cell
  /-- After bytes were stored that do not decode, the region cannot be opened until it is written
  again. -/
  shut : ∀ value cause, BootMedium.deserializeFrom value = .error cause →
    (s.cell.store false value).1 = .ok () →
      ∀ later, (s.step (.storeRaw value)).session.Spares later →
        (((s.step (.storeRaw value)).session.after later).step .reopen).outcome = .error .storage
  /-- An erasure closes the region and leaves no stored bytes. Until it is written again the region
  opens with nothing selected, if it has the size that it should have and its flash can be read
  then. -/
  erased : (s.step .erase).session.get = none ∧ (s.step .erase).session.cell.value = none ∧
    ∀ later, (s.step .erase).session.Spares later →
      s.cell.capacity = s.pages * s.cell.eraseSize → s.cell.capacity < UInt32.size →
        ((s.step .erase).session.after later).cell.readsFail = false →
          (((s.step .erase).session.after later).step .reopen).outcome = .ok () ∧
            (((s.step .erase).session.after later).step .reopen).session.get = some none

/-- **The selection follows the flash**, after any run from a region that was closed. -/
theorem follows_flash (s₀ : Session) (hclosed : s₀.selection = none)
    (herase : 0 < s₀.cell.eraseSize) (earlier : List SessionStep) :
    (s₀.after earlier).FollowsFlash := by
  have hstep : (s₀.after earlier).InStep := inStep_after (inStep_of_closed hclosed) earlier
  have herase' : 0 < (s₀.after earlier).cell.eraseSize := by
    rw [(region_after s₀ earlier).2.2]
    exact herase
  -- Of the run so far no more is needed than that it kept the selection in step.
  generalize s₀.after earlier = s at hstep herase'
  refine ⟨hstep.decoded, ?_, ?_, ?_, ?_, ?_, ?_, ?_, rfl, rfl, ?_⟩
  · intro medium hopen hok
    obtain ⟨selected, hget⟩ := Option.isSome_iff_exists.mp hopen
    rcases step_store_cases hget medium with ⟨-, hget', hvalue⟩ | ⟨herror, -, -⟩
    · exact ⟨hget', fun later hspares selected' hselected' =>
        get_after_store (inStep_step hstep _) hvalue hspares hselected'⟩
    · cases herror.symm.trans hok
  · intro medium cause herror
    exact step_store_of_error herror
  · intro selected later hget hspares hreads
    obtain ⟨houtcome, hsession⟩ :=
      step_reopen_of_opens (opens_after_of_spares hstep hget hspares hreads)
    rw [hsession]
    exact ⟨houtcome, rfl⟩
  · rw [outcome_reopen, Cell.not_opens_iff herase']
  · by_cases hopens : ∃ selected, s.cell.Opens s.pages selected
    · obtain ⟨selected, hopens⟩ := hopens
      obtain ⟨houtcome, hsession⟩ := step_reopen_of_opens hopens
      rw [hsession]
      exact .inr ⟨houtcome, selected, rfl, hopens.decoded⟩
    · exact .inl (outcome_reopen.mpr (not_exists.mp hopens))
  · obtain ⟨selection, hsession⟩ := session_reopen s
    rw [hsession]
  · intro value cause hread hok later hspares
    have hvalue := (value_after_of_spares hspares).trans (Cell.value_of_store_ok hok)
    exact step_reopen_of_undecodable hvalue hread
  · intro later hspares hcapacity hsize hreads
    obtain ⟨houtcome, hsession⟩ :=
      step_reopen_of_opens (opens_after_erase herase' hspares hcapacity hsize hreads)
    rw [hsession]
    exact ⟨houtcome, rfl⟩

/-- A run that stores a medium and then fails to store another one. -/
theorem run_follows_flash : (Session.new 4 4096 1024).selection = none ∧
    0 < (Session.new 4 4096 1024).cell.eraseSize ∧
    ((Session.new 4 4096 1024).after
      [.reopen, .store .mmc, .faults true true, .store .qspi]).get = some (some .mmc) ∧
    ((Session.new 4 4096 1024).after
      [.reopen, .store .mmc, .faults true true, .store .qspi]).FollowsFlash := by
  refine ⟨rfl, by decide, by decide +kernel, follows_flash _ rfl (by decide) _⟩

end Session

end BootImage
