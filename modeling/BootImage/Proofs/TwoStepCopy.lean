import BootImage.Proofs.CopyAnswers

/-!
# A copy in two steps, by its answers

A header can claim any length of 64 bits, and the device can answer the two reads of a copy as it
likes, leaving anything in the buffer of a read that fails. What a copy does is said here by the two
answers alone: which reads it makes, which of the four outcomes it has, and which bytes of the
target may be others than before.

* `BlockCopy.bytes_scratch` — the scratch header is the answer to the first read, byte by byte.
* `BlockCopy.goesOn_iff` — when there is a second read, by the magic words.
* `BlockCopy.getElem?_target`, `BlockCopy.take_target` — what the target holds behind the image, and
  where the image is.
* `BlockCopy.acquire_two_steps` — a copy as a whole.
-/

namespace BootImage

open Attempt

/-- Two magic words are known. -/
theorem Header.recognized_iff {h : Header} :
    h.recognized = true ↔ h.magic = plainMagic ∨ h.magic = compressedMagic := by
  simp [recognized]

namespace BlockCopy

variable {δ : Type} [Device δ] (c : BlockCopy) (w : Workspace δ)

/-! ### The scratch header and the target -/

/-- The scratch header is what the first read answered, whether it failed or not. -/
theorem bytes_scratch : (c.headerRead w).scratch.bytes = (c.headerAnswer w).buffer := by
  have hlength : (c.headerAnswer w).buffer.length = Header.size :=
    (Device.length_read ..).trans w.scratch.length_bytes
  exact (Header.bytes_ofBytes _).trans (fit_of_length hlength)

/-- A copy goes on if its header can be read, has a known magic word and claims what the target has
room for. -/
theorem goesOn_iff : c.GoesOn w ↔ (c.headerAnswer w).fault = none ∧
    ((c.headerRead w).scratch.magic = Header.plainMagic ∨
      (c.headerRead w).scratch.magic = Header.compressedMagic) ∧
    c.claimed w ≤ w.target.length := by
  rw [← Header.recognized_iff]
  constructor
  · intro hgoes
    exact ⟨hgoes.read, hgoes.recognized, hgoes.room⟩
  · rintro ⟨hread, hmagic, hroom⟩
    exact ⟨hread, hmagic, hroom⟩

variable {c w} (hroom : c.claimed w ≤ w.target.length)

include hroom

/-- The second read answers as many bytes as the header claims. -/
theorem length_imageAnswer : (c.imageAnswer w).buffer.length = c.claimed w := by
  rw [imageAnswer, Device.length_read, List.length_take]
  omega

/-- The read of an image changes nothing behind the image. -/
theorem getElem?_target {i : Nat} (hi : c.claimed w ≤ i) :
    (c.imageRead w).target[i]? = w.target[i]? := by
  have htarget : (c.imageRead w).target =
      (c.imageAnswer w).buffer ++ w.target.drop (c.claimed w) := rfl
  have hlength := length_imageAnswer hroom
  rw [htarget, List.getElem?_append_right (hlength.trans_le hi), List.getElem?_drop, hlength,
    Nat.add_sub_cancel' hi]

/-- What it answers is at the start of the target. -/
theorem take_target : (c.imageRead w).target.take (c.claimed w) = (c.imageAnswer w).buffer :=
  List.take_left' (length_imageAnswer hroom)

omit hroom

/-! ### The outcomes -/

variable (c w)

/-- What a copy is, given the workspace it starts from and its run. -/
structure TwoSteps (ran : Ran (Workspace δ) Nat) : Prop where
  /-- The scratch header is what the first read answered, even if it failed. -/
  scratch : ran.state.scratch.bytes = (c.headerAnswer w).buffer
  /-- There is a second read if the first succeeded, its magic word is an accepted one, and the
  target has room for the bytes that it claims. -/
  goesOn : c.GoesOn w ↔ (c.headerAnswer w).fault = none ∧
    (ran.state.scratch.magic = Header.plainMagic ∨
      ran.state.scratch.magic = Header.compressedMagic) ∧
    ran.state.scratch.length.toNat ≤ w.target.length
  /-- The first read is that of a header. -/
  oneRead : ¬ c.GoesOn w → ran.reads = [(c.medium, c.offset.toNat, Header.size)]
  /-- The second read is at the same place, of the bytes that are claimed. -/
  twoReads : c.GoesOn w → ran.reads = [(c.medium, c.offset.toNat, Header.size),
    (c.medium, c.offset.toNat, ran.state.scratch.length.toNat)]
  /-- A copy succeeds if both reads are made and succeed, and gives the length that is claimed. -/
  succeeds : ∀ n, ran.result = .ok n ↔ c.GoesOn w ∧ (c.imageAnswer w).fault = none ∧
    n = ran.state.scratch.length.toNat
  /-- The start of the target is then what the second read answered. -/
  copied : ∀ n, ran.result = .ok n → n ≤ w.target.length ∧
    ran.state.target.take n = (c.imageAnswer w).buffer
  unreadable : ran.result = .error (.failed .acquisition) ↔
    (c.headerAnswer w).fault ≠ none ∨ c.GoesOn w ∧ (c.imageAnswer w).fault ≠ none
  mismatch : ∀ found, ran.result = .error (.failed (.magicMismatch found)) ↔
    (c.headerAnswer w).fault = none ∧ ran.state.scratch.magic ≠ Header.plainMagic ∧
      ran.state.scratch.magic ≠ Header.compressedMagic ∧ ran.state.scratch.magic = found
  tooLarge : ∀ length capacity, ran.result = .error (.failed (.imageTooLarge length capacity)) ↔
    (c.headerAnswer w).fault = none ∧
      (ran.state.scratch.magic = Header.plainMagic ∨
        ran.state.scratch.magic = Header.compressedMagic) ∧
      w.target.length < ran.state.scratch.length.toNat ∧
      ran.state.scratch.length = length ∧ w.target.length = capacity
  length_target : ran.state.target.length = w.target.length
  /-- Whatever comes of it, the bytes of the target from the claimed length on are kept. -/
  beyond : ∀ i, ran.state.scratch.length.toNat ≤ i → ran.state.target[i]? = w.target[i]?
  /-- Without a second read all of them are. -/
  untouched : ¬ c.GoesOn w → ran.state.target = w.target

/-- A copy that goes on. -/
theorem twoSteps_of_goesOn (h : c.GoesOn w) : c.TwoSteps w (c.acquire.run w) := by
  obtain ⟨hstate, hreads, hresult⟩ := c.acquire_of_goesOn w h
  have hscratch : (c.imageRead w).scratch = (c.headerRead w).scratch := rfl
  have hclaimed : (c.headerRead w).scratch.length.toNat = c.claimed w := rfl
  obtain ⟨hread, hmagic, hroom⟩ := (c.goesOn_iff w).mp h
  have hok : ∀ n, (c.acquire.run w).result = .ok n ↔
      (c.imageAnswer w).fault = none ∧ n = c.claimed w := by
    intro n
    rw [hresult]
    split_ifs with hread'
    · simp [hread', eq_comm]
    · simp [hread']
  have hfailed : ∀ cause, (c.acquire.run w).result = .error (.failed cause) ↔
      (c.imageAnswer w).fault ≠ none ∧ cause = .acquisition := by
    intro cause
    rw [hresult]
    split_ifs with hread'
    · simp [hread']
    · simp [hread', eq_comm]
  constructor
  case scratch => rw [hstate, hscratch, bytes_scratch]
  case goesOn => rw [hstate, hscratch, hclaimed, goesOn_iff]
  case oneRead => exact fun hnot => absurd h hnot
  case twoReads =>
    rw [hstate, hreads, hscratch, hclaimed]
    exact fun _ => rfl
  case succeeds => simp only [hok, h, true_and, hstate, hscratch, hclaimed, implies_true]
  case copied =>
    intro n hn
    obtain ⟨-, rfl⟩ := (hok n).mp hn
    rw [hstate]
    exact ⟨hroom, take_target hroom⟩
  case unreadable => simp [hfailed, h, hread]
  case mismatch =>
    intro found
    rw [hfailed, hstate, hscratch]
    simp only [reduceCtorEq, and_false, false_iff]
    rintro ⟨-, hplain, hcompressed, -⟩
    exact hmagic.elim hplain hcompressed
  case tooLarge =>
    intro length capacity
    rw [hfailed, hstate, hscratch, hclaimed]
    simp only [reduceCtorEq, and_false, false_iff]
    rintro ⟨-, -, hover, -⟩
    exact absurd hroom (Nat.not_le_of_lt hover)
  case length_target => rw [hstate, c.length_target_imageRead w hroom]
  case beyond =>
    rw [hstate, hscratch, hclaimed]
    exact fun i hi => getElem?_target hroom hi
  case untouched => exact fun hnot => absurd h hnot

/-- Why a copy stops before its second read. -/
theorem refusal_cases (h : ¬ c.GoesOn w) :
    (c.headerAnswer w).fault ≠ none ∧ c.refusal w = .acquisition ∨
      (c.headerAnswer w).fault = none ∧ (c.headerRead w).scratch.recognized = false ∧
        c.refusal w = .magicMismatch (c.headerRead w).scratch.magic ∨
      (c.headerAnswer w).fault = none ∧ (c.headerRead w).scratch.recognized = true ∧
        w.target.length < c.claimed w ∧
        c.refusal w = .imageTooLarge (c.headerRead w).scratch.length w.target.length := by
  unfold refusal
  by_cases hread : (c.headerAnswer w).fault = none
  · cases hmagic : (c.headerRead w).scratch.recognized with
    | false => exact .inr (.inl ⟨hread, rfl, by simp [hread]⟩)
    | true =>
      have hroom : w.target.length < c.claimed w :=
        Nat.lt_of_not_le fun hroom => h ⟨hread, hmagic, hroom⟩
      exact .inr (.inr ⟨hread, rfl, hroom, by simp [hread]⟩)
  · exact .inl ⟨hread, if_pos hread⟩

/-- A copy that does not go on. -/
theorem twoSteps_of_not_goesOn (h : ¬ c.GoesOn w) : c.TwoSteps w (c.acquire.run w) := by
  obtain ⟨hstate, hreads, hresult⟩ := c.acquire_of_not_goesOn w h
  have htarget : (c.headerRead w).target = w.target := rfl
  have hclaimed : (c.headerRead w).scratch.length.toNat = c.claimed w := rfl
  have hmagic := (c.headerRead w).scratch.recognized_iff
  have hcases := c.refusal_cases w h
  constructor
  case scratch => rw [hstate, bytes_scratch]
  case goesOn => rw [hstate, hclaimed, goesOn_iff]
  case oneRead => exact fun _ => hreads
  case twoReads => exact fun hgoes => absurd hgoes h
  case succeeds => simp [hresult, h]
  case copied => simp [hresult]
  case unreadable =>
    rw [hresult]
    obtain ⟨hfault, hwhy⟩ | ⟨hread, -, hwhy⟩ | ⟨hread, -, -, hwhy⟩ := hcases
    · simp [hwhy, hfault]
    · simp [hwhy, hread, h]
    · simp [hwhy, hread, h]
  case mismatch =>
    intro found
    rw [hresult, hstate]
    obtain ⟨hfault, hwhy⟩ | ⟨hread, hnot, hwhy⟩ | ⟨-, hknown, -, hwhy⟩ := hcases
    · simp [hwhy, hfault]
    · rw [← Bool.not_eq_true, hmagic, not_or] at hnot
      simp [hwhy, hread, hnot]
    · rw [hmagic] at hknown
      simp only [hwhy, Except.error.injEq, Stop.failed.injEq, reduceCtorEq, false_iff]
      rintro ⟨-, hplain, hcompressed, -⟩
      exact hknown.elim hplain hcompressed
  case tooLarge =>
    intro length capacity
    rw [hresult, hstate, hclaimed, ← hmagic]
    obtain ⟨hfault, hwhy⟩ | ⟨hread, hnot, hwhy⟩ | ⟨hread, hknown, hroom, hwhy⟩ := hcases
    · simp [hwhy, hfault]
    · simp [hwhy, hnot]
    · simp [hwhy, hread, hknown, hroom]
  case length_target => rw [hstate, htarget]
  case beyond =>
    rw [hstate, htarget]
    exact fun _ _ => rfl
  case untouched =>
    rw [hstate, htarget]
    exact fun _ => rfl

/-- **A copy in two steps.** What it reads, how it ends and what it changes, by what the device
answers. -/
theorem acquire_two_steps (c : BlockCopy) (w : Workspace δ) : c.TwoSteps w (c.acquire.run w) := by
  by_cases h : c.GoesOn w
  · exact c.twoSteps_of_goesOn w h
  · exact c.twoSteps_of_not_goesOn w h

end BlockCopy

end BootImage
