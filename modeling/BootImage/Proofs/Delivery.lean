import BootImage.Proofs.Preparation

/-!
# What a preparation delivers, and what it leaves alone

The courses of a preparation are read here for the facts that later files cite.

* `prepare_eq_ok` — a preparation gives a candidate exactly when a medium is selected, its strategy
  acquires an image, and the image, if it is compressed, can be unpacked (`Pipeline.Delivers`). The
  candidate is then determined.
* `prepare_keeps` — a preparation logs, reads and unpacks. It changes neither the launcher nor the
  selection nor anything the pipeline was built with (`Pipeline.Prepares`), and a candidate that it
  gives is at the start of the region that it is said to be in.
* `Pipeline.Evolves` — what no request at all changes: the collaborators answer from states that
  calls to them lead to, and regions keep their lengths.
-/

namespace BootImage

open Attempt

/-- The staging region keeps its length when an image is moved there. -/
theorem Location.map_length_moved {image : Bytes} {length : Nat} {staging : Option Bytes}
    (hlen : image.length = length) (hmove : (inTarget length).Movable staging) :
    ((inTarget length).moved image staging).map List.length = staging.map List.length := by
  obtain ⟨region, rfl, hroom⟩ := hmove
  simp only [moved, Option.map_some, List.length_append, hlen, List.length_drop]
  rw [Nat.add_sub_cancel' hroom]

/-! ### What collaborators can become -/

/-- The states that a decompressor can get into by calls. -/
inductive Decompressor.Reaches {ζ : Type} [Decompressor ζ] (z : ζ) : ζ → Prop
  | refl : Reaches z z
  | unpack {z' : ζ} (input output : Bytes) (h : Reaches z z') :
      Reaches z (Decompressor.unpack z' input output).decompressor

/-- Calls can go on after calls. -/
theorem Decompressor.Reaches.trans {ζ : Type} [Decompressor ζ] {z z' z'' : ζ}
    (h : Reaches z z') (h' : Reaches z' z'') : Reaches z z'' := by
  induction h' with
  | refl => exact h
  | unpack input output _ ih => exact ih.unpack input output

/-- The states that a launcher can get into by registrations and starts. -/
inductive Launcher.Reaches {ℓ : Type} [Launcher ℓ] (l : ℓ) : ℓ → Prop
  | refl : Reaches l l
  | register {l' : ℓ} (image : Bytes) (h : Reaches l l') : Reaches l (Launcher.register l' image)
  | start {l' : ℓ} (call : LaunchCall) (h : Reaches l l') : Reaches l (Launcher.start l' call).2

/-- Calls can go on after calls. -/
theorem Launcher.Reaches.trans {ℓ : Type} [Launcher ℓ] {l l' l'' : ℓ}
    (h : Reaches l l') (h' : Reaches l' l'') : Reaches l l'' := by
  induction h' with
  | refl => exact h
  | register image _ ih => exact ih.register image
  | start call _ ih => exact ih.start call

namespace Pipeline

variable {δ ζ ℓ : Type} [Device δ] [Decompressor ζ] [Launcher ℓ] {p p' p'' : Pipeline δ ζ ℓ}

/-- The pipelines that requests can lead to: what the pipeline was built with is the same, and the
collaborators and regions are those that calls and writes can leave. -/
structure Evolves (p p' : Pipeline δ ζ ℓ) : Prop where
  crc : p'.crc = p.crc
  config : p'.config = p.config
  payload : p'.payload = p.payload
  window : p'.window = p.window
  workspace : p.toWorkspace.Reaches p'.toWorkspace
  decompressor : Option.Rel Decompressor.Reaches p.decompressor p'.decompressor
  staging : p'.staging.map List.length = p.staging.map List.length
  launcher : Launcher.Reaches p.launcher p'.launcher

/-- A decompressor that is not called is in a state that calls lead to. -/
theorem reaches_refl_option (z : Option ζ) : Option.Rel Decompressor.Reaches z z := by
  cases z with
  | none => exact .none
  | some z => exact .some .refl

/-- A pipeline that nothing happens to evolves into itself. -/
theorem Evolves.refl (p : Pipeline δ ζ ℓ) : Evolves p p :=
  ⟨rfl, rfl, rfl, rfl, .refl _, reaches_refl_option _, rfl, .refl⟩

/-- Evolving twice is evolving. -/
theorem Evolves.trans (h : Evolves p p') (h' : Evolves p' p'') : Evolves p p'' where
  crc := h'.crc.trans h.crc
  config := h'.config.trans h.config
  payload := h'.payload.trans h.payload
  window := h'.window.trans h.window
  workspace := h.workspace.trans h'.workspace
  decompressor := by
    have hz := h.decompressor
    have hz' := h'.decompressor
    revert hz hz'
    generalize p.decompressor = z, p'.decompressor = z', p''.decompressor = z''
    rintro (hz | _) (hz' | _)
    · exact .some (hz.trans hz')
    · exact .none
  staging := h'.staging.trans h.staging
  launcher := h.launcher.trans h'.launcher

/-- The pipelines that a preparation can lead to. -/
structure Prepares (p p' : Pipeline δ ζ ℓ) : Prop extends Evolves p p' where
  sameLauncher : p'.launcher = p.launcher
  selected : p'.selected = p.selected

/-! ### The states of the courses -/

section states

variable (source : Source) (location : Location)

/-- A pipeline that differs in its stage only is one that a preparation can lead to. -/
theorem prepares_restarted (p : Pipeline δ ζ ℓ) : p.Prepares p.restarted where
  toEvolves := ⟨rfl, rfl, rfl, rfl, .refl _, reaches_refl_option _, rfl, .refl⟩
  sameLauncher := rfl
  selected := rfl

/-- An acquisition changes nothing but what preparations may. -/
theorem prepares_afterAcquisition (stage : Stage) :
    p.Prepares (p.afterAcquisition source stage) where
  toEvolves := ⟨rfl, rfl, rfl, rfl, (source.acquire_keeps p.toWorkspace).state,
    reaches_refl_option _, rfl, .refl⟩
  sameLauncher := rfl
  selected := rfl

omit [Decompressor ζ] [Launcher ℓ] in
/-- A copied image has the length that is said of it. -/
theorem length_acquired_of_inTarget {length : Nat}
    (hacq : (p.acquisition source).result = .ok (.inTarget length)) :
    (p.acquired source (.inTarget length)).length = length :=
  List.length_take_of_le (fits_of_succeeds hacq)

/-- Moving an image to the staging region changes no more either. -/
theorem prepares_afterMove (hacq : (p.acquisition source).result = .ok location)
    (hmove : location.Movable p.staging) : p.Prepares (p.afterMove source location) where
  toEvolves := by
    refine ⟨rfl, rfl, rfl, rfl, (source.acquire_keeps p.toWorkspace).state,
      reaches_refl_option _, ?_, .refl⟩
    cases location with
    | resident place image => rfl
    | inTarget length =>
      exact Location.map_length_moved (length_acquired_of_inTarget source hacq) hmove
  sameLauncher := rfl
  selected := rfl

/-- A call of the decompressor changes the target, within its length, and the decompressor. -/
theorem prepares_afterUnpack {z : ζ} (stage : Stage) (hcan : p.CanUnpack source location z) :
    p.Prepares { (p.afterMove source location).afterUnpack z (p.acquired source location) with
      stage := stage } where
  toEvolves := by
    have hmoved := prepares_afterMove source location hcan.succeeds hcan.movable
    refine ⟨rfl, rfl, rfl, rfl, ⟨hmoved.workspace.device, ?_⟩, ?_, hmoved.staging, .refl⟩
    · have hout := length_output_unpackedImage (p := p) source location z
      exact hout.trans hmoved.workspace.length_target
    · show Option.Rel _ p.decompressor (some _)
      rw [hcan.configured]
      exact .some (.unpack _ _ .refl)
  sameLauncher := rfl
  selected := rfl

end states

/-! ### The contract of a preparation -/

/-- The region that a place is in. -/
def region (p : Pipeline δ ζ ℓ) : Place → Bytes
  | .payload => p.payload.getD []
  | .window => p.window.getD []
  | .target => p.target

end Pipeline

/-- The events of a preparation: messages, reads and calls of the decompressor. -/
def Event.OfPreparation : Event → Prop
  | logged _ | read _ _ _ | unpack _ _ => True
  | _ => False

/-- All messages are among the events of a preparation. -/
@[simp] theorem Event.ofPreparation_logged (message : Message) : (logged message).OfPreparation :=
  trivial

/-- So are calls of the decompressor. -/
@[simp] theorem Event.ofPreparation_unpack (input : Bytes) (room : Nat) :
    (unpack input room).OfPreparation := trivial

/-- And so are all events of an acquisition. -/
theorem Event.OfAcquisition.ofPreparation {e : Event} (h : e.OfAcquisition) : e.OfPreparation := by
  cases e with
  | logged message => trivial
  | read medium offset length => trivial
  | unpack input room => trivial
  | checksum input value => exact h
  | register place image => exact h
  | launch call => exact h

namespace Pipeline

variable {δ ζ ℓ : Type} [Device δ] [Decompressor ζ] [Launcher ℓ] {p : Pipeline δ ζ ℓ}

/-- A candidate that is at the start of the region it is said to be in. -/
def Holds (p : Pipeline δ ζ ℓ) (c : Candidate) : Prop :=
  c.image <+: p.region c.location.place

omit [Device δ] [Decompressor ζ] [Launcher ℓ] in
/-- A strategy uses the payload or the window where it is, or it is one of the two that copy. -/
theorem sourceFor_cases {medium : BootMedium} {source : Source}
    (hsource : p.sourceFor medium = some source) :
    (∃ image, p.payload = some image ∧ source = .linked image) ∨
      (∃ window, p.window = some window ∧ source = .mapped window) ∨
      (∃ copy, source = .copied copy) ∨ ∃ copy, source = .partitioned copy := by
  cases medium with
  | payload =>
    unfold sourceFor at hsource
    split_ifs at hsource
    obtain ⟨image, hpayload, rfl⟩ := Option.map_eq_some_iff.mp hsource
    exact .inl ⟨image, hpayload, rfl⟩
  | qspi =>
    obtain ⟨qspi, -, hsource⟩ := Option.bind_eq_some_iff.mp hsource
    split_ifs at hsource
    · obtain ⟨window, hwindow, rfl⟩ := Option.map_eq_some_iff.mp hsource
      exact .inr (.inl ⟨window, hwindow, rfl⟩)
    · cases hsource
      exact .inr (.inr (.inl ⟨_, rfl⟩))
  | mmc =>
    obtain ⟨mmc, -, rfl⟩ := Option.map_eq_some_iff.mp hsource
    split_ifs
    · exact .inr (.inr (.inr ⟨_, rfl⟩))
    · exact .inr (.inr (.inl ⟨_, rfl⟩))
  | spiFlash =>
    obtain ⟨spi, -, rfl⟩ := Option.map_eq_some_iff.mp hsource
    exact .inr (.inr (.inl ⟨_, rfl⟩))

section acquired

variable {source : Source}

omit [Decompressor ζ] [Launcher ℓ]

/-- An acquired image is at the start of the region that its location names. -/
theorem holds_of_acquires {location : Location} (hacq : p.Acquires source location) :
    (p.afterAcquisition source .acquired).Holds ⟨location, p.acquired source location, false⟩ := by
  have hyields := (source.acquire_keeps p.toWorkspace).value location hacq.succeeds
  obtain ⟨medium, -, hsource⟩ := hacq.uses
  rcases sourceFor_cases hsource with ⟨image, hpayload, rfl⟩ | ⟨window, hwindow, rfl⟩ |
    ⟨copy, rfl⟩ | ⟨copy, rfl⟩
  · cases hyields
    show image <+: p.payload.getD []
    rw [hpayload]
    exact List.prefix_rfl
  · cases hyields
    show window <+: p.window.getD []
    rw [hwindow]
    exact List.prefix_rfl
  · cases hyields
    exact List.take_prefix _ _
  · cases hyields
    exact List.take_prefix _ _

/-- The events of an acquisition and its change of stage are events of a preparation. -/
theorem ofPreparation_of_mem_arrival : ∀ e ∈ p.arrival source, e.OfPreparation := by
  intro e he
  rcases List.mem_append.mp he with he | he
  · exact ((source.acquire_keeps p.toWorkspace).trace e he).ofPreparation
  · obtain rfl := List.mem_singleton.mp he
    trivial

end acquired

/-- **A preparation logs, reads and unpacks**, and its candidate is where it is said to be. -/
theorem prepare_keeps (p : Pipeline δ ζ ℓ) :
    ((prepare : Attempt (Pipeline δ ζ ℓ) Candidate).run p).Keeps Event.OfPreparation p.Prepares
      fun c p' => p'.Holds c := by
  rcases hrun : (prepare : Attempt (Pipeline δ ζ ℓ) Candidate).run p with ⟨result, t, p'⟩
  have h := preparation p
  rw [hrun] at h
  have harrival : ∀ {source}, ∀ e ∈ p.arrival source, e.OfPreparation :=
    ofPreparation_of_mem_arrival
  cases h with
  | noMedium hsel => exact .failed (by simp) (prepares_restarted p)
  | unavailable hsel hsource => exact .failed (by simp) (prepares_restarted p)
  | @unacquired source stop huses hacq =>
    have hkeeps := source.acquire_keeps p.toWorkspace
    obtain ⟨cause, rfl⟩ := hkeeps.fails stop hacq
    exact .failed (fun e he => (hkeeps.trace e he).ofPreparation)
      (prepares_afterAcquisition source _)
  | @headerless source location huses hacq hlen =>
    exact .failed harrival (prepares_afterAcquisition source _)
  | @plain source location hacq hmagic =>
    exact .ok harrival (prepares_afterAcquisition source _) (holds_of_acquires hacq)
  | @noStaging source length hacq hmagic hmove =>
    refine .failed ?_ (prepares_afterAcquisition source _)
    simp only [List.forall_mem_append]
    exact ⟨harrival, by simp⟩
  | @noDecompressor source location hacq hmagic hmove hz =>
    refine .failed ?_ (prepares_afterMove source location hacq.succeeds hmove)
    simp only [List.forall_mem_append]
    exact ⟨harrival, by simp⟩
  | @refused source location z hcan hclaim =>
    refine .failed ?_ (prepares_afterUnpack source location _ hcan)
    simp only [List.forall_mem_append]
    exact ⟨⟨harrival, by simp [unpackCall]⟩, by simp⟩
  | @unpacked source location z n hcan hclaim haccept =>
    refine .ok ?_ (prepares_afterUnpack source location _ hcan) (List.take_prefix _ _)
    simp only [List.forall_mem_append]
    exact ⟨⟨harrival, by simp [unpackCall]⟩, by simp⟩

/-! ### When a preparation succeeds -/

/-- What the steps before validation come to when all of them succeed: an image that is acquired,
and is not compressed or can be unpacked. -/
inductive Delivers (p : Pipeline δ ζ ℓ) : Candidate → Prop
  /-- The acquired image itself, whose magic word is not that of compressed images. -/
  | plain {source : Source} {location : Location} (hacq : p.Acquires source location)
      (hmagic : word32 (p.acquired source location) 0 ≠ Header.compressedMagic) :
      Delivers p ⟨location, p.acquired source location, false⟩
  /-- The first bytes of what the decompressor made of a compressed image, as many as it said. -/
  | unpacked {source : Source} {location : Location} {z : ζ} {n : Nat}
      (hcan : p.CanUnpack source location z)
      (hclaim : (p.unpackedImage source location z).written = some n)
      (haccept : Unpacking.Accepts (p.room source) n) :
      Delivers p ⟨.inTarget n, (p.unpackedImage source location z).output.take n, true⟩

omit [Launcher ℓ] in
/-- **A preparation gives exactly the candidate that is delivered.** -/
theorem prepare_eq_ok {c : Candidate} :
    ((prepare : Attempt (Pipeline δ ζ ℓ) Candidate).run p).result = .ok c ↔ p.Delivers c := by
  constructor
  · intro hc
    rcases hrun : (prepare : Attempt (Pipeline δ ζ ℓ) Candidate).run p with ⟨result, t, p'⟩
    have h := preparation p
    rw [hrun] at h hc
    obtain rfl : result = .ok c := hc
    cases h with
    | plain hacq hmagic => exact .plain hacq hmagic
    | unpacked hcan hclaim haccept => exact .unpacked hcan hclaim haccept
  · intro h
    cases h with
    | plain hacq hmagic => rw [run_prepare_of_plain hacq hmagic]
    | unpacked hcan hclaim haccept => rw [run_prepare_of_unpacked hcan hclaim haccept]

end Pipeline

end BootImage
