import BootImage.Proofs.Registration

/-!
# How long a registered image stays what was validated

A launcher that refuses, or that comes back, leaves the board free to make another attempt. The
launcher then still has the image it was told of. A linked image and a flash window are only ever
read, but the target is working memory, and the next attempt copies or unpacks into it before it
validates anything.

* `target_of_spared` — an attempt whose trace says of no write to the target leaves the target as it
  was, wherever it ends.
* `registered_stays` — in any history, a registered image stays what was validated for as long as no
  later attempt writes to the target. If it is in the target, and a later attempt writes there and
  then fails, the launcher is left with bytes that nobody validated (`registered_overwritten`).
-/

namespace BootImage

open Attempt

/-! ### Traces without a write to the target -/

/-- The events that come with a write to the target: the message that an image is being copied
there, and a call of the decompressor. -/
def Event.WritesTarget : Event → Prop
  | logged (.copying _) | unpack _ _ => True
  | _ => False

instance : DecidablePred Event.WritesTarget := fun e => by
  unfold Event.WritesTarget
  split <;> infer_instance

/-- A trace that says of no write to the target. -/
def Spared (trace : List Event) : Prop := ∀ e ∈ trace, ¬ e.WritesTarget

namespace Spared

variable {t t' : List Event}

instance : DecidablePred Spared := fun t =>
  inferInstanceAs (Decidable (∀ e ∈ t, ¬ e.WritesTarget))

/-- The earlier part of a trace spares what the whole spares. -/
theorem left (h : Spared (t ++ t')) : Spared t := fun e he => h e (List.mem_append_left _ he)

/-- So does the later part. -/
theorem right (h : Spared (t ++ t')) : Spared t' := fun e he => h e (List.mem_append_right _ he)

end Spared

section acquisition

variable {δ : Type} [Device δ] {w : Workspace δ}

/-- A copy that does not get as far as its image leaves the target as it was. -/
theorem BlockCopy.target_of_spared (c : BlockCopy) (h : Spared (c.acquire.run w).trace) :
    (c.acquire.run w).state.target = w.target := by
  have hcourse := c.course w
  generalize c.acquire.run w = ran at hcourse h
  have hcopying : ¬ Spared (c.transfer w) := by
    intro hspared
    refine hspared (.logged (.copying (c.claimed w))) ?_ trivial
    simp [transfer]
  cases hcourse with
  | headerUnreadable hfault => rfl
  | unrecognized hread hmagic => rfl
  | tooLarge hread hmagic hroom => rfl
  | imageUnreadable hread hmagic hroom hfault => exact absurd h.left hcopying
  | copied hread hmagic hroom hread' => exact absurd h hcopying

/-- A lookup works on the device alone, so a copy from a partition is no different. -/
theorem TableCopy.target_of_spared (c : TableCopy) (h : Spared (c.acquire.run w).trace) :
    (c.acquire.run w).state.target = w.target := by
  have hlookup : ((caught (Workspace.onDevice (findPartition c.medium c.partitionType))).run
      w).state.target = w.target := rfl
  unfold acquire at h ⊢
  rcases hfound : ((caught (Workspace.onDevice
    (findPartition c.medium c.partitionType))).run w).result with stop | found
  · rw [run_bind_of_error hfound]
    exact hlookup
  · rw [run_bind_of_ok hfound] at h ⊢
    have hcopy := h.right
    cases found with
    | ok extent => exact (BlockCopy.target_of_spared _ hcopy.right).trans hlookup
    | error cause => exact (BlockCopy.target_of_spared _ hcopy.right).trans hlookup

/-- An acquisition that copies nothing leaves the target as it was. -/
theorem Source.target_of_spared (source : Source) (h : Spared (source.acquire.run w).trace) :
    (source.acquire.run w).state.target = w.target := by
  cases source with
  | linked image =>
    have hsame : w = ((acquireLinked image).run w).state :=
      (acquireLinked_keeps image (Eq.refl w)).state
    exact (congrArg Workspace.target hsame).symm
  | mapped window =>
    have hsame : w = ((acquireMapped window).run w).state :=
      (acquireMapped_keeps window (Eq.refl w)).state
    exact (congrArg Workspace.target hsame).symm
  | copied copy =>
    simp only [acquire, bind_pure_comp, run_map] at h ⊢
    exact copy.target_of_spared h
  | partitioned copy =>
    simp only [acquire, bind_pure_comp, run_map] at h ⊢
    exact copy.target_of_spared h

end acquisition

namespace Pipeline

variable {δ ζ ℓ : Type} [Device δ] [Decompressor ζ] [Launcher ℓ] {p : Pipeline δ ζ ℓ}

/-! ### One request -/

omit [Launcher ℓ] in
/-- A preparation that neither copies nor unpacks leaves the target as it was. -/
theorem prepared_target_of_spared (h : Spared p.prepared.trace) :
    p.prepared.state.target = p.target := by
  have hcourse := preparation_prepared p
  generalize p.prepared = ran at hcourse h
  cases hcourse with
  | noMedium hsel => rfl
  | unavailable hsel hsource => rfl
  | @unacquired source stop huses hacq => exact source.target_of_spared h
  | @headerless source location huses hacq hlen => exact source.target_of_spared h.left
  | @plain source location hacq hmagic => exact source.target_of_spared h.left
  | @noStaging source length hacq hmagic hmove => exact source.target_of_spared h.left.left
  | @noDecompressor source location hacq hmagic hmove hz =>
    exact source.target_of_spared h.left.left
  | @refused source location z hcan hclaim =>
    exact absurd trivial (h (.unpack (p.acquired source location) (p.room source))
      (by simp [unpackCall]))
  | @unpacked source location z n hcan hclaim haccept =>
    exact absurd trivial (h (.unpack (p.acquired source location) (p.room source))
      (by simp [unpackCall]))

/-- An attempt writes to the target in its preparation or not at all. -/
theorem attempt_target_of_spared
    (h : Spared ((attempt : Attempt (Pipeline δ ζ ℓ) Unit).run p).trace) :
    ((attempt : Attempt (Pipeline δ ζ ℓ) Unit).run p).state.target = p.target := by
  have hcourse := attempted p
  generalize (attempt : Attempt (Pipeline δ ζ ℓ) Unit).run p = ran at hcourse h
  cases hcourse with
  | unprepared hprep => exact prepared_target_of_spared h
  | invalid hprep hvalid hcheck => exact prepared_target_of_spared h.left
  | launched hprep hvalid =>
    unfold launching at h
    exact prepared_target_of_spared h.left.left.left

/-- A selection only logs. -/
theorem spared_select (medium : BootMedium) (p : Pipeline δ ζ ℓ) :
    Spared ((serve (.select medium)).run p).trace := by
  intro e he
  rw [eq_of_mem_trace_select he]
  exact id

/-- **A request that says of no write to the target leaves it as it was.** -/
theorem target_of_spared (request : Request) (h : Spared ((serve request).run p).trace) :
    ((serve request).run p).state.target = p.target := by
  cases request with
  | select medium =>
    obtain ⟨selected, hstate⟩ := state_serve_select medium p
    rw [hstate]
  | boot =>
    obtain ⟨report, stage, htrace, -, hstate⟩ := boot_of_attempt p
    have hspared : Spared (boot.run p).trace := h
    rw [htrace] at hspared
    have hattempt : Spared ((attempt : Attempt (Pipeline δ ζ ℓ) Unit).run p).trace :=
      fun e he => hspared.left e (List.mem_cons_of_mem _ he)
    show (boot.run p).state.target = p.target
    rw [hstate]
    exact attempt_target_of_spared hattempt

/-! ### Histories -/

/-- What is in a region that is not the target is what the pipeline was built with. -/
theorem region_of_evolves {p' : Pipeline δ ζ ℓ} (h : p.Evolves p') {place : Place}
    (hplace : place ≠ .target) :
    p'.region place = p.region place := by
  cases place with
  | payload => exact congrArg (Option.getD · []) h.payload
  | window => exact congrArg (Option.getD · []) h.window
  | target => exact absurd rfl hplace

/-- A history in which no request writes to the target leaves it as it was. -/
theorem target_after_of_spared (requests : List Request)
    (h : ∀ record ∈ p.history requests, Spared record.ran.trace) :
    (p.after requests).target = p.target := by
  induction requests generalizing p with
  | nil => rfl
  | cons request requests ih =>
    have hfirst := target_of_spared request (h _ List.mem_cons_self)
    have hrest : (((serve request).run p).state.after requests).target =
        ((serve request).run p).state.target :=
      ih fun record hmem => h record (List.mem_cons_of_mem _ hmem)
    exact hrest.trans hfirst

/-- What an attempt registers is at the start of its region when the attempt ends. -/
theorem held_of_registered {place : Place} {slice : Bytes}
    (hregister : .register place slice ∈ (boot.run p).trace) :
    ∃ c header, p.Passes c header ∧ place = c.location.place ∧ slice = handed c header ∧
      slice <+: (boot.run p).state.region place := by
  obtain ⟨c, header, hover, rfl, rfl⟩ := handover_of_registered hregister
  refine ⟨c, header, hover.passes, rfl, rfl, ?_⟩
  rw [(hover.undisturbed _).2]
  exact (List.take_prefix _ _).trans hover.held

/-- **How long a registered image stays what was validated.** After any history, an attempt that
registers an image has validated it; and whatever is asked of the board from then on, the image
stays at its place, byte for byte, unless its place is the target and a later attempt writes
there. -/
theorem registered_stays (p : Pipeline δ ζ ℓ) (earlier later : List Request) {place : Place}
    {slice : Bytes} (hregister : .register place slice ∈ (boot.run (p.after earlier)).trace) :
    (∃ c header, (p.after earlier).Passes c header ∧ place = c.location.place ∧
        slice = handed c header) ∧
      (slice <+: (p.after (earlier ++ .boot :: later)).region place ∨
        place = .target ∧ ∃ record ∈ (boot.run (p.after earlier)).state.history later,
          record.request = .boot ∧ ¬ Spared record.ran.trace) := by
  obtain ⟨c, header, hpasses, hplace, hslice, hheld⟩ := held_of_registered hregister
  refine ⟨⟨c, header, hpasses, hplace, hslice⟩, ?_⟩
  have hafter : p.after (earlier ++ .boot :: later) =
      (boot.run (p.after earlier)).state.after later := after_append p earlier _
  rw [hafter]
  by_cases htarget : place = .target
  · by_cases hspared : ∀ record ∈ (boot.run (p.after earlier)).state.history later,
        Spared record.ran.trace
    · left
      subst htarget
      show slice <+: ((boot.run (p.after earlier)).state.after later).target
      rw [target_after_of_spared later hspared]
      exact hheld
    · right
      push Not at hspared
      obtain ⟨record, hmem, hwrites⟩ := hspared
      refine ⟨htarget, record, hmem, ?_, hwrites⟩
      obtain ⟨-, hran⟩ := evolves_of_mem_history hmem
      rcases hrequest : record.request with _ | medium
      · rfl
      · rw [hran, hrequest] at hwrites
        exact absurd (spared_select medium record.before) hwrites
  · left
    rw [region_of_evolves (evolves_after later _) htarget]
    exact hheld

/-- A board with three media: on SPI flash a valid image, on the card no image at all, and on QSPI
flash an image whose checksum does not hold. Its launcher refuses. Every checksum is zero. -/
def contestedBoard : Pipeline Bench.Media Bench.Unpacker Bench.BenchLauncher :=
  let media := ((Bench.Media.none.set .spiFlash (some (claiming 272).bytes)).set .mmc
    (some (List.replicate 272 0))).set .qspi (some { claiming 272 with checksum := 1 }.bytes)
  let config : BootConfig :=
    ⟨some ⟨0⟩, some ⟨false, bootPartitionType⟩, some ⟨false⟩, false, .restartCores⟩
  (new media (.custom true) config (List.replicate 300 0xFF)).withCrc (Bench.constantChecksum 0)

/-- The image of SPI flash is registered and refused. It stays in the target while the card is
tried, which ends before its image is copied; but it is gone after an attempt from QSPI flash, which
ends at validation. -/
theorem registered_overwritten :
    .register .target (claiming 272).bytes ∈ (boot.run (contestedBoard.after [])).trace ∧
      (claiming 272).bytes <+: (contestedBoard.after [.boot, .select .mmc, .boot]).region .target ∧
      ¬ (claiming 272).bytes <+:
        (contestedBoard.after [.boot, .select .qspi, .boot]).region .target := by
  have hregister : .register .target (claiming 272).bytes ∈
      (boot.run (contestedBoard.after [])).trace := by decide +kernel
  refine ⟨hregister, ?_, by decide +kernel⟩
  have hspared : ∀ record ∈ (boot.run (contestedBoard.after [])).state.history
      [.select .mmc, .boot], Spared record.ran.trace := by decide +kernel
  rcases (registered_stays contestedBoard [] [.select .mmc, .boot] hregister).2 with
    hstays | ⟨-, record, hmem, -, hwrites⟩
  · exact hstays
  · exact absurd (hspared record hmem) hwrites

end Pipeline

end BootImage
