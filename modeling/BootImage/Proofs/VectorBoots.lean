import BootImage.Proofs.Registration
import BootImage.Proofs.VectorLauncher

/-!
# Booting with the launcher of a single core

This launcher keeps the last image that it was told of, through attempts that fail and through
selections. It is asked for a start by an attempt that passed validation, which has told it of its
own image just before, so what it still had is never started.

* `started_vector` — what the launcher replies to an attempt: it departs or it says that its offset
  is out of bounds, and which of the two is decided by the length of what is handed over.
* `history_starts_own_image` — after any history, an attempt starts the image that it validated, or
  none (`Pipeline.StartsOwnImage`).
-/

namespace BootImage

open Attempt

/-- The launchers that calls lead to are those that a list of calls leaves. -/
theorem Launcher.Reaches.exists_after {ℓ : Type} [Launcher ℓ] {l l' : ℓ} (h : Reaches l l') :
    ∃ calls, l' = Launcher.after l calls := by
  induction h with
  | refl => exact ⟨[], rfl⟩
  | register image _ ih =>
    obtain ⟨calls, rfl⟩ := ih
    exact ⟨calls ++ [.register image], by simp [Launcher.after, Launcher.next]⟩
  | start call _ ih =>
    obtain ⟨calls, rfl⟩ := ih
    exact ⟨calls ++ [.start call], by simp [Launcher.after, Launcher.next]⟩

namespace VectorLauncher

/-- No calls change the offset. -/
theorem vectorOffset_of_reaches {l l' : VectorLauncher} (h : Launcher.Reaches l l') :
    l'.vectorOffset = l.vectorOffset := by
  obtain ⟨calls, rfl⟩ := h.exists_after
  rw [after_calls]

end VectorLauncher

namespace Pipeline

variable {δ ζ : Type} [Device δ] [Decompressor ζ]

/-! ### The launcher's part -/

section launcher

variable {q : Pipeline δ ζ VectorLauncher} {c : Candidate} {header : Header}

omit [Device δ] [Decompressor ζ] in
/-- **What the launcher replies to an attempt**, whatever image it had before. -/
theorem started_vector (q : Pipeline δ ζ VectorLauncher) (image : Bytes) :
    q.started image =
      (if q.launcher.vectorOffset < (claimedPart image).length then .departed
        else .refused LaunchFault.outOfBounds.name,
        ⟨q.launcher.vectorOffset, some (claimedPart image)⟩) := by
  rw [started, ← BootFlow.start_call, VectorLauncher.start_eq, BootFlow.cores_call,
    VectorLauncher.reply_of_some rfl]
  rfl

/-- What is true of an attempt from `q` whose run is `ran`, where the launcher's offset is `offset`
and the configuration asks for the start `call`. -/
structure StartsOwnImage (q : Pipeline δ ζ VectorLauncher) (offset : Nat) (call : LaunchCall)
    (ran : Ran (Pipeline δ ζ VectorLauncher) Bool) : Prop where
  /-- The launcher departs, or refuses because its offset is not inside the image. -/
  replies : ∀ reply, q.Gets reply →
    reply = .departed ∨ reply = .refused LaunchFault.outOfBounds.name
  /-- It departs exactly if the attempt passes validation, with a candidate and a claim that both go
  past the offset. -/
  departs : ran.result = .error .departed ↔
    ∃ c header, q.Passes c header ∧ offset < min header.length.toNat c.image.length
  /-- An attempt that passes validation registers the claimed part of its own candidate, which is
  still at its place in the end, and which is then the image that the launcher has when it is asked
  for a start. -/
  own : ∀ c header, q.Passes c header →
    ran.trace.filter Event.isLaunch =
        [.register c.location.place (handed c header), .launch call] ∧
      ran.state.launcher = ⟨offset, some (handed c header)⟩ ∧
      handed c header <+: ran.state.region c.location.place
  /-- If it does not depart, it fails for what the launcher said. -/
  refused : ∀ c header, q.Passes c header → ran.result ≠ .error .departed →
    FailsFor ran .launch ∧
      .logged (.launchFailed LaunchFault.outOfBounds.name) ∈ ran.trace
  /-- An attempt that does not pass validation answers no. The launcher is not called, and keeps
  what it had. -/
  idle : (∀ c header, ¬ q.Passes c header) → ran.result = .ok false ∧
    ran.trace.filter Event.isLaunch = [] ∧ ran.state.launcher = q.launcher

/-- The launcher departs exactly if its offset is inside what is handed over. -/
theorem departs_iff_of_passes (h : q.Passes c header) :
    (boot.run q).result = .error .departed ↔
      q.launcher.vectorOffset < min header.length.toNat c.image.length := by
  obtain ⟨hvalid, rfl⟩ := h.valid
  have hlength : (claimedPart c.image).length =
      min (Header.ofBytes c.image).length.toNat c.image.length := by
    rw [claimedPart, Header.length_ofBytes hvalid.long]
    exact List.length_take_of_le (Nat.min_le_right _ _)
  rw [departed_iff, gets_iff_of_passes h, started_vector, hlength]
  split_ifs with hinside
  · exact iff_of_true rfl hinside
  · exact iff_of_false (by simp) hinside

/-- An attempt that passes validation and does not depart is refused. -/
theorem refused_of_passes (h : q.Passes c header)
    (hstays : (boot.run q).result ≠ .error .departed) :
    FailsFor (boot.run q) .launch ∧
      .logged (.launchFailed LaunchFault.outOfBounds.name) ∈ (boot.run q).trace := by
  have hreply : (q.started c.image).1 = .refused LaunchFault.outOfBounds.name := by
    have hnot : ¬ q.Gets .departed := fun hgets => hstays ((departed_iff q).mpr hgets)
    rw [gets_iff_of_passes h, started_vector] at hnot
    rw [started_vector]
    split_ifs at hnot ⊢ with hinside
    · exact absurd rfl hnot
    · rfl
  have hrun := attempt_of_passes h
  rw [hreply] at hrun
  refine ⟨failsFor_boot_iff.mpr (by rw [hrun]; rfl), ?_⟩
  rw [run_boot_of_failed hrun]
  simp [launching, hreply, LaunchReply.report]

/-- **An attempt starts the image that it validated, or none.** -/
theorem boot_starts_own_image (q : Pipeline δ ζ VectorLauncher) :
    q.StartsOwnImage q.launcher.vectorOffset q.config.bootFlow.call (boot.run q) where
  replies := by
    intro reply hgets
    obtain ⟨c, header, hpasses⟩ := hgets.passes
    rw [gets_iff_of_passes hpasses, started_vector] at hgets
    split_ifs at hgets
    · exact .inl hgets.symm
    · exact .inr hgets.symm
  departs := by
    constructor
    · intro hdeparted
      obtain ⟨c, header, hpasses⟩ := ((departed_iff q).mp hdeparted).passes
      exact ⟨c, header, hpasses, (departs_iff_of_passes hpasses).mp hdeparted⟩
    · rintro ⟨c, header, hpasses, hinside⟩
      exact (departs_iff_of_passes hpasses).mpr hinside
  own := by
    -- The launcher had another image before, but a handover registers first.
    intro c header hpasses
    have hover := handover_of_passes hpasses
    obtain ⟨hvalid, rfl⟩ := hpasses.valid
    refine ⟨(takenOver_of_passes hpasses).calls, ?_, ?_⟩
    · rw [launcher_of_passes hpasses, started_vector, handed_ofBytes hvalid.long]
    · rw [(hover.undisturbed _).2]
      exact (List.take_prefix _ _).trans hover.held
  refused := fun c header hpasses hstays => refused_of_passes hpasses hstays
  idle := by
    intro hnone
    obtain ⟨hresult, -, hcalls⟩ := boot_of_no_reply (not_gets_of_not_passes hnone)
    exact ⟨hresult, hcalls, launcher_of_not_passes hnone⟩

/-- **After any history an attempt starts the image that it validated, or none**, and a selection
has nothing to do with the launcher. The offset and the kind of start are those that the pipeline
was built with. -/
theorem history_starts_own_image (p : Pipeline δ ζ VectorLauncher) (requests : List Request) :
    (p.after requests).StartsOwnImage p.launcher.vectorOffset p.config.bootFlow.call
        (boot.run (p.after requests)) ∧
      ∀ medium, ((serve (.select medium)).run (p.after requests)).trace.filter Event.isLaunch = [] ∧
        ((serve (.select medium)).run (p.after requests)).state.launcher =
          (p.after requests).launcher := by
  have hevolves := evolves_after requests p
  constructor
  · have hboot := boot_starts_own_image (p.after requests)
    rwa [VectorLauncher.vectorOffset_of_reaches hevolves.launcher, hevolves.config] at hboot
  · intro medium
    obtain ⟨selected, hstate⟩ := state_serve_select medium (p.after requests)
    exact ⟨launches_select medium _, by rw [hstate]⟩

/-- A board whose launcher was told of an image beforehand, which goes past its offset. QSPI flash,
the default medium, has an image whose checksum does not hold; the linked image is valid. Every
checksum is zero. -/
def toldBoard : Pipeline Bench.Media Bench.Unpacker VectorLauncher :=
  let media := Bench.Media.none.set .qspi (some { claiming 272 with checksum := 1 }.bytes)
  let config : BootConfig := { BootConfig.default with qspi := some ⟨false⟩, payload := true }
  ((new media ⟨100, some (List.replicate 300 0)⟩ config (List.replicate 300 0xFF)).withPayload
    (claiming 272).bytes).withCrc (Bench.constantChecksum 0)

/-- The first attempt of this board leaves the launcher with what it was told beforehand, and starts
nothing. Once the linked image is selected, an attempt starts that. -/
theorem toldBoard_starts_own_image :
    (boot.run (toldBoard.after [])).result = .ok false ∧
      (boot.run (toldBoard.after [])).state.launcher = ⟨100, some (List.replicate 300 0)⟩ ∧
      ∃ c header, (toldBoard.after [.boot, .select .payload]).Passes c header ∧
        (boot.run (toldBoard.after [.boot, .select .payload])).result = .error .departed ∧
        (boot.run (toldBoard.after [.boot, .select .payload])).state.launcher =
          ⟨100, some (handed c header)⟩ := by
  have hfirst := (history_starts_own_image toldBoard []).1
  have hlater := (history_starts_own_image toldBoard [.boot, .select .payload]).1
  have hcalls : (boot.run (toldBoard.after [])).trace.filter Event.isLaunch = [] := by
    decide +kernel
  have hnone : ∀ c header, ¬ (toldBoard.after []).Passes c header := by
    intro c header hpasses
    cases hcalls.symm.trans (hfirst.own c header hpasses).1
  obtain ⟨hanswer, -, hlauncher⟩ := hfirst.idle hnone
  have hdeparted : (boot.run (toldBoard.after [.boot, .select .payload])).result =
      .error .departed := by decide +kernel
  obtain ⟨c, header, hpasses, -⟩ := hlater.departs.mp hdeparted
  exact ⟨hanswer, hlauncher, c, header, hpasses, hdeparted, (hlater.own c header hpasses).2.1⟩

end launcher

end Pipeline

end BootImage
