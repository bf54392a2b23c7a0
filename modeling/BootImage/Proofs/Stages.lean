import BootImage.Proofs.Registration

/-!
# The stages that an attempt goes through

Every change of stage is logged, but for the return to the first stage at the start of an attempt.
The changes in a trace (`changes`) are therefore all that is needed to say how far an attempt came:
they form a path of allowed steps (`Stage.Path`), each going on from the stage that the one before
it led to.

* `progress` — a preparation gets to one of three stages, each given with the changes that lead
  there and with what it takes to get there.
* `finish` — what a call of `boot` adds to the changes of its preparation.
* `boot_follows_stages` — the stages of an attempt form a path from the first stage, whatever the
  attempt before it left, and each of them is entered exactly if the step that it stands for was
  taken (`Pipeline.FollowsStages`).
* `history_follows_stages` — in any history this is so for every attempt, and a selection changes no
  stage.
-/

namespace BootImage

open Attempt

/-! ### Paths of stages -/

namespace Stage

/-- A path from a stage by the given changes, each of which is an allowed step from the stage that
the one before it led to. -/
inductive Path : Stage → List (Stage × Stage) → Stage → Prop where
  | stay (s : Stage) : Path s [] s
  | step {s s' s'' : Stage} {changes : List (Stage × Stage)} (h : Step s s')
      (rest : Path s' changes s'') : Path s ((s, s') :: changes) s''

/-- A path can be continued from where it ends. -/
theorem Path.append {s s' s'' : Stage} {changes changes' : List (Stage × Stage)}
    (h : Path s changes s') (h' : Path s' changes' s'') : Path s (changes ++ changes') s'' := by
  induction h with
  | stay s => exact h'
  | step hstep rest ih => exact .step hstep (ih h')

/-- A step on its own is a path. -/
theorem Step.path {s s' : Stage} (h : Step s s') : Path s [(s, s')] s' := .step h (.stay s')

end Stage

/-! ### The changes in a trace -/

/-- The changes of stage in a trace, in order. -/
def changes (trace : List Event) : List (Stage × Stage) := trace.filterMap Event.change?

/-- A trace has a change to the stage. -/
def Enters (trace : List Event) (s : Stage) : Prop := ∃ old, .logged (.stage old s) ∈ trace

/-- The changes of a part of a trace come before those of the rest. -/
theorem changes_append (trace trace' : List Event) :
    changes (trace ++ trace') = changes trace ++ changes trace' := List.filterMap_append

/-- A run that may not log a change of stage has none in its trace. -/
theorem changes_of_keeps {σ α : Type} {events : Event → Prop} {reached : σ → Prop}
    {post : α → σ → Prop} {ran : Ran σ α} (h : ran.Keeps events reached post)
    (hnone : ∀ old new, ¬ events (.logged (.stage old new))) : changes ran.trace = [] := by
  refine h.filterMap_eq_nil ?_
  rintro e ⟨old, new⟩ hchange
  rw [Event.change?_eq_some.mp hchange]
  exact hnone old new

/-- A stage is entered by one of the changes. -/
theorem enters_iff {trace : List Event} {s : Stage} :
    Enters trace s ↔ ∃ old, (old, s) ∈ changes trace := by
  simp only [Enters, changes, List.mem_filterMap, Event.change?_eq_some, exists_eq_right]

namespace Pipeline

variable {δ ζ ℓ : Type} [Device δ] [Decompressor ζ]

/-! ### How far a preparation gets -/

section prepare

variable {q : Pipeline δ ζ ℓ} {source : Source} {location : Location}

/-- A medium is selected, there is a strategy for it, and its acquisition succeeds. -/
def HasAcquired (q : Pipeline δ ζ ℓ) : Prop :=
  ∃ source location, q.Uses source ∧ (q.acquisition source).result = .ok location

/-- The header of the acquired image has the magic word of compressed images, and unpacking the
image succeeds. -/
def HasUnpacked (q : Pipeline δ ζ ℓ) : Prop :=
  ∃ source location, q.Acquires source location ∧
    word32 (q.acquired source location) 0 = Header.compressedMagic ∧
      ∃ location', ((unpack location).run (q.afterAcquisition source .acquired)).result =
        .ok location'

/-- How far a preparation gets: the changes of stage, and the last of the stages. -/
inductive Progress (q : Pipeline δ ζ ℓ) : List (Stage × Stage) → Stage → Prop where
  | unacquired (hacq : ¬ q.HasAcquired) (hunpack : ¬ q.HasUnpacked) : Progress q [] .notStarted
  | acquired (hacq : q.HasAcquired) (hunpack : ¬ q.HasUnpacked) :
      Progress q [(.notStarted, .acquired)] .acquired
  | unpacked (hacq : q.HasAcquired) (hunpack : q.HasUnpacked) :
      Progress q [(.notStarted, .acquired), (.acquired, .decompressed)] .decompressed

omit [Device δ] [Decompressor ζ] in
/-- The selected medium has one strategy. -/
theorem Uses.unique {source' : Source} (h : q.Uses source) (h' : q.Uses source') :
    source = source' := by
  obtain ⟨medium, hsel, hsource⟩ := h
  obtain ⟨medium', hsel', hsource'⟩ := h'
  cases hsel.symm.trans hsel'
  exact Option.some.inj (hsource.symm.trans hsource')

/-- What is unpacked was acquired. -/
theorem HasUnpacked.hasAcquired (h : q.HasUnpacked) : q.HasAcquired := by
  obtain ⟨source, location, hacq, -⟩ := h
  exact ⟨source, location, hacq.uses, hacq.succeeds⟩

/-- Nothing is unpacked if the image that is acquired cannot be. -/
theorem not_hasUnpacked (huses : q.Uses source)
    (hacq : (q.acquisition source).result = .ok location)
    (hfails : Header.size ≤ (q.acquired source location).length →
      word32 (q.acquired source location) 0 = Header.compressedMagic → ∀ location',
        ((unpack location).run (q.afterAcquisition source .acquired)).result ≠ .ok location') :
    ¬ q.HasUnpacked := by
  rintro ⟨source', location', ⟨huses', hacq', hlong⟩, hmagic, unpacked, hok⟩
  obtain rfl := huses.unique huses'
  cases hacq.symm.trans hacq'
  exact hfails hlong hmagic unpacked hok

/-- Without an acquired image nothing is unpacked either. -/
theorem progress_of_unacquired (h : ¬ q.HasAcquired) : q.Progress [] .notStarted :=
  .unacquired h (mt HasUnpacked.hasAcquired h)

omit [Decompressor ζ] in
/-- An acquisition changes no stage. -/
theorem changes_acquisition (q : Pipeline δ ζ ℓ) (source : Source) :
    changes (q.acquisition source).trace = [] :=
  changes_of_keeps (source.acquire_keeps q.toWorkspace) fun old new h => h old new rfl

omit [Decompressor ζ] in
/-- What has arrived is acquired. -/
theorem changes_arrival (q : Pipeline δ ζ ℓ) (source : Source) :
    changes (q.arrival source) = [(.notStarted, .acquired)] := by
  rw [arrival, changes_append, changes_acquisition]
  rfl

/-- **A preparation gets to one of three stages.** -/
theorem progress (q : Pipeline δ ζ ℓ) :
    q.Progress (changes q.prepared.trace) q.prepared.state.stage := by
  have hcourse := preparation_prepared q
  generalize q.prepared = ran at hcourse ⊢
  cases hcourse with
  | noMedium hsel =>
    refine progress_of_unacquired ?_
    rintro ⟨source, location, ⟨medium, hsel', -⟩, -⟩
    cases hsel.symm.trans hsel'
  | unavailable hsel hsource =>
    refine progress_of_unacquired ?_
    rintro ⟨source, location, ⟨medium, hsel', hsource'⟩, -⟩
    cases hsel.symm.trans hsel'
    cases hsource.symm.trans hsource'
  | @unacquired source stop huses hacq =>
    rw [changes_acquisition]
    refine progress_of_unacquired ?_
    rintro ⟨source', location, huses', hacq'⟩
    obtain rfl := huses.unique huses'
    cases hacq.symm.trans hacq'
  | headerless huses hacq hlen =>
    rw [changes_arrival]
    refine .acquired ⟨_, _, huses, hacq⟩ (not_hasUnpacked huses hacq ?_)
    intro hlong
    exact absurd hlong (Nat.not_le_of_lt hlen)
  | plain hacq hmagic =>
    rw [changes_arrival]
    refine .acquired ⟨_, _, hacq.uses, hacq.succeeds⟩ (not_hasUnpacked hacq.uses hacq.succeeds ?_)
    intro _ hmagic'
    exact absurd hmagic' hmagic
  | noStaging hacq hmagic hmove =>
    rw [changes_append, changes_arrival]
    refine .acquired ⟨_, _, hacq.uses, hacq.succeeds⟩ (not_hasUnpacked hacq.uses hacq.succeeds ?_)
    simp [run_unpack_of_not_movable hmove]
  | noDecompressor hacq hmagic hmove hz =>
    rw [changes_append, changes_arrival]
    refine .acquired ⟨_, _, hacq.uses, hacq.succeeds⟩ (not_hasUnpacked hacq.uses hacq.succeeds ?_)
    simp [run_unpack_of_none hacq hmove hz]
  | @refused source location z hcan hclaim =>
    have hcomplaint : changes [.logged (Unpacking.complaint (q.room source)
        (q.unpackedImage source location z).written)] = [] := by
      rcases (q.unpackedImage source location z).written with _ | _ | n <;> rfl
    rw [changes_append, changes_append, changes_arrival, hcomplaint]
    refine .acquired ⟨_, _, hcan.uses, hcan.succeeds⟩ (not_hasUnpacked hcan.uses hcan.succeeds ?_)
    simp [run_unpack_of_refused hcan hclaim]
  | @unpacked source location z n hcan hclaim haccept =>
    have hacq := hcan.toAcquires
    rw [changes_append, changes_append, changes_arrival]
    refine .unpacked ⟨_, _, hacq.uses, hacq.succeeds⟩
      ⟨_, _, hacq, hcan.compressed, .inTarget n, ?_⟩
    rw [run_unpack_of_accepts hcan hclaim haccept]

/-- A preparation that gives a candidate has acquired an image. -/
theorem hasAcquired_of_prepared {c : Candidate} (hc : q.prepared.result = .ok c) :
    q.HasAcquired := by
  cases prepare_eq_ok.mp hc with
  | plain hacq hmagic => exact ⟨_, _, hacq.uses, hacq.succeeds⟩
  | unpacked hcan hclaim haccept => exact ⟨_, _, hcan.uses, hcan.succeeds⟩

namespace Progress

variable {changed : List (Stage × Stage)} {s : Stage} (h : q.Progress changed s)

include h

/-- The changes of a preparation lead from the first stage to the one that it leaves. -/
theorem path : Stage.Path .notStarted changed s := by
  cases h with
  | unacquired _ _ => exact .stay _
  | acquired _ _ => exact Stage.Step.acquire.path
  | unpacked _ _ => exact .step .acquire Stage.Step.decompress.path

/-- No preparation gets to the stage of failed attempts. -/
theorem ne_failed : s ≠ .failed := by
  cases h with
  | unacquired _ _ => exact Stage.noConfusion
  | acquired _ _ => exact Stage.noConfusion
  | unpacked _ _ => exact Stage.noConfusion

/-- From where an acquired image is, it can be validated. -/
theorem validate (hacq : q.HasAcquired) : Stage.Step s .validated := by
  cases h with
  | unacquired hnone _ => exact absurd hacq hnone
  | acquired _ _ => exact .validate
  | unpacked _ _ => exact .validateUnpacked

/-- Which stages a preparation enters. -/
theorem enters : ((∃ old, (old, .acquired) ∈ changed) ↔ q.HasAcquired) ∧
    ((∃ old, (old, .decompressed) ∈ changed) ↔ q.HasUnpacked) ∧
    (∀ old, (old, .validated) ∉ changed) ∧ ∀ old, (old, .registered) ∉ changed := by
  cases h with
  | unacquired hacq hunpack => simp [hacq, hunpack]
  | acquired hacq hunpack => simp [hacq, hunpack]
  | unpacked hacq hunpack => simp [hacq, hunpack]

end Progress

end prepare

/-! ### What follows the preparation -/

section boot

variable {q : Pipeline δ ζ ℓ}

/-- What a call of `boot` adds to the changes of its preparation, which left the stage `s`: the
changes, the last of the stages, and the outcome. -/
inductive Finish (q : Pipeline δ ζ ℓ) (s : Stage) :
    List (Stage × Stage) → Stage → Except Stop Bool → Prop where
  | failed (hpasses : ∀ c header, ¬ q.Passes c header) :
      Finish q s [(s, .failed)] .failed (.ok false)
  | registered {c : Candidate} {header : Header} {outcome : Except Stop Bool}
      (hpasses : q.Passes c header) (houtcome : outcome ≠ .ok false) :
      Finish q s [(s, .validated), (.validated, .registered)] .registered outcome
  | refused {c : Candidate} {header : Header} (hpasses : q.Passes c header) :
      Finish q s [(s, .validated), (.validated, .registered), (.registered, .failed)] .failed
        (.ok false)

namespace Finish

variable {s stage : Stage} {added : List (Stage × Stage)} {outcome : Except Stop Bool}
  (h : q.Finish s added stage outcome)

include h

/-- What a call of `boot` adds leads from where its preparation got to, to the last stage. -/
theorem path (hs : s ≠ .failed) (hvalidate : q.HasAcquired → Stage.Step s .validated) :
    Stage.Path s added stage := by
  cases h with
  | failed _ => exact (Stage.Step.fail hs).path
  | registered hpasses _ =>
    exact .step (hvalidate (hasAcquired_of_prepared hpasses.1)) Stage.Step.register.path
  | refused hpasses =>
    exact .step (hvalidate (hasAcquired_of_prepared hpasses.1))
      (.step .register (Stage.Step.fail Stage.noConfusion).path)

/-- Which stages are entered after the preparation. -/
theorem enters : (∀ old, (old, .acquired) ∉ added) ∧ (∀ old, (old, .decompressed) ∉ added) ∧
    ((∃ old, (old, .validated) ∈ added) ↔ ∃ c header, q.Passes c header) ∧
    ((∃ old, (old, .registered) ∈ added) ↔ ∃ c header, q.Passes c header) := by
  cases h with
  | failed hpasses => simp [hpasses]
  | registered hpasses _ =>
    have hex : ∃ c header, q.Passes c header := ⟨_, _, hpasses⟩
    simp [hex]
  | refused hpasses =>
    have hex : ∃ c header, q.Passes c header := ⟨_, _, hpasses⟩
    simp [hex]

/-- The last stage goes with the answer. -/
theorem answer : (outcome = .ok true → stage = .registered) ∧
    (outcome = .ok false → stage = .failed) := by
  cases h with
  | failed _ => simp
  | registered _ houtcome => simp [houtcome]
  | refused _ => simp

end Finish

variable [Launcher ℓ]

/-- The changes of an attempt that gets to the launcher. -/
theorem changes_launching (q : Pipeline δ ζ ℓ) (c : Candidate) : changes (q.launching c) =
    changes q.prepared.trace ++
      [(q.prepared.state.stage, .validated), (.validated, .registered)] := by
  have hreport : changes (.launch q.config.bootFlow.call :: (q.started c.image).1.report) = [] := by
    rcases (q.started c.image).1 with _ | fault | _ <;> rfl
  rw [launching, changes_append, changes_append, changes_append, hreport, List.append_nil,
    List.append_assoc]
  rfl

/-- A validation changes no stage. -/
theorem changes_checked (q : Pipeline δ ζ ℓ) (c : Candidate) : changes (q.checked c).trace = [] :=
  changes_of_keeps (checked_keeps q c) fun old new h => h old new rfl

/-- A failure is a change from the stage that the attempt got to. -/
theorem changes_boot_of_failed {cause : Error} {t : List Event} {q' : Pipeline δ ζ ℓ}
    (h : (attempt : Attempt (Pipeline δ ζ ℓ) Unit).run q = ⟨.error (.failed cause), t, q'⟩) :
    changes (boot.run q).trace = changes t ++ [(q'.stage, .failed)] := by
  rw [run_boot_of_failed h, changes_append]
  rfl

/-- **What a call of `boot` adds to the changes of its preparation.** -/
theorem finish (q : Pipeline δ ζ ℓ) : ∃ added,
    changes (boot.run q).trace = changes q.prepared.trace ++ added ∧
      q.Finish q.prepared.state.stage added (boot.run q).state.stage (boot.run q).result := by
  have hcourse := attempted q
  rcases hrun : (attempt : Attempt (Pipeline δ ζ ℓ) Unit).run q with ⟨result, t, q'⟩
  rw [hrun] at hcourse
  cases hcourse with
  | unprepared hprep =>
    refine ⟨_, changes_boot_of_failed hrun, ?_⟩
    rw [run_boot_of_failed hrun]
    refine .failed ?_
    rintro c header ⟨hc, -⟩
    cases hprep.symm.trans hc
  | @invalid c cause hprep hvalid hcheck =>
    refine ⟨[(q.prepared.state.stage, .failed)], ?_, ?_⟩
    · rw [changes_boot_of_failed hrun, changes_append, changes_checked, List.append_nil]
    · rw [run_boot_of_failed hrun]
      refine .failed ?_
      rintro c' header ⟨hc, hheader⟩
      cases hprep.symm.trans hc
      cases hcheck.symm.trans hheader
  | @launched c hprep hvalid =>
    have hpasses := passes_of_valid hprep hvalid
    rcases hreply : (q.started c.image).1 with _ | fault | _
    · rw [hreply] at hrun
      rw [run_boot_of_ok hrun]
      exact ⟨_, changes_launching q c, .registered hpasses (by simp)⟩
    · rw [hreply] at hrun
      refine ⟨[(q.prepared.state.stage, .validated), (.validated, .registered),
        (.registered, .failed)], ?_, ?_⟩
      · rw [changes_boot_of_failed hrun, changes_launching, List.append_assoc]
        rfl
      · rw [run_boot_of_failed hrun]
        exact .refused hpasses
    · rw [hreply] at hrun
      rw [run_boot_of_departed hrun]
      exact ⟨_, changes_launching q c, .registered hpasses (by simp)⟩

/-- Something was registered with the launcher. -/
def Registers (trace : List Event) : Prop := ∃ place image, .register place image ∈ trace

/-- Exactly the images that pass the check are registered. -/
theorem registers_boot (q : Pipeline δ ζ ℓ) :
    Registers (boot.run q).trace ↔ ∃ c header, q.Passes c header := by
  constructor
  · rintro ⟨place, image, hregister⟩
    obtain ⟨c, header, hover, -⟩ := handover_of_registered hregister
    exact ⟨c, header, hover.passes⟩
  · rintro ⟨c, header, hpasses⟩
    have hmem : .register c.location.place (handed c header) ∈
        (boot.run q).trace.filter Event.isLaunch := by
      simp [(takenOver_of_passes hpasses).calls]
    exact ⟨_, _, (List.mem_filter.mp hmem).1⟩

/-! ### The stages of an attempt -/

/-- What the stages of an attempt are, given the state in which it starts and its run. -/
structure FollowsStages (q : Pipeline δ ζ ℓ) (ran : Ran (Pipeline δ ζ ℓ) Bool) : Prop where
  /-- They form a path of allowed steps from the first stage to the one that is left. -/
  path : Stage.Path .notStarted (changes ran.trace) ran.state.stage
  /-- The stage of acquired images is entered exactly if the acquisition succeeds. -/
  acquired : Enters ran.trace .acquired ↔ q.HasAcquired
  /-- The stage of unpacked images is entered exactly if the acquired image is compressed and
  unpacking it succeeds. -/
  decompressed : Enters ran.trace .decompressed ↔ q.HasUnpacked
  /-- The stage of validated images is entered exactly if validation succeeds. -/
  validated : Enters ran.trace .validated ↔ ∃ c header, q.Passes c header
  /-- The stage of registered images is entered exactly if an image is registered with the
  launcher. -/
  registered : Enters ran.trace .registered ↔ Registers ran.trace
  /-- An attempt that answers yes leaves the stage of registered images, and one that answers no
  that of failed attempts. -/
  answer : (ran.result = .ok true → ran.state.stage = .registered) ∧
    (ran.result = .ok false → ran.state.stage = .failed)

/-- **The stages of an attempt form a path from the first stage**, whatever stage the attempt before
it left, and each is entered exactly if the step that it stands for was taken. -/
theorem boot_follows_stages (q : Pipeline δ ζ ℓ) : q.FollowsStages (boot.run q) := by
  obtain ⟨added, hchanges, hfinish⟩ := finish q
  have hprogress := progress q
  obtain ⟨hacq, hunpack, hnovalid, hnoregister⟩ := hprogress.enters
  obtain ⟨hnoacq, hnounpack, hvalid, hregister⟩ := hfinish.enters
  have henters : ∀ s, Enters (boot.run q).trace s ↔
      (∃ old, (old, s) ∈ changes q.prepared.trace) ∨ ∃ old, (old, s) ∈ added := by
    intro s
    rw [enters_iff, hchanges]
    simp only [List.mem_append, exists_or]
  refine ⟨?_, ?_, ?_, ?_, ?_, hfinish.answer⟩
  · rw [hchanges]
    exact hprogress.path.append (hfinish.path hprogress.ne_failed hprogress.validate)
  · rw [henters, hacq]
    simp [hnoacq]
  · rw [henters, hunpack]
    simp [hnounpack]
  · rw [henters, hvalid]
    simp [hnovalid]
  · rw [henters, hregister, registers_boot]
    simp [hnoregister]

/-- A selection changes no stage, and logs none, whether it succeeds or not. -/
theorem select_keeps_stage (medium : BootMedium) (q : Pipeline δ ζ ℓ) :
    changes ((serve (.select medium)).run q).trace = [] ∧
      ((serve (.select medium)).run q).state.stage = q.stage := by
  rw [serve, run_bind, run_select]
  by_cases hsource : (q.sourceFor medium).isSome
  · rw [if_pos hsource]
    exact ⟨rfl, rfl⟩
  · rw [if_neg hsource]
    exact ⟨rfl, rfl⟩

/-- **In any history every attempt follows the stages**, and no selection changes the stage. -/
theorem history_follows_stages (p : Pipeline δ ζ ℓ) (requests : List Request)
    {record : Record δ ζ ℓ} (hmem : record ∈ p.history requests) :
    (record.request = .boot → record.before.FollowsStages record.ran) ∧
      ∀ medium, record.request = .select medium →
        changes record.ran.trace = [] ∧ record.ran.state.stage = record.before.stage := by
  obtain ⟨-, hran⟩ := evolves_of_mem_history hmem
  obtain ⟨q, request, ran⟩ := record
  obtain rfl : ran = (serve request).run q := hran
  constructor
  · rintro rfl
    exact boot_follows_stages q
  · rintro medium rfl
    exact select_keeps_stage medium q

/-- The second attempt of a board whose first one ended with a registered image. -/
def secondBoot : Record Bench.Media Bench.Unpacker Bench.BenchLauncher :=
  ⟨(firstBoot 272).ran.state, .boot, (serve .boot).run (firstBoot 272).ran.state⟩

/-- An attempt after one that ended with a registered image starts at the first stage again. -/
theorem second_boot_follows_stages : secondBoot ∈ (claimingBoard 272).history [.boot, .boot] ∧
    secondBoot.before.stage = .registered ∧ secondBoot.before.FollowsStages secondBoot.ran ∧
      changes secondBoot.ran.trace =
        [(.notStarted, .acquired), (.acquired, .validated), (.validated, .registered)] := by
  have hmem : secondBoot ∈ (claimingBoard 272).history [.boot, .boot] :=
    List.mem_cons_of_mem _ List.mem_cons_self
  exact ⟨hmem, by decide +kernel, (history_follows_stages _ _ hmem).1 rfl, by decide +kernel⟩

end boot

end Pipeline

end BootImage
