import BootImage.Proofs.Delivery

/-!
# What a boot attempt answers

After its preparation an attempt validates the candidate, registers it and asks for it to be
started. The launcher's reply then decides, and nothing else does.

* `BootFlow.handOver` — what the launcher is called for, flow by flow: it is told the image, and
  then restarts all cores or runs its own flow.
* `attempted` — every attempt takes one of three courses: its preparation fails, or its candidate is
  not valid, or the launcher is called and replies.
* `boot_outcome` — an attempt answers yes exactly when a medium is selected, it has a strategy, an
  image is acquired and is long enough for a header, it is unpacked if it is compressed, what is
  there then is a valid image, and the launcher comes back. It departs exactly when the launcher
  does so in the place of coming back, and in all other cases it answers no. The launcher is left as
  it is after these two calls, or untouched.
* `failsFor_boot_iff` — the cause that a failed attempt logs is that of its first step that failed.
* `boot_evolves` — a call of `boot` leaves everything that no request changes, and the selection.
-/

namespace BootImage

open Attempt

namespace LaunchReply

/-- What becomes of the attempt. -/
def result : LaunchReply → Except Stop Unit
  | returned => .ok ()
  | refused _ => .error (.failed .launch)
  | departed => .error .departed

/-- How the call of `boot` then ends. -/
def answer : LaunchReply → Except Stop Bool
  | returned => .ok true
  | refused _ => .ok false
  | departed => .error .departed

/-- What is said about a reply. -/
def report : LaunchReply → List Event
  | refused fault => [.logged (.launchFailed fault)]
  | returned | departed => []

/-- No reply means that a step went out of range. -/
theorem result_ne_outOfRange (reply : LaunchReply) : reply.result ≠ .error .outOfRange := by
  cases reply with
  | returned => simp [result]
  | refused fault => simp [result]
  | departed => simp [result]

end LaunchReply

/-- A launcher takes over an image: it is told the image, and is then asked for the start that the
flow stands for. Its reply, and the launcher after it. -/
def BootFlow.handOver {ℓ : Type} [Launcher ℓ] (launcher : ℓ) (image : Bytes) :
    BootFlow → LaunchReply × ℓ
  | restartCores => Launcher.restart (Launcher.register launcher image) .all
  | custom => Launcher.customFlow (Launcher.register launcher image)

/-- The call that a flow leads to is the start that it stands for. -/
theorem BootFlow.start_call {ℓ : Type} [Launcher ℓ] (launcher : ℓ) (image : Bytes)
    (flow : BootFlow) : Launcher.start (Launcher.register launcher image) flow.call =
      flow.handOver launcher image := by
  cases flow with
  | restartCores => rfl
  | custom => rfl

/-- Handing an image over is two calls of the launcher. -/
theorem Launcher.Reaches.handOver {ℓ : Type} [Launcher ℓ] (launcher : ℓ) (image : Bytes)
    (flow : BootFlow) : Reaches launcher (flow.handOver launcher image).2 := by
  rw [← BootFlow.start_call]
  exact .start _ (.register _ .refl)

namespace Pipeline

variable {δ ζ ℓ : Type} [Device δ] [Decompressor ζ] [Launcher ℓ]

/-! ### The courses of an attempt -/

section parts

variable (p : Pipeline δ ζ ℓ) (c : Candidate)

omit [Launcher ℓ] in
/-- The preparation of an attempt. -/
def prepared : Ran (Pipeline δ ζ ℓ) Candidate := prepare.run p

/-- The validation of a prepared candidate. -/
def checked : Ran (Pipeline δ ζ ℓ) Header := (check c).run p.prepared.state

/-- The events from the end of a successful validation to the end of the registration. -/
def enlisting : List Event :=
  [.logged (.stage p.prepared.state.stage .validated),
    .logged (.bootSet (Header.ofBytes c.image).setName),
    .register c.location.place (claimedPart c.image),
    .logged .registered, .logged (.stage .validated .registered)]

/-- The pipeline once the candidate is registered. -/
def enlisted : Pipeline δ ζ ℓ :=
  { p.prepared.state with
    launcher := Launcher.register p.launcher (claimedPart c.image)
    stage := .registered }

/-- The launcher's reply to the claimed part of an image, and the launcher after it. -/
def started (image : Bytes) : LaunchReply × ℓ :=
  p.config.bootFlow.handOver p.launcher (claimedPart image)

/-- The pipeline once the launcher has replied. -/
def launched : Pipeline δ ζ ℓ := { p.enlisted c with launcher := (p.started c.image).2 }

/-- The events of an attempt that gets to the launcher. -/
def launching : List Event :=
  p.prepared.trace ++ [headerChecksum p.crc c.image, .logged (.imagePassed c.wasUnpacked)] ++
    p.enlisting c ++ .launch p.config.bootFlow.call :: (p.started c.image).1.report

end parts

/-- The courses that an attempt can take. -/
inductive Attempted (p : Pipeline δ ζ ℓ) : Ran (Pipeline δ ζ ℓ) Unit → Prop
  /-- There is no candidate. -/
  | unprepared {cause : Error} (hprep : p.prepared.result = .error (.failed cause)) :
      Attempted p ⟨.error (.failed cause), p.prepared.trace, p.prepared.state⟩
  /-- The candidate is not valid. -/
  | invalid {c : Candidate} {cause : Error} (hprep : p.prepared.result = .ok c)
      (hvalid : ¬ Valid p.crc c.image) (hcheck : (p.checked c).result = .error (.failed cause)) :
      Attempted p
        ⟨.error (.failed cause), p.prepared.trace ++ (p.checked c).trace, p.prepared.state⟩
  /-- The candidate is registered, and the launcher replies. -/
  | launched {c : Candidate} (hprep : p.prepared.result = .ok c) (hvalid : Valid p.crc c.image) :
      Attempted p ⟨(p.started c.image).1.result, p.launching c, p.launched c⟩

section runs

variable {p : Pipeline δ ζ ℓ} {c : Candidate}

omit [Launcher ℓ] in
/-- A preparation takes one of the courses of preparations. -/
theorem preparation_prepared (p : Pipeline δ ζ ℓ) : Preparation p p.prepared := preparation p

/-- It changes nothing but what preparations may. -/
theorem prepares_prepared (p : Pipeline δ ζ ℓ) : p.Prepares p.prepared.state :=
  (prepare_keeps p).state

omit [Device δ] [Decompressor ζ] [Launcher ℓ] in
/-- A reply is reported, and decides how the attempt ends. -/
theorem run_settle {σ : Type} (reply : LaunchReply) (s : σ) :
    (settle reply).run s = ⟨reply.result, reply.report, s⟩ := by
  cases reply with
  | returned => rfl
  | refused fault => rfl
  | departed => rfl

omit [Device δ] [Decompressor ζ] [Launcher ℓ] in
/-- A check is the validation with the pipeline's checksum. -/
theorem run_check (c : Candidate) (p : Pipeline δ ζ ℓ) :
    (check c).run p = (validate p.crc c.image c.wasUnpacked).run p := by
  rw [check, run_bind, run_get, continueWith_ok]
  rfl

/-- The check of a prepared candidate keeps the contract of validation. -/
theorem checked_keeps (p : Pipeline δ ζ ℓ) (c : Candidate) :
    (p.checked c).Keeps Event.OfValidation (· = p.prepared.state)
      fun header _ => Valid p.crc c.image ∧ header = Header.ofBytes c.image := by
  have hkeeps := validate_keeps p.crc c.image c.wasUnpacked p.prepared.state
  have hrun : p.checked c = (validate p.crc c.image c.wasUnpacked).run p.prepared.state := by
    rw [checked, run_check, (prepares_prepared p).crc]
  rwa [hrun]

/-- The check of a prepared candidate takes one of the courses of validation. -/
theorem checked_course (p : Pipeline δ ζ ℓ) (c : Candidate) :
    Validation p.crc c.image c.wasUnpacked p.prepared.state (p.checked c) := by
  rw [checked, run_check, (prepares_prepared p).crc]
  exact validation p.crc c.image c.wasUnpacked p.prepared.state

/-- A valid candidate passes its check. -/
theorem checked_of_valid (hvalid : Valid p.crc c.image) :
    p.checked c = ⟨.ok (Header.ofBytes c.image),
      [headerChecksum p.crc c.image, .logged (.imagePassed c.wasUnpacked)], p.prepared.state⟩ := by
  have hcourse := checked_course p c
  generalize p.checked c = ran at hcourse
  cases hcourse with
  | headerless hlen => exact absurd hvalid.long (Nat.not_le_of_lt hlen)
  | notPlain hlen hmagic => exact absurd hvalid.plain hmagic
  | damaged hlen hmagic hcrc => exact absurd hvalid.intact hcrc
  | passed _ => rfl

/-- A candidate without room for a header does not. -/
theorem checked_of_short (hlen : c.image.length < Header.size) :
    p.checked c = ⟨.error (.failed .acquisition), [], p.prepared.state⟩ := by
  have hcourse := checked_course p c
  generalize p.checked c = ran at hcourse
  cases hcourse with
  | headerless _ => rfl
  | notPlain hlen' _ => exact absurd hlen (Nat.not_lt_of_le hlen')
  | damaged hlen' _ _ => exact absurd hlen (Nat.not_lt_of_le hlen')
  | passed hvalid => exact absurd hlen (Nat.not_lt_of_le hvalid.long)

/-- Nor does one with another magic word than the plain one. -/
theorem checked_of_not_plain (hlen : Header.size ≤ c.image.length)
    (hmagic : word32 c.image 0 ≠ Header.plainMagic) :
    p.checked c = ⟨.error (.failed (.magicMismatch (word32 c.image 0))),
      [.logged (.invalidMagic (word32 c.image 0))], p.prepared.state⟩ := by
  have hcourse := checked_course p c
  generalize p.checked c = ran at hcourse
  cases hcourse with
  | headerless hlen' => exact absurd hlen' (Nat.not_lt_of_le hlen)
  | notPlain _ _ => rfl
  | damaged _ hmagic' _ => exact absurd hmagic' hmagic
  | passed hvalid => exact absurd hvalid.plain hmagic

/-- Nor one whose checksum does not hold. -/
theorem checked_of_damaged (hlen : Header.size ≤ c.image.length)
    (hmagic : word32 c.image 0 = Header.plainMagic)
    (hcrc : p.crc (checkedBytes c.image) ≠ word32 c.image 4) :
    p.checked c = ⟨.error (.failed .integrity),
      headerChecksum p.crc c.image :: failureReport p.crc c.image c.wasUnpacked,
      p.prepared.state⟩ := by
  have hcourse := checked_course p c
  generalize p.checked c = ran at hcourse
  cases hcourse with
  | headerless hlen' => exact absurd hlen' (Nat.not_lt_of_le hlen)
  | notPlain _ hmagic' => exact absurd hmagic hmagic'
  | damaged _ _ _ => rfl
  | passed hvalid => exact absurd hvalid.intact hcrc

/-- The registration of a candidate with room for a header takes as much of it as its header
claims. -/
theorem run_enlist (hlen : Header.size ≤ c.image.length) :
    (enlist c (Header.ofBytes c.image)).run p.prepared.state =
      ⟨.ok (), p.enlisting c, p.enlisted c⟩ := by
  have hcut : (cut c.image (min (Header.ofBytes c.image).length.toNat c.image.length) :
      Attempt (Pipeline δ ζ ℓ) Bytes) = pure (claimedPart c.image) := by
    rw [Header.length_ofBytes hlen]
    exact cut_of_le (Nat.min_le_right _ _)
  have hlauncher := (prepares_prepared p).sameLauncher
  rw [enlist, register, hcut, pure_bind, enlisted, ← hlauncher]
  rfl

omit [Device δ] [Decompressor ζ] in
/-- The launcher is asked for what the configuration says, and its reply decides. -/
theorem run_launch (p : Pipeline δ ζ ℓ) : (launch : Attempt (Pipeline δ ζ ℓ) Unit).run p =
    ⟨(Launcher.start p.launcher p.config.bootFlow.call).1.result,
      .launch p.config.bootFlow.call ::
        (Launcher.start p.launcher p.config.bootFlow.call).1.report,
      { p with launcher := (Launcher.start p.launcher p.config.bootFlow.call).2 }⟩ := by
  simp only [launch, run_bind, run_get, continueWith_ok, run_emit, run_modify, run_settle]
  rfl

/-- The registered candidate is handed over as the configuration says. -/
theorem run_launch_enlisted : (launch : Attempt (Pipeline δ ζ ℓ) Unit).run (p.enlisted c) =
    ⟨(p.started c.image).1.result,
      .launch p.config.bootFlow.call :: (p.started c.image).1.report, p.launched c⟩ := by
  have hcall : (p.enlisted c).config.bootFlow.call = p.config.bootFlow.call :=
    congrArg (·.bootFlow.call) (prepares_prepared p).config
  have hstart : Launcher.start (p.enlisted c).launcher p.config.bootFlow.call =
      p.started c.image := BootFlow.start_call _ _ _
  rw [run_launch, hcall, hstart]
  rfl

end runs

/-- **Every attempt takes one of the three courses.** -/
theorem attempted (p : Pipeline δ ζ ℓ) :
    Attempted p ((attempt : Attempt (Pipeline δ ζ ℓ) Unit).run p) := by
  have hprepared : (prepare : Attempt (Pipeline δ ζ ℓ) Candidate).run p = p.prepared := rfl
  rw [attempt_eq]
  rcases hprep : p.prepared.result with stop | c
  · obtain ⟨cause, rfl⟩ := (prepare_keeps p).fails stop hprep
    rw [run_bind_of_error hprep]
    exact .unprepared hprep
  rw [run_bind_of_ok hprep, hprepared, run_bind,
    show (check c).run p.prepared.state = p.checked c from rfl]
  by_cases hvalid : Valid p.crc c.image
  · rw [checked_of_valid hvalid, continueWith_ok, run_bind, run_enlist hvalid.long, continueWith_ok,
      run_launch_enlisted]
    have h : Attempted p _ := .launched hprep hvalid
    simpa only [launching, List.append_assoc] using h
  · have hkeeps := checked_keeps p c
    rcases hcheck : p.checked c with ⟨stop | header, t, s⟩
    · rw [hcheck] at hkeeps
      obtain ⟨cause, rfl⟩ := hkeeps.fails stop rfl
      obtain rfl : s = p.prepared.state := hkeeps.state
      have h : Attempted p _ := .invalid hprep hvalid (by rw [hcheck])
      rwa [hcheck] at h
    · rw [hcheck] at hkeeps
      exact absurd (hkeeps.value header rfl).1 hvalid

/-! ### The answer -/

section boot

variable {p : Pipeline δ ζ ℓ}

/-- An attempt that got through answers yes. -/
theorem run_boot_of_ok {t : List Event} {p' : Pipeline δ ζ ℓ}
    (h : (attempt : Attempt (Pipeline δ ζ ℓ) Unit).run p = ⟨.ok (), t, p'⟩) :
    boot.run p = ⟨.ok true, .logged .starting :: t, p'⟩ := by
  rw [boot, run_bind, run_log, continueWith_ok, run_bind, run_caught_of_ok h]
  simp

/-- A failure is logged, and the answer is no. -/
theorem run_boot_of_failed {cause : Error} {t : List Event} {p' : Pipeline δ ζ ℓ}
    (h : (attempt : Attempt (Pipeline δ ζ ℓ) Unit).run p = ⟨.error (.failed cause), t, p'⟩) :
    boot.run p = ⟨.ok false, .logged .starting :: t ++
      [.logged (.bootFailed cause), .logged (.stage p'.stage .failed)],
        { p' with stage := .failed }⟩ := by
  rw [boot, run_bind, run_log, continueWith_ok, run_bind, run_caught_of_failed h]
  simp [advance, Except.map]

/-- When control is in the image nothing is answered. -/
theorem run_boot_of_departed {t : List Event} {p' : Pipeline δ ζ ℓ}
    (h : (attempt : Attempt (Pipeline δ ζ ℓ) Unit).run p = ⟨.error .departed, t, p'⟩) :
    boot.run p = ⟨.error .departed, .logged .starting :: t, p'⟩ := by
  rw [boot, run_bind, run_log, continueWith_ok, run_bind, run_caught_of_departed h]
  simp

end boot

/-- What an attempt leaves, whatever becomes of it. -/
theorem attempt_evolves (p : Pipeline δ ζ ℓ) :
    p.Evolves ((attempt : Attempt (Pipeline δ ζ ℓ) Unit).run p).state ∧
      ((attempt : Attempt (Pipeline δ ζ ℓ) Unit).run p).state.selected = p.selected := by
  have hprepares := prepares_prepared p
  rcases hrun : (attempt : Attempt (Pipeline δ ζ ℓ) Unit).run p with ⟨result, t, p'⟩
  have hcourse := attempted p
  rw [hrun] at hcourse
  cases hcourse with
  | unprepared hprep => exact ⟨hprepares.toEvolves, hprepares.selected⟩
  | invalid hprep hvalid hcheck => exact ⟨hprepares.toEvolves, hprepares.selected⟩
  | launched hprep hvalid =>
    exact ⟨{ hprepares.toEvolves with launcher := .handOver _ _ _ }, hprepares.selected⟩

/-- No attempt cuts past the end of a region. -/
theorem attempt_inRange (p : Pipeline δ ζ ℓ) :
    ((attempt : Attempt (Pipeline δ ζ ℓ) Unit).run p).result ≠ .error .outOfRange := by
  rcases hrun : (attempt : Attempt (Pipeline δ ζ ℓ) Unit).run p with ⟨result, t, p'⟩
  have hcourse := attempted p
  rw [hrun] at hcourse
  cases hcourse with
  | unprepared hprep => simp
  | invalid hprep hvalid hcheck => simp
  | launched hprep hvalid => exact LaunchReply.result_ne_outOfRange _

/-- The run of a call of `boot` is that of its attempt, but for messages and the stage. -/
theorem boot_of_attempt (p : Pipeline δ ζ ℓ) : ∃ report stage,
    (boot.run p).trace = .logged .starting ::
        ((attempt : Attempt (Pipeline δ ζ ℓ) Unit).run p).trace ++ report ∧
      (∀ e ∈ report, ∃ message, e = .logged message) ∧
      (boot.run p).state =
        { ((attempt : Attempt (Pipeline δ ζ ℓ) Unit).run p).state with stage := stage } := by
  rcases hrun : (attempt : Attempt (Pipeline δ ζ ℓ) Unit).run p with ⟨(cause | _ | _) | _, t, p'⟩
  · rw [run_boot_of_failed hrun]
    exact ⟨_, .failed, rfl, by simp, rfl⟩
  · rw [run_boot_of_departed hrun]
    exact ⟨[], p'.stage, by simp, by simp, rfl⟩
  · exact absurd (congrArg Ran.result hrun) (attempt_inRange p)
  · rw [run_boot_of_ok hrun]
    exact ⟨[], p'.stage, by simp, by simp, rfl⟩

/-- After its preparation an attempt changes nothing but the launcher and the stage. -/
theorem state_boot (p : Pipeline δ ζ ℓ) : ∃ launcher stage,
    (boot.run p).state = { p.prepared.state with launcher := launcher, stage := stage } := by
  obtain ⟨report, stage, -, -, hstate⟩ := boot_of_attempt p
  have hcourse := attempted p
  generalize (attempt : Attempt (Pipeline δ ζ ℓ) Unit).run p = ran at hcourse hstate
  rw [hstate]
  cases hcourse with
  | unprepared hprep => exact ⟨_, stage, rfl⟩
  | invalid hprep hvalid hcheck => exact ⟨_, stage, rfl⟩
  | launched hprep hvalid => exact ⟨_, stage, rfl⟩

/-- A run of `boot` that answered no for this cause: it ends with the message of the cause and with
the change to the stage of failed attempts. -/
def FailsFor (ran : Ran (Pipeline δ ζ ℓ) Bool) (cause : Error) : Prop :=
  ran.result = .ok false ∧ ∃ earlier old,
    ran.trace = earlier ++ [.logged (.bootFailed cause), .logged (.stage old .failed)]

/-- The cause that a call of `boot` fails for is that of its attempt. -/
theorem failsFor_boot_iff {p : Pipeline δ ζ ℓ} {cause : Error} : FailsFor (boot.run p) cause ↔
    ((attempt : Attempt (Pipeline δ ζ ℓ) Unit).run p).result = .error (.failed cause) := by
  rcases hrun : (attempt : Attempt (Pipeline δ ζ ℓ) Unit).run p with ⟨(cause' | _ | _) | _, t, p'⟩
  · rw [run_boot_of_failed hrun]
    constructor
    · rintro ⟨-, earlier, old, htrace⟩
      obtain ⟨-, hend⟩ := List.append_inj' htrace rfl
      obtain rfl : cause' = cause := by simpa using (List.cons_eq_cons.mp hend).1
      rfl
    · intro hresult
      cases hresult
      exact ⟨rfl, _, p'.stage, rfl⟩
  · simp [FailsFor, run_boot_of_departed hrun]
  · exact absurd (congrArg Ran.result hrun) (attempt_inRange p)
  · simp [FailsFor, run_boot_of_ok hrun]

/-- A failed preparation is what the call fails for. -/
theorem failsFor_of_unprepared {p : Pipeline δ ζ ℓ} {cause : Error}
    (hprep : p.prepared.result = .error (.failed cause)) : FailsFor (boot.run p) cause := by
  have hprep' : ((prepare : Attempt (Pipeline δ ζ ℓ) Candidate).run p).result =
      .error (.failed cause) := hprep
  rw [failsFor_boot_iff, attempt_eq, run_bind_of_error hprep']

/-- So is a failed validation. -/
theorem failsFor_of_not_checked {p : Pipeline δ ζ ℓ} {c : Candidate} {cause : Error}
    (hprep : p.prepared.result = .ok c) (hcheck : (p.checked c).result = .error (.failed cause)) :
    FailsFor (boot.run p) cause := by
  have hprep' : ((prepare : Attempt (Pipeline δ ζ ℓ) Candidate).run p).result = .ok c := hprep
  have hcheck' : ((check c).run p.prepared.state).result = .error (.failed cause) := hcheck
  rw [failsFor_boot_iff, attempt_eq, run_bind_of_ok hprep']
  show ((check c >>= _).run p.prepared.state).result = _
  rw [run_bind_of_error hcheck']

/-- **A call of `boot` leaves everything that no request changes, and the selection.** -/
theorem boot_evolves (p : Pipeline δ ζ ℓ) :
    p.Evolves (boot.run p).state ∧ (boot.run p).state.selected = p.selected := by
  obtain ⟨report, stage, -, -, hstate⟩ := boot_of_attempt p
  obtain ⟨hevolves, hselected⟩ := attempt_evolves p
  rw [hstate]
  exact ⟨{ hevolves with }, hselected⟩

/-- All that it takes to get a reply from the launcher, in the order in which it is looked at: an
image is acquired with the strategy of the selected medium, has room for a header, and is unpacked
if it is compressed (`Delivers`); what is there then has room for a header, the plain magic word,
and the checksum that it states (`Valid`); and the launcher, told the claimed part of it, replies
this to the start that the configuration asks for. -/
def Gets (p : Pipeline δ ζ ℓ) (reply : LaunchReply) : Prop :=
  ∃ c, p.Delivers c ∧ Valid p.crc c.image ∧
    (p.config.bootFlow.handOver p.launcher (claimedPart c.image)).1 = reply

/-- There is one reply at most. -/
theorem Gets.unique {p : Pipeline δ ζ ℓ} {reply reply' : LaunchReply} (h : p.Gets reply)
    (h' : p.Gets reply') : reply = reply' := by
  obtain ⟨c, hc, -, hreply⟩ := h
  obtain ⟨c', hc', -, hreply'⟩ := h'
  have heq := (prepare_eq_ok.mpr hc).symm.trans (prepare_eq_ok.mpr hc')
  cases heq
  exact hreply.symm.trans hreply'

/-- Without a candidate there is no reply. -/
theorem not_gets_of_unprepared {p : Pipeline δ ζ ℓ} {stop : Stop}
    (hprep : p.prepared.result = .error stop) (reply : LaunchReply) : ¬ p.Gets reply := by
  rintro ⟨c, hc, -⟩
  cases hprep.symm.trans (prepare_eq_ok.mpr hc)

/-- For a candidate that is not valid there is none either. -/
theorem not_gets_of_not_valid {p : Pipeline δ ζ ℓ} {c : Candidate}
    (hprep : p.prepared.result = .ok c) (hvalid : ¬ Valid p.crc c.image) (reply : LaunchReply) :
    ¬ p.Gets reply := by
  rintro ⟨c', hc', hvalid', -⟩
  cases hprep.symm.trans (prepare_eq_ok.mpr hc')
  exact hvalid hvalid'

/-- The ways in which a call of `boot` ends, each with the reply that it goes with. -/
theorem boot_cases (p : Pipeline δ ζ ℓ) :
    ((boot.run p).result = .ok true ∧ (boot.run p).state.stage = .registered ∧ p.Gets .returned) ∨
    ((boot.run p).result = .error .departed ∧ (boot.run p).state.stage = .registered ∧
      p.Gets .departed) ∨
    ((boot.run p).result = .ok false ∧ (boot.run p).state.stage = .failed ∧
      ∀ reply, p.Gets reply → ∃ fault, reply = .refused fault) := by
  rcases hrun : (attempt : Attempt (Pipeline δ ζ ℓ) Unit).run p with ⟨result, t, p'⟩
  have hcourse := attempted p
  rw [hrun] at hcourse
  cases hcourse with
  | unprepared hprep =>
    refine .inr (.inr ?_)
    rw [run_boot_of_failed hrun]
    refine ⟨rfl, rfl, ?_⟩
    rintro reply ⟨c, hc, -⟩
    cases hprep.symm.trans (prepare_eq_ok.mpr hc)
  | invalid hprep hvalid hcheck =>
    refine .inr (.inr ?_)
    rw [run_boot_of_failed hrun]
    refine ⟨rfl, rfl, ?_⟩
    rintro reply ⟨c, hc, hvalid', -⟩
    cases hprep.symm.trans (prepare_eq_ok.mpr hc)
    exact absurd hvalid' hvalid
  | @launched c hprep hvalid =>
    have hgets : p.Gets (p.started c.image).1 := ⟨c, prepare_eq_ok.mp hprep, hvalid, rfl⟩
    rcases hreply : (p.started c.image).1 with _ | fault | _
    · rw [hreply] at hrun hgets
      rw [run_boot_of_ok hrun]
      exact .inl ⟨rfl, rfl, hgets⟩
    · rw [hreply] at hrun hgets
      rw [run_boot_of_failed hrun]
      exact .inr (.inr ⟨rfl, rfl, fun reply h => ⟨fault, h.unique hgets⟩⟩)
    · rw [hreply] at hrun hgets
      rw [run_boot_of_departed hrun]
      exact .inr (.inl ⟨rfl, rfl, hgets⟩)

/-- The reply that a call gets is its answer. -/
theorem answer_of_gets {p : Pipeline δ ζ ℓ} {reply : LaunchReply} (h : p.Gets reply) :
    (boot.run p).result = reply.answer := by
  rcases boot_cases p with ⟨hres, -, hgets⟩ | ⟨hres, -, hgets⟩ | ⟨hres, -, hgets⟩
  · rw [h.unique hgets]
    exact hres
  · rw [h.unique hgets]
    exact hres
  · obtain ⟨fault, rfl⟩ := hgets _ h
    exact hres

/-- It answers yes exactly if the launcher comes back. -/
theorem returned_iff (p : Pipeline δ ζ ℓ) :
    (boot.run p).result = .ok true ↔ p.Gets .returned := by
  refine ⟨fun hyes => ?_, answer_of_gets⟩
  rcases boot_cases p with ⟨-, -, hgets⟩ | ⟨hres, -⟩ | ⟨hres, -⟩
  · exact hgets
  · cases hyes.symm.trans hres
  · cases hyes.symm.trans hres

/-- It departs exactly if the launcher does. -/
theorem departed_iff (p : Pipeline δ ζ ℓ) :
    (boot.run p).result = .error .departed ↔ p.Gets .departed := by
  refine ⟨fun hdeparted => ?_, answer_of_gets⟩
  rcases boot_cases p with ⟨hres, -⟩ | ⟨-, -, hgets⟩ | ⟨hres, -⟩
  · cases hdeparted.symm.trans hres
  · exact hgets
  · cases hdeparted.symm.trans hres

/-- The launcher is left as it is after its reply to a valid candidate, or as it was. -/
theorem launcher_boot (p : Pipeline δ ζ ℓ) :
    (∃ c, p.Delivers c ∧ Valid p.crc c.image ∧
        (boot.run p).state.launcher = (p.started c.image).2) ∨
      ((∀ reply, ¬ p.Gets reply) ∧ (boot.run p).state.launcher = p.launcher) := by
  obtain ⟨report, stage, -, -, hstate⟩ := boot_of_attempt p
  have hlauncher := (prepares_prepared p).sameLauncher
  have hcourse := attempted p
  generalize (attempt : Attempt (Pipeline δ ζ ℓ) Unit).run p = ran at hcourse hstate
  rw [hstate]
  cases hcourse with
  | unprepared hprep => exact .inr ⟨not_gets_of_unprepared hprep, hlauncher⟩
  | invalid hprep hvalid _ => exact .inr ⟨not_gets_of_not_valid hprep hvalid, hlauncher⟩
  | @launched c hprep hvalid => exact .inl ⟨c, prepare_eq_ok.mp hprep, hvalid, rfl⟩

/-- **What decides a boot.** A call of `boot` answers yes exactly if an image is delivered and valid
and the launcher comes back, and it departs exactly if the launcher departs in its place. In all
other cases it answers no. An attempt that answered no has failed, and the others ended with a
registered image. The launcher was handed the claimed part of the valid image, by the flow that the
configuration says, or there is no reply and it was not called. -/
theorem boot_outcome (p : Pipeline δ ζ ℓ) :
    ((boot.run p).result = .ok true ↔ p.Gets .returned) ∧
      ((boot.run p).result = .error .departed ↔ p.Gets .departed) ∧
      ((boot.run p).result = .ok false ↔ ¬ p.Gets .returned ∧ ¬ p.Gets .departed) ∧
      ((boot.run p).state.stage =
        if (boot.run p).result = .ok false then .failed else .registered) ∧
      ((∃ c, p.Delivers c ∧ Valid p.crc c.image ∧ (boot.run p).state.launcher =
            (p.config.bootFlow.handOver p.launcher (claimedPart c.image)).2) ∨
        ((∀ reply, ¬ p.Gets reply) ∧ (boot.run p).state.launcher = p.launcher)) := by
  refine ⟨returned_iff p, departed_iff p, ?_, ?_, launcher_boot p⟩
  · rw [← returned_iff, ← departed_iff]
    rcases boot_cases p with ⟨hres, -, -⟩ | ⟨hres, -, -⟩ | ⟨hres, -, -⟩
    · simp [hres]
    · simp [hres]
    · simp [hres]
  · rcases boot_cases p with ⟨hres, hstage, -⟩ | ⟨hres, hstage, -⟩ | ⟨hres, hstage, -⟩
    · simp [hres, hstage]
    · simp [hres, hstage]
    · simp [hres, hstage]

end Pipeline

end BootImage
