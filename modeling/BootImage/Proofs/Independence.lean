import BootImage.Proofs.Registration
import BootImage.Proofs.TwinAcquisition

/-!
# A boot does not depend on what came before it

Target, staging region and scratch header are used again without being cleared, and hold what
earlier attempts, failed ones among them, have left there. If the collaborators answer by what they
are asked (`Behaviour`), none of it decides anything.

* `boot_twin` — calls of `boot` on pipelines that are built alike, with the same medium selected,
  are twins, whatever is in their regions.
* `boot_after_history` — so a call of `boot` after any history has the answer, the final stage and
  the trace of one on a fresh pipeline with the same medium selected. The trace has the reads, the
  inputs of decompressor and checksum, and the registered image.
-/

namespace BootImage

open Attempt Ran

/-! ### Collaborators that answer by what they are asked -/

/-- The answers of a pipeline's collaborators, as functions of what they are asked. -/
structure Behaviour where
  /-- The bytes, or the fault, that the device answers. -/
  read : BlockMedium → (offset length : Nat) → Except String Bytes
  /-- The number of bytes that the decompressor claims. -/
  written : (input : Bytes) → (room : Nat) → Option Nat
  /-- The bytes that it leaves at the start of its output, as many as it claims. -/
  unpacked : (input : Bytes) → (room : Nat) → Bytes
  /-- The launcher's reply to a start, with this image registered. -/
  reply : (image : Bytes) → LaunchCall → LaunchReply

/-- Whatever is unpacked before, and whatever is in the output, an input has this answer. What the
decompressor leaves after the bytes that it claims may be anything. -/
def Decompressor.AnswersBy {ζ : Type} [Decompressor ζ] (b : Behaviour) (z : ζ) : Prop :=
  ∀ z', Reaches z z' → ∀ input output,
    (unpack z' input output).written = b.written input output.length ∧
      ∀ n ≤ output.length, (unpack z' input output).written = some n →
        (unpack z' input output).output.take n = b.unpacked input output.length

/-- Whatever is registered and started before, the image that is registered now has this reply. -/
def Launcher.AnswersBy {ℓ : Type} [Launcher ℓ] (b : Behaviour) (l : ℓ) : Prop :=
  ∀ l', Reaches l l' → ∀ image call, (start (register l' image) call).1 = b.reply image call

/-- After calls a decompressor answers as before. -/
theorem Decompressor.AnswersBy.reaches {ζ : Type} [Decompressor ζ] {b : Behaviour} {z z' : ζ}
    (h : AnswersBy b z) (hr : Reaches z z') : AnswersBy b z' :=
  fun z'' hz' => h z'' (hr.trans hz')

/-- After calls a launcher answers as before. -/
theorem Launcher.AnswersBy.reaches {ℓ : Type} [Launcher ℓ] {b : Behaviour} {l l' : ℓ}
    (h : AnswersBy b l) (hr : Reaches l l') : AnswersBy b l' :=
  fun l'' hl' => h l'' (hr.trans hl')

namespace Pipeline

variable {δ ζ ℓ : Type} [Device δ] [Decompressor ζ] [Launcher ℓ]

/-- The collaborators of a pipeline answer by what they are asked. -/
structure Behaves (b : Behaviour) (p : Pipeline δ ζ ℓ) : Prop where
  device : Device.AnswersBy b.read p.device
  decompressor : ∀ z, p.decompressor = some z → Decompressor.AnswersBy b z
  launcher : Launcher.AnswersBy b p.launcher

/-- Pipelines that are built alike. Their target and staging regions have the same lengths, and
what is in these, in the scratch header and in the stage is left open. -/
structure Alike (p q : Pipeline δ ζ ℓ) : Prop where
  crc : p.crc = q.crc
  config : p.config = q.config
  payload : p.payload = q.payload
  window : p.window = q.window
  length_target : p.target.length = q.target.length
  staging : p.staging.map List.length = q.staging.map List.length
  decompressor : p.decompressor.isSome = q.decompressor.isSome

/-- Two pipelines in the middle of an attempt that cannot be told apart. -/
structure Twins (b : Behaviour) (p q : Pipeline δ ζ ℓ) : Prop where
  left : p.Behaves b
  right : q.Behaves b
  alike : p.Alike q
  selected : p.selected = q.selected
  stage : p.stage = q.stage

section evolution

variable {b : Behaviour} {p p' q : Pipeline δ ζ ℓ}

/-- The collaborators go on to behave so. -/
theorem Behaves.evolves (h : p.Behaves b) (he : p.Evolves p') : p'.Behaves b where
  device := h.device.reaches he.workspace.device
  decompressor := by
    intro z' hz'
    have hrel := he.decompressor
    rw [hz'] at hrel
    rcases hz : p.decompressor with _ | z
    · rw [hz] at hrel
      cases hrel
    · rw [hz] at hrel
      cases hrel with
      | some hr => exact (h.decompressor z hz).reaches hr
  launcher := h.launcher.reaches he.launcher

/-- A decompressor neither comes nor goes. -/
theorem isSome_of_reaches {z z' : Option ζ} (h : Option.Rel Decompressor.Reaches z z') :
    z.isSome = z'.isSome := by
  cases h with
  | some h => rfl
  | none => rfl

/-- A pipeline that is built like another one stays so. -/
theorem Alike.evolves (h : p.Alike q) (he : p.Evolves p') : p'.Alike q where
  crc := he.crc.trans h.crc
  config := he.config.trans h.config
  payload := he.payload.trans h.payload
  window := he.window.trans h.window
  length_target := he.workspace.length_target.trans h.length_target
  staging := he.staging.trans h.staging
  decompressor := (isSome_of_reaches he.decompressor).symm.trans h.decompressor

end evolution

/-! ### The steps of a preparation -/

section steps

variable {b : Behaviour} {p q : Pipeline δ ζ ℓ} {α : Type}

omit [Device δ] [Decompressor ζ] [Launcher ℓ] in
/-- Advances at the same stage are twins, and so is what follows them. -/
theorem advancing {alike : Pipeline δ ζ ℓ → Pipeline δ ζ ℓ → Prop}
    {both : α → α → Pipeline δ ζ ℓ → Pipeline δ ζ ℓ → Prop}
    {f f' : Unit → Attempt (Pipeline δ ζ ℓ) α} {next : Stage} (hstage : p.stage = q.stage)
    (h : Twin alike both ((f ()).run { p with stage := next })
      ((f' ()).run { q with stage := next })) :
    Twin alike both ((advance next >>= f).run p) ((advance next >>= f').run q) := by
  have hrun : ∀ p : Pipeline δ ζ ℓ, (advance next).run p =
      ⟨.ok (), [.logged (.stage p.stage next)], { p with stage := next }⟩ := fun _ => rfl
  rw [run_bind, run_bind, hrun, hrun, continueWith_ok, continueWith_ok, hstage]
  exact h.prepend _

omit [Device δ] [Decompressor ζ] [Launcher ℓ] in
/-- The same location has the same image, and so has what follows. -/
theorem imaging {alike : Pipeline δ ζ ℓ → Pipeline δ ζ ℓ → Prop}
    {both : α → α → Pipeline δ ζ ℓ → Pipeline δ ζ ℓ → Prop}
    {f f' : Bytes → Attempt (Pipeline δ ζ ℓ) α} {location : Location}
    (hlen : p.target.length = q.target.length)
    (hsame : location.Same location p.target q.target)
    (h : Twin alike both ((f (location.bytes p.target)).run p)
      ((f' (location.bytes p.target)).run q)) :
    Twin alike both ((imageAt location >>= f).run p) ((imageAt location >>= f').run q) := by
  obtain ⟨-, hfits, hbytes⟩ := hsame
  have hfits' : location.Fits q.target := by
    cases location with
    | resident place image => trivial
    | inTarget length => exact Nat.le_trans hfits (Nat.le_of_eq hlen)
  rw [run_bind, run_bind, run_imageAt hfits, run_imageAt hfits', ← hbytes]
  exact h.prepend []

/-- Twins stay twins when both enter a stage. -/
theorem Twins.atStage (h : p.Twins b q) (stage : Stage) :
    Twins b { p with stage := stage } { q with stage := stage } where
  left := ⟨h.left.device, h.left.decompressor, h.left.launcher⟩
  right := ⟨h.right.device, h.right.decompressor, h.right.launcher⟩
  alike := { h.alike with }
  selected := h.selected
  stage := rfl

omit [Device δ] [Decompressor ζ] [Launcher ℓ] in
/-- Pipelines that are built alike have the same strategy for a medium. -/
theorem sourceFor_alike (h : p.Alike q) (medium : BootMedium) :
    p.sourceFor medium = q.sourceFor medium := by
  unfold sourceFor
  rw [h.config, h.payload, h.window]

/-- They choose the same strategy. -/
theorem selectedSource_twin (h : p.Twins b q) :
    Twin (Twins b) Equal ((selectedSource : Attempt (Pipeline δ ζ ℓ) Source).run p)
      (selectedSource.run q) := by
  refine Twin.getting ?_
  rw [← h.selected]
  rcases p.selected with _ | medium
  · exact .stopped h
  · refine Twin.getting ?_
    rw [← sourceFor_alike h.alike]
    rcases p.sourceFor medium with _ | source
    · exact .stopped h
    · exact .ok h rfl

/-- They acquire the same image. -/
theorem acquisition_twin (source : Source) (h : p.Twins b q) :
    Twin (Twins b) (fun l l' p q => l.Same l' p.target q.target)
      ((onWorkspace source.acquire).run p) ((onWorkspace source.acquire).run q) := by
  have hw : Workspace.Twins b.read p.toWorkspace q.toWorkspace :=
    ⟨⟨h.left.device, h.right.device⟩, h.alike.length_target⟩
  refine (source.acquire_twin hw).on ?_ (fun _ _ _ _ _ h => h)
  intro w w' hw
  exact
    { left := ⟨hw.device.1, h.left.decompressor, h.left.launcher⟩
      right := ⟨hw.device.2, h.right.decompressor, h.right.launcher⟩
      alike := { h.alike with length_target := hw.length_target }
      selected := h.selected
      stage := h.stage }

omit [Device δ] [Decompressor ζ] [Launcher ℓ] in
/-- Whether an image can be moved is a matter of lengths. -/
theorem movable_of_movable {location : Location} {staging staging' : Option Bytes}
    (hlen : staging.map List.length = staging'.map List.length)
    (hmove : location.Movable staging) : location.Movable staging' := by
  cases location with
  | resident place image => trivial
  | inTarget length =>
    obtain ⟨region, rfl, hroom⟩ := hmove
    obtain ⟨region', hstaging, hregion⟩ := Option.map_eq_some_iff.mp hlen.symm
    exact ⟨region', hstaging, hregion ▸ hroom⟩

/-- The compressed bytes are the same, and the move leaves staging regions of the same length. -/
theorem compressedInput_twin {location : Location} (h : p.Twins b q)
    (hsame : location.Same location p.target q.target) :
    Twin (Twins b) Equal ((compressedInput location).run p) ((compressedInput location).run q) := by
  cases location with
  | resident place image => exact .ok h rfl
  | inTarget length =>
    obtain ⟨-, hfits, hbytes⟩ := hsame
    have hfits' : (Location.inTarget length).Fits q.target :=
      Nat.le_trans hfits (Nat.le_of_eq h.alike.length_target)
    by_cases hmove : (Location.inTarget length).Movable p.staging
    · have hmove' := movable_of_movable h.alike.staging hmove
      have hleft := Location.map_length_moved (List.length_take_of_le hfits) hmove
      have hright := Location.map_length_moved (List.length_take_of_le hfits') hmove'
      rw [run_compressedInput hfits hmove, run_compressedInput hfits' hmove']
      refine .ok ?_ hbytes
      exact
        { left := ⟨h.left.device, h.left.decompressor, h.left.launcher⟩
          right := ⟨h.right.device, h.right.decompressor, h.right.launcher⟩
          alike := { h.alike with staging := hleft.trans (h.alike.staging.trans hright.symm) }
          selected := h.selected
          stage := h.stage }
    · have hmove' : ¬ (Location.inTarget length).Movable q.staging :=
        fun hmove' => hmove (movable_of_movable h.alike.staging.symm hmove')
      rw [run_compressedInput_of_not_movable hmove, run_compressedInput_of_not_movable hmove']
      exact .stopped h

/-- Decompressors that were called once more still answer alike, and targets keep their length. -/
theorem Twins.afterUnpack {z z' : ζ} (h : p.Twins b q) (hz : p.decompressor = some z)
    (hz' : q.decompressor = some z') (input : Bytes) :
    Twins b (p.afterUnpack z input) (q.afterUnpack z' input) where
  left := by
    refine ⟨h.left.device, ?_, h.left.launcher⟩
    intro z₁ hz₁
    cases hz₁
    exact (h.left.decompressor z hz).reaches (.unpack _ _ .refl)
  right := by
    refine ⟨h.right.device, ?_, h.right.launcher⟩
    intro z₁ hz₁
    cases hz₁
    exact (h.right.decompressor z' hz').reaches (.unpack _ _ .refl)
  alike :=
    { h.alike with
      length_target := by
        have hleft : (p.afterUnpack z input).target.length = p.target.length :=
          Decompressor.length_unpack _ _ _
        have hright : (q.afterUnpack z' input).target.length = q.target.length :=
          Decompressor.length_unpack _ _ _
        rw [hleft, hright, h.alike.length_target]
      decompressor := rfl }
  selected := h.selected
  stage := h.stage

/-- Calls of decompressors that answer alike give the same number, and leave the same image. -/
theorem unpacking_twin (input : Bytes) (h : p.Twins b q) :
    Twin (Twins b)
      (fun n n' p q => (Location.inTarget n).Same (.inTarget n') p.target q.target)
      ((onUnpacking (Unpacking.run input)).run p) ((onUnpacking (Unpacking.run input)).run q) := by
  -- Both have a decompressor, or neither has.
  have hsome := h.alike.decompressor
  rcases hz : p.decompressor with _ | z
  · rcases hz' : q.decompressor with _ | z'
    · rw [run_unpacking_of_none input hz, run_unpacking_of_none input hz']
      exact .stopped h
    · rw [hz, hz'] at hsome
      cases hsome
  rcases hz' : q.decompressor with _ | z'
  · rw [hz, hz'] at hsome
    cases hsome
  obtain ⟨hwritten, hleft⟩ := h.left.decompressor z hz z .refl input p.target
  obtain ⟨hwritten', hright⟩ := h.right.decompressor z' hz' z' .refl input q.target
  rw [← h.alike.length_target] at hwritten' hright
  have hafter := h.afterUnpack hz hz' input
  by_cases hclaim : ∃ n, b.written input p.target.length = some n ∧
      Unpacking.Accepts p.target.length n
  · obtain ⟨n, hn, haccept⟩ := hclaim
    have hrun := run_unpacking_of_some hz (fun u => by
      rw [unpackAnswer, hwritten, hn]
      exact Unpacking.run_accept haccept u)
    have hrun' := run_unpacking_of_some hz' (fun u => by
      rw [unpackAnswer, hwritten', hn, ← h.alike.length_target]
      exact Unpacking.run_accept haccept u)
    rw [hrun, hrun', h.alike.length_target]
    refine .ok hafter ⟨rfl, ?_, ?_⟩
    · exact Nat.le_trans haccept.2 (Nat.le_of_eq (Decompressor.length_unpack _ _ _).symm)
    · exact (hleft n haccept.2 (hwritten.trans hn)).trans
        (hright n haccept.2 (hwritten'.trans hn)).symm
  · have hrefused : ∀ n, b.written input p.target.length = some n →
        ¬ Unpacking.Accepts p.target.length n := fun n hn haccept => hclaim ⟨n, hn, haccept⟩
    have hrun := run_unpacking_of_some hz (fun u => by
      rw [unpackAnswer, hwritten]
      exact Unpacking.run_accept_of_not hrefused u)
    have hrun' := run_unpacking_of_some hz' (fun u => by
      rw [unpackAnswer, hwritten', ← h.alike.length_target]
      exact Unpacking.run_accept_of_not hrefused u)
    rw [hrun, hrun', h.alike.length_target]
    exact .stopped hafter

/-- Images that can be unpacked give the same image. -/
theorem unpack_twin {location : Location} (h : p.Twins b q)
    (hsame : location.Same location p.target q.target) :
    Twin (Twins b) (fun l l' p q => l.Same l' p.target q.target)
      ((unpack location).run p) ((unpack location).run q) := by
  refine (compressedInput_twin h hsame).bind ?_
  rintro input _ p q h rfl
  refine (unpacking_twin input h).bind ?_
  rintro n n' p q h hsame
  refine advancing h.stage ?_
  obtain ⟨hn, hfits, hbytes⟩ := hsame
  exact .ok (h.atStage .decompressed) ⟨hn, hfits, hbytes⟩

/-- What is made of the same acquired image is the same candidate. -/
theorem deliver_twin {location : Location} (h : p.Twins b q)
    (hsame : location.Same location p.target q.target) :
    Twin (Twins b) Equal
      ((deliver location : Attempt (Pipeline δ ζ ℓ) Candidate).run p)
      ((deliver location).run q) := by
  unfold deliver
  refine advancing h.stage ?_
  have h := h.atStage .acquired
  refine imaging h.alike.length_target hsame ?_
  refine Twin.blindly (.ofExcept _) h fun header => ?_
  by_cases hkind : (header.kind == some .compressed) = true
  · simp only [hkind, if_true]
    refine (unpack_twin h hsame).bind ?_
    rintro l _ p q h hsame
    obtain rfl := hsame.1
    exact imaging h.alike.length_target hsame (.ok h rfl)
  · simp only [hkind, pure_bind]
    exact imaging h.alike.length_target hsame (.ok h rfl)

/-- **Preparations are twins**: they come to the same candidate. -/
theorem prepare_twin (h : p.restarted.Twins b q.restarted) :
    Twin (Twins b) Equal ((prepare : Attempt (Pipeline δ ζ ℓ) Candidate).run p)
      (prepare.run q) := by
  refine Twin.modifying ?_
  refine (selectedSource_twin h).bind ?_
  rintro source _ p q h rfl
  refine (acquisition_twin source h).bind ?_
  rintro location _ p q h hsame
  obtain rfl := hsame.1
  exact deliver_twin h hsame

end steps

/-! ### The steps after a preparation -/

section launching

variable {b : Behaviour} {p q : Pipeline δ ζ ℓ}

omit [Device δ] [Decompressor ζ] [Launcher ℓ] in
/-- The checksum of an image does not depend on the state. -/
theorem imageChecksum_blind {σ : Type} (h : Header) (crc : Checksum) (image : Bytes) :
    Blind (h.imageChecksum crc image : Attempt σ UInt32) := by
  unfold Header.imageChecksum
  dsimp only
  split_ifs
  · refine (Blind.log _).bind fun _ => ?_
    exact (Blind.cut _ _).bind fun _ => .checksumWith _ _
  · exact (Blind.cut _ _).bind fun _ => .checksumWith _ _

omit [Device δ] [Decompressor ζ] [Launcher ℓ] in
/-- A validation looks at the image and at nothing else. -/
theorem validate_blind {σ : Type} (crc : Checksum) (image : Bytes) (wasUnpacked : Bool) :
    Blind (validate crc image wasUnpacked : Attempt σ Header) := by
  unfold validate
  refine (Blind.ofExcept _).bind fun header => ?_
  by_cases hmagic : header.magic = Header.plainMagic
  · simp only [hmagic, if_true]
    refine (Blind.within _ _).bind ?_
    rintro ⟨_ | _, header⟩
    · refine (Blind.log _).bind fun _ => ?_
      exact (imageChecksum_blind header crc image).bind fun _ => .failWith _ _
    · exact (Blind.log _).bind fun _ => .pure _
  · simp only [hmagic, if_false]
    exact .failWith_bind _ _ _

/-- Launchers that answer alike do so after calls. -/
theorem Twins.withLauncher {l l' : ℓ} (h : p.Twins b q) (hl : Launcher.Reaches p.launcher l)
    (hl' : Launcher.Reaches q.launcher l') :
    Twins b { p with launcher := l } { q with launcher := l' } where
  left := ⟨h.left.device, h.left.decompressor, h.left.launcher.reaches hl⟩
  right := ⟨h.right.device, h.right.decompressor, h.right.launcher.reaches hl'⟩
  alike := { h.alike with }
  selected := h.selected
  stage := h.stage

/-- A registered image has the same reply. -/
theorem launch_twin {image : Bytes} {stage : Stage} (h : p.Twins b q) :
    Twin (Twins b) Equal
      ((launch : Attempt (Pipeline δ ζ ℓ) Unit).run
        { p with launcher := Launcher.register p.launcher image, stage := stage })
      (launch.run { q with launcher := Launcher.register q.launcher image, stage := stage }) := by
  have hleft := h.left.launcher p.launcher .refl image p.config.bootFlow.call
  have hright := h.right.launcher q.launcher .refl image p.config.bootFlow.call
  have hcall : q.config.bootFlow.call = p.config.bootFlow.call :=
    congrArg (·.bootFlow.call) h.alike.config.symm
  have hafter := (h.withLauncher
    (.start p.config.bootFlow.call (.register image .refl))
    (.start p.config.bootFlow.call (.register image .refl))).atStage stage
  rw [run_launch, run_launch]
  simp only [hcall, hleft, hright]
  rcases b.reply image p.config.bootFlow.call with _ | fault | _
  · exact .ok hafter rfl
  · exact .stopped hafter
  · exact .stopped hafter

/-- **Attempts are twins.** -/
theorem attempt_twin (h : p.restarted.Twins b q.restarted) :
    Twin (Twins b) Equal ((attempt : Attempt (Pipeline δ ζ ℓ) Unit).run p) (attempt.run q) := by
  rw [attempt_eq]
  refine (prepare_twin h).bind ?_
  rintro c _ p q h rfl
  rw [check, bind_assoc]
  refine Twin.getting ?_
  rw [← h.alike.crc]
  refine Twin.blindly (validate_blind _ _ _) h fun header => ?_
  rw [enlist, bind_assoc]
  refine advancing h.stage ?_
  have h := h.atStage .validated
  simp only [register, bind_assoc]
  refine Twin.blindly (.log _) h fun _ => ?_
  refine Twin.blindly (.cut _ _) h fun slice => ?_
  refine Twin.modifying ?_
  have hregistered := h.withLauncher (.register slice .refl) (.register slice .refl)
  refine Twin.blindly (.emit _) hregistered fun _ => ?_
  refine Twin.blindly (.log _) hregistered fun _ => ?_
  exact advancing hregistered.stage (launch_twin h)

/-- Pipelines that are built alike, with the same medium selected, cannot be told apart from the
start of an attempt on. -/
theorem Alike.twins (h : p.Alike q) (hp : p.Behaves b) (hq : q.Behaves b)
    (hselected : p.selected = q.selected) : p.restarted.Twins b q.restarted where
  left := ⟨hp.device, hp.decompressor, hp.launcher⟩
  right := ⟨hq.device, hq.decompressor, hq.launcher⟩
  alike := { h with }
  selected := hselected
  stage := rfl

/-- **Calls of `boot` are twins**, whatever is in the regions that they use. -/
theorem boot_twin (hp : p.Behaves b) (hq : q.Behaves b) (halike : p.Alike q)
    (hselected : p.selected = q.selected) : Twin (Twins b) Equal (boot.run p) (boot.run q) := by
  have hcaught := (attempt_twin (halike.twins hp hq hselected)).caught
  refine (hcaught.bind ?_).prepend [.logged .starting]
  rintro answer _ p q h rfl
  rcases answer with cause | _
  · refine Twin.blindly (.log _) h fun _ => ?_
    exact advancing h.stage (.ok (h.atStage .failed) rfl)
  · exact .ok h rfl

/-- **A boot does not depend on what came before it.** After any history, a call of `boot` has the
answer, the trace and the final stage of one on any pipeline that is built alike and has the same
medium selected, a fresh one among them. -/
theorem boot_after_history (b : Behaviour) (hp : p.Behaves b) (hq : q.Behaves b)
    (halike : p.Alike q) (requests : List Request)
    (hselected : (p.after requests).selected = q.selected) :
    (boot.run (p.after requests)).result = (boot.run q).result ∧
      (boot.run (p.after requests)).trace = (boot.run q).trace ∧
      (boot.run (p.after requests)).state.stage = (boot.run q).state.stage := by
  have hevolves := evolves_after requests p
  have htwin := boot_twin (hp.evolves hevolves) hq (halike.evolves hevolves) hselected
  exact ⟨htwin.result, htwin.trace, htwin.state.stage⟩

end launching

end Pipeline

/-! ### A board on which it can be seen -/

namespace Bench

/-- A decompressor that claims what it writes, and a launcher that cannot be told to refuse, beside
media whose contents are known. -/
def behaviour (m : Media) (u : Unpacker) : Behaviour where
  read := m.bytesAt
  written input room :=
    if u.fails then none
    else if room < (u.resultFor input).length then none else some (u.resultFor input).length
  unpacked input _ := u.resultFor input
  reply _ _ := .returned

/-- Reads leave media as they are. -/
theorem media_of_reaches {m m' : Media} (h : Device.Reaches m m') : m' = m := by
  induction h with
  | refl => rfl
  | read medium offset buffer _ ih =>
    subst ih
    show (Media.read _ medium offset buffer).device = _
    unfold Media.read
    split <;> rfl

/-- Plain media answer by their contents. -/
theorem media_answersBy (m : Media) : Device.AnswersBy m.bytesAt m := by
  intro m' hm'
  obtain rfl := media_of_reaches hm'
  intro medium offset buffer
  show (Media.read m' medium offset buffer).Is _
  unfold Media.read
  rcases m'.bytesAt medium offset buffer.length with fault | bytes
  · rfl
  · exact ⟨rfl, rfl⟩

/-- The claim is the length of the result, which is at the start of the output if it has room. -/
theorem unpacker_answersBy (m : Media) {u : Unpacker} (hclaim : u.claim = none) :
    Decompressor.AnswersBy (behaviour m u) u := by
  intro u' hu'
  have hu : u' = u := by
    induction hu' with
    | refl => rfl
    | unpack input output _ ih => exact ih
  subst hu
  intro input output
  have hwritten : (Decompressor.unpack u' input output).written =
      (behaviour m u').written input output.length := by
    show u'.written (u'.resultFor input) output = _
    unfold Unpacker.written behaviour
    rw [hclaim]
  refine ⟨hwritten, ?_⟩
  intro n hn hwrote
  have hresult : (if u'.fails then none
      else if output.length < (u'.resultFor input).length then none
      else some (u'.resultFor input).length) = some n := hwritten.symm.trans hwrote
  have hlength : output.length ≥ (u'.resultFor input).length ∧ (u'.resultFor input).length = n := by
    split_ifs at hresult with hfails hroom
    exact ⟨Nat.le_of_not_lt hroom, Option.some.inj hresult⟩
  obtain ⟨hfits, rfl⟩ := hlength
  show ((u'.resultFor input).take output.length ++ _).take _ = u'.resultFor input
  rw [List.take_of_length_le hfits, List.take_left]

/-- A launcher that does not fail answers as the behaviour says. -/
theorem launcher_answersBy (m : Media) (u : Unpacker) :
    Launcher.AnswersBy (behaviour m u) (BenchLauncher.custom false) := by
  intro l' hl'
  have hl : l' = .custom false := by
    induction hl' with
    | refl => rfl
    | register image _ ih =>
      subst ih
      rfl
    | start call _ ih =>
      subst ih
      cases call <;> rfl
  subst hl
  intro image call
  cases call <;> rfl

/-- SPI flash with an image that is nothing but its header. -/
def flashed : Media := Media.none.set .spiFlash (some (Pipeline.claiming 272).bytes)

/-- A decompressor that takes the header off. -/
def stripping : Unpacker := ⟨[], some Header.size, none, false⟩

/-- A board that boots from SPI flash, with regions that are full of one byte. Every checksum is
zero. -/
def flashBoard (content : UInt8) : Pipeline Media Unpacker BenchLauncher :=
  (((Pipeline.new flashed (.custom false) { BootConfig.default with spiFlash := some ⟨0⟩ }
    (List.replicate 300 content)).withDecompressor stripping).withStaging
      (List.replicate 300 content)).withCrc (constantChecksum 0)

/-- The collaborators of the board behave as its behaviour says. -/
theorem flashBoard_behaves (content : UInt8) :
    (flashBoard content).Behaves (behaviour flashed stripping) where
  device := media_answersBy flashed
  decompressor := by
    intro u hu
    cases hu
    exact unpacker_answersBy flashed rfl
  launcher := launcher_answersBy flashed stripping

/-- Boards that differ in what is left in their regions are built alike. -/
theorem flashBoard_alike (content content' : UInt8) :
    (flashBoard content).Alike (flashBoard content') where
  crc := rfl
  config := rfl
  payload := rfl
  window := rfl
  length_target := by
    show (List.replicate 300 content).length = (List.replicate 300 content').length
    rw [List.length_replicate, List.length_replicate]
  staging := by
    show some (List.replicate 300 content).length = some (List.replicate 300 content').length
    rw [List.length_replicate, List.length_replicate]
  decompressor := rfl

/-- The second boot of a board with other bytes in its regions is the first of a fresh one. -/
theorem second_boot_of_flashBoard :
    (Pipeline.boot.run ((flashBoard 0xFF).after [.boot])).result =
        (Pipeline.boot.run (flashBoard 0)).result ∧
      (Pipeline.boot.run ((flashBoard 0xFF).after [.boot])).trace =
        (Pipeline.boot.run (flashBoard 0)).trace ∧
      (Pipeline.boot.run ((flashBoard 0xFF).after [.boot])).state.stage =
        (Pipeline.boot.run (flashBoard 0)).state.stage := by
  have hselected : ((flashBoard 0xFF).after [.boot]).selected = (flashBoard 0).selected := by
    rw [Pipeline.after, Pipeline.after, Pipeline.serve, (Pipeline.boot_evolves (flashBoard 0xFF)).2]
    rfl
  exact Pipeline.boot_after_history (behaviour flashed stripping) (flashBoard_behaves 0xFF)
    (flashBoard_behaves 0) (flashBoard_alike 0xFF 0) [.boot] hselected

end Bench

end BootImage
