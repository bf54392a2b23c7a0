import BootImage.Proofs.CopyAnswers
import BootImage.Proofs.Registration

/-!
# The selected medium

A configuration has sections for media, and two of the media need a region of memory that is
supplied apart from it. So a medium can exist on a board and still not be available
(`Pipeline.Available`), and the medium that is selected at first, which is chosen by the
configuration alone, may be such a one. A medium that was selected by a request is available for
good.

* `isSome_sourceFor_iff` — there is a strategy for the available media and for no others. As no
  request changes what this depends on (`available_iff_of_evolves`), a selection is answered alike
  at every point of a history.
* `selected_after` — what is selected after a history, by induction from what one request selects
  (`selected_serve`).
* `Source.acquire_failsOnly` — the causes that an acquisition fails for. So with a strategy for the
  selected medium an attempt fails for no cause that is about the choice of the medium
  (`not_ofMedium_of_uses`).
* `history_keeps_selection` — all of this, for a pipeline as it is built.
-/

namespace BootImage

open Attempt

/-! ### Causes of failure -/

/-- The causes that an acquisition fails for. -/
def Error.OfAcquisition : Error → Prop
  | acquisition | magicMismatch _ | imageTooLarge _ _ => True
  | _ => False

/-- The causes that are about the choice of the medium. -/
def Error.OfMedium : Error → Prop
  | noBootMedium | mediumUnavailable _ => True
  | _ => False

/-- The causes of an acquisition are not about the choice of the medium. -/
theorem Error.OfAcquisition.not_ofMedium {cause : Error} (h : cause.OfAcquisition) :
    ¬ cause.OfMedium := by
  cases cause with
  | noBootMedium => exact h.elim
  | mediumUnavailable medium => exact h.elim
  | _ => exact id

/-- In whatever state it is started, a step fails for these causes only. -/
def Attempt.FailsOnly {σ α : Type} (x : Attempt σ α) (causes : Error → Prop) : Prop :=
  ∀ s cause, (x.run s).result = .error (.failed cause) → causes cause

namespace Attempt.FailsOnly

variable {σ α β : Type} {causes : Error → Prop}

/-- A value is no failure. -/
theorem pure (a : α) : FailsOnly (Pure.pure a : Attempt σ α) causes := by
  intro s cause h
  cases h

/-- Nor is a message. -/
theorem log (message : Message) : FailsOnly (Attempt.log message : Attempt σ Unit) causes := by
  intro s cause h
  cases h

/-- A composition fails for a cause of one of its parts. -/
theorem bind {x : Attempt σ α} {f : α → Attempt σ β} (hx : x.FailsOnly causes)
    (hf : ∀ a, (f a).FailsOnly causes) : (x >>= f).FailsOnly causes := by
  intro s cause h
  rcases hres : (x.run s).result with stop | a
  · rw [run_bind_of_error hres] at h
    cases h
    exact hx s cause hres
  · rw [run_bind_of_ok hres] at h
    exact hf a _ cause h

/-- A failure that is caught is not one. -/
theorem caught (x : Attempt σ α) : (Attempt.caught x).FailsOnly causes := by
  intro s cause h
  rcases hres : (x.run s).result with (cause' | _ | _) | a <;>
    simp_all [Attempt.caught, Attempt.run]

end Attempt.FailsOnly

section acquisition

variable {σ δ : Type}

/-- An image without room for a header fails as an acquisition does. -/
theorem Header.read_failsOnly (image : Bytes) :
    (ofExcept (Header.read image) : Attempt σ Header).FailsOnly Error.OfAcquisition := by
  intro s cause h
  unfold Header.read at h
  split_ifs at h
  · cases h
  · cases h
    trivial

/-- So does a header with another magic word. -/
theorem Header.requireMagic_failsOnly (h : Header) :
    (h.requireMagic : Attempt σ Unit).FailsOnly Error.OfAcquisition := by
  intro s cause hfails
  rcases hmagic : h.recognized with _ | _
  · rw [Header.run_requireMagic_of_not hmagic] at hfails
    cases hfails
    trivial
  · rw [Header.run_requireMagic hmagic] at hfails
    cases hfails

/-- Logging the details of a header does not fail. -/
theorem Header.logDetails_failsOnly (h : Header) :
    (h.logDetails : Attempt σ Unit).FailsOnly Error.OfAcquisition := by
  intro s cause hfails
  rw [run_logDetails] at hfails
  cases hfails

variable [Device δ]

/-- A copy fails for causes of an acquisition only. -/
theorem BlockCopy.acquire_failsOnly (c : BlockCopy) :
    (c.acquire : Attempt (Workspace δ) Nat).FailsOnly Error.OfAcquisition := by
  intro w cause h
  by_cases hgoes : c.GoesOn w
  · rw [(c.acquire_of_goesOn w hgoes).2.2] at h
    split_ifs at h
    cases h
    trivial
  · rw [(c.acquire_of_not_goesOn w hgoes).2.2] at h
    cases h
    unfold refusal
    split_ifs
    · trivial
    · trivial
    · trivial

/-- The failure of a lookup is caught, and what is left is a copy. -/
theorem TableCopy.acquire_failsOnly (c : TableCopy) :
    (c.acquire : Attempt (Workspace δ) Nat).FailsOnly Error.OfAcquisition := by
  refine (FailsOnly.caught _).bind fun found => FailsOnly.bind ?_ fun lba =>
    BlockCopy.acquire_failsOnly _
  cases found with
  | ok extent => exact (FailsOnly.log _).bind fun _ => FailsOnly.pure _
  | error cause => exact (FailsOnly.log _).bind fun _ => FailsOnly.pure _

/-- **No strategy fails for a cause that is about the choice of the medium.** -/
theorem Source.acquire_failsOnly (source : Source) :
    (source.acquire : Attempt (Workspace δ) Location).FailsOnly Error.OfAcquisition := by
  cases source with
  | linked image =>
    refine (Header.read_failsOnly image).bind fun header => ?_
    refine header.requireMagic_failsOnly.bind fun _ => ?_
    exact header.logDetails_failsOnly.bind fun _ => FailsOnly.pure _
  | mapped window =>
    refine (FailsOnly.log _).bind fun _ => ?_
    refine (Header.read_failsOnly window).bind fun header => ?_
    exact header.requireMagic_failsOnly.bind fun _ => FailsOnly.pure _
  | copied copy => exact copy.acquire_failsOnly.bind fun _ => FailsOnly.pure _
  | partitioned copy => exact copy.acquire_failsOnly.bind fun _ => FailsOnly.pure _

end acquisition

namespace Pipeline

variable {δ ζ ℓ : Type}

/-! ### The media that are available -/

/-- A medium exists on the board and, for an image that is used in place, so does the memory that
the image is in. -/
@[mk_iff]
structure Available (p : Pipeline δ ζ ℓ) (medium : BootMedium) : Prop where
  enabled : p.config.isEnabled medium = true
  linked : medium = .payload → p.payload.isSome
  mapped : medium = .qspi → ∀ use, p.config.qspi = some use → use.inPlace = true → p.window.isSome

/-- **There is a strategy for the available media and for no others.** -/
theorem isSome_sourceFor_iff {p : Pipeline δ ζ ℓ} {medium : BootMedium} :
    (p.sourceFor medium).isSome ↔ p.Available medium := by
  rw [available_iff]
  cases medium with
  | payload =>
    rcases hsection : p.config.payload with _ | _ <;>
      simp [sourceFor, BootConfig.isEnabled, hsection]
  | qspi =>
    rcases hsection : p.config.qspi with _ | ⟨_ | _⟩ <;>
      simp [sourceFor, BootConfig.isEnabled, hsection]
  | mmc => simp [sourceFor, BootConfig.isEnabled]
  | spiFlash => simp [sourceFor, BootConfig.isEnabled]

variable [Device δ] [Decompressor ζ] [Launcher ℓ] {p : Pipeline δ ζ ℓ}

/-- No request changes which media are available. -/
theorem available_iff_of_evolves {q : Pipeline δ ζ ℓ} (h : p.Evolves q) {medium : BootMedium} :
    q.Available medium ↔ p.Available medium := by
  have hsource : q.sourceFor medium = p.sourceFor medium := by
    have hconfig := h.config
    have hpayload := h.payload
    have hwindow := h.window
    cases medium <;> simp only [sourceFor, hconfig, hpayload, hwindow]
  rw [← isSome_sourceFor_iff, ← isSome_sourceFor_iff, hsource]

/-! ### The causes of failed attempts -/

omit [Launcher ℓ] in
/-- Only the first step of a preparation has a cause that is about the choice of the medium. -/
theorem not_ofMedium_of_unprepared {source : Source} {cause : Error} (huses : p.Uses source)
    (hprep : p.prepared.result = .error (.failed cause)) : ¬ cause.OfMedium := by
  obtain ⟨medium, hsel, hsource⟩ := huses
  have hcourse := preparation_prepared p
  generalize p.prepared = ran at hcourse hprep
  cases hcourse with
  | noMedium hnone => cases hsel.symm.trans hnone
  | unavailable hsel' hnone =>
    cases hsel.symm.trans hsel'
    cases hsource.symm.trans hnone
  | @unacquired source _ _ hacq =>
    cases hprep
    exact (source.acquire_failsOnly _ cause hacq).not_ofMedium
  | plain _ _ => cases hprep
  | unpacked _ _ _ => cases hprep
  -- The image is too short, or it cannot be unpacked.
  | _ =>
    cases hprep
    exact id

omit [Launcher ℓ] in
/-- No cause of a failed validation is about the choice of the medium. -/
theorem not_ofMedium_of_not_checked {c : Candidate} {cause : Error}
    (hcheck : (p.checked c).result = .error (.failed cause)) : ¬ cause.OfMedium := by
  rw [checked, run_check] at hcheck
  have hcourse := validation p.prepared.state.crc c.image c.wasUnpacked p.prepared.state
  generalize (validate p.prepared.state.crc c.image c.wasUnpacked).run p.prepared.state = ran
    at hcourse hcheck
  cases hcourse with
  | passed _ => cases hcheck
  | _ =>
    cases hcheck
    exact id

/-- **With a strategy for the selected medium an attempt fails for no cause that is about the choice
of the medium.** -/
theorem not_ofMedium_of_uses {source : Source} {cause : Error} (huses : p.Uses source)
    (hfails : FailsFor (boot.run p) cause) : ¬ cause.OfMedium := by
  have hresult := failsFor_boot_iff.mp hfails
  have hcourse := attempted p
  generalize (attempt : Attempt (Pipeline δ ζ ℓ) Unit).run p = ran at hcourse hresult
  cases hcourse with
  | unprepared hprep =>
    cases hresult
    exact not_ofMedium_of_unprepared huses hprep
  | invalid _ _ hcheck =>
    cases hresult
    exact not_ofMedium_of_not_checked hcheck
  | @launched c _ _ =>
    rcases hreply : (p.started c.image).1 with _ | fault | _
    · rw [hreply] at hresult
      cases hresult
    · rw [hreply] at hresult
      cases hresult
      exact id
    · rw [hreply] at hresult
      cases hresult

/-! ### Histories -/

/-- A pipeline as it is built: a new one, with what was supplied to it, in any order. -/
inductive Built : Pipeline δ ζ ℓ → Prop
  | new (device : δ) (launcher : ℓ) (config : BootConfig) (target : Bytes) :
      Built (new device launcher config target)
  | withPayload {p : Pipeline δ ζ ℓ} (image : Bytes) (h : Built p) : Built (p.withPayload image)
  | withWindow {p : Pipeline δ ζ ℓ} (window : Bytes) (h : Built p) : Built (p.withWindow window)
  | withDecompressor {p : Pipeline δ ζ ℓ} (decompressor : ζ) (h : Built p) :
      Built (p.withDecompressor decompressor)
  | withStaging {p : Pipeline δ ζ ℓ} (staging : Bytes) (h : Built p) : Built (p.withStaging staging)
  | withCrc {p : Pipeline δ ζ ℓ} (crc : Checksum) (h : Built p) : Built (p.withCrc crc)

omit [Device δ] [Decompressor ζ] [Launcher ℓ] in
/-- What is supplied to a pipeline does not change what is selected in it. -/
theorem Built.selected (h : p.Built) : p.selected = p.config.defaultMedium := by
  induction h with
  | new device launcher config target => rfl
  | withPayload image _ ih => exact ih
  | withWindow window _ ih => exact ih
  | withDecompressor decompressor _ ih => exact ih
  | withStaging staging _ ih => exact ih
  | withCrc crc _ ih => exact ih

omit [Device δ] [Decompressor ζ] [Launcher ℓ] in
/-- The medium that a request selected, if it was for that and was granted. -/
def Record.selects (record : Record δ ζ ℓ) : Option BootMedium :=
  match record.request, record.ran.result with
  | .select medium, .ok _ => some medium
  | _, _ => none

/-- The last medium that a request of a history selected. -/
def lastSelected (p : Pipeline δ ζ ℓ) (requests : List Request) : Option BootMedium :=
  (p.history requests).reverse.findSome? Record.selects

/-- A selection is granted exactly for an available medium. -/
theorem selects_select (medium : BootMedium) (p : Pipeline δ ζ ℓ) :
    Record.selects ⟨p, .select medium, (serve (.select medium)).run p⟩ =
      if (p.sourceFor medium).isSome then some medium else none := by
  unfold Record.selects
  rw [serve, run_bind, run_select]
  by_cases hsource : (p.sourceFor medium).isSome
  · simp [hsource]
  · simp [hsource]

/-- **What serving one request does to the selection.** -/
theorem selected_serve (request : Request) (p : Pipeline δ ζ ℓ) :
    ((serve request).run p).state.selected =
      (Record.selects ⟨p, request, (serve request).run p⟩).or p.selected := by
  cases request with
  | boot => exact (boot_evolves p).2
  | select medium =>
    rw [selects_select, serve, run_bind, run_select]
    by_cases hsource : (p.sourceFor medium).isSome
    · simp [hsource]
    · simp [hsource]

/-- The last selection of a history is that of its later part, and that of its first request if
there is none. -/
theorem lastSelected_cons (request : Request) (requests : List Request) (p : Pipeline δ ζ ℓ) :
    p.lastSelected (request :: requests) =
      (((serve request).run p).state.lastSelected requests).or
        (Record.selects ⟨p, request, (serve request).run p⟩) := by
  rw [lastSelected, lastSelected, history, List.reverse_cons, List.findSome?_append,
    List.findSome?_singleton]

/-- **What is selected after a history**: the last medium that a request selected, and what was
selected before if no request did. -/
theorem selected_after (requests : List Request) (p : Pipeline δ ζ ℓ) :
    (p.after requests).selected = (p.lastSelected requests).or p.selected := by
  induction requests generalizing p with
  | nil => rfl
  | cons request requests ih =>
    rw [lastSelected_cons, Option.or_assoc, ← selected_serve]
    exact ih _

/-- What was selected in a history is available. -/
theorem available_of_lastSelected {requests : List Request} {medium : BootMedium}
    (h : p.lastSelected requests = some medium) : p.Available medium := by
  obtain ⟨record, hmem, hselects⟩ := List.exists_of_findSome?_eq_some h
  obtain ⟨hevolves, hran⟩ := evolves_of_mem_history (List.mem_reverse.mp hmem)
  obtain ⟨q, request, ran⟩ := record
  obtain rfl : ran = (serve request).run q := hran
  -- The medium was available when it was selected, and no request before that made it so.
  rw [← available_iff_of_evolves hevolves]
  cases request with
  | boot => cases hselects
  | select medium' =>
    rw [selects_select] at hselects
    split_ifs at hselects with hsource
    cases hselects
    exact isSome_sourceFor_iff.mp hsource

/-- What is true of the selection at a point of a history: `p` is the pipeline at the start of the
history, `q` the pipeline at that point, and `last` the last medium that was selected till then. -/
structure SelectionKept (p q : Pipeline δ ζ ℓ) (last : Option BootMedium) : Prop where
  /-- The last selection holds, and the default of the configuration if there is none. -/
  selected : q.selected = last.or p.config.defaultMedium
  /-- A medium that is available can be selected. -/
  granted : ∀ medium, p.Available medium → (select medium).run q =
    ⟨.ok (), [.logged (.selecting medium)], { q with selected := some medium }⟩
  /-- One that is not cannot, and the request for it changes nothing. -/
  denied : ∀ medium, ¬ p.Available medium →
    (select medium).run q = ⟨.error (.failed (.mediumUnavailable medium)), [], q⟩
  /-- An attempt does not change the selection. -/
  kept : (boot.run q).state.selected = q.selected
  /-- Once a medium was selected, no attempt fails for a cause that is about its choice. -/
  found : last.isSome → ∀ cause, FailsFor (boot.run q) cause → ¬ cause.OfMedium

/-- **A history keeps the selection.** At every point of the history of a pipeline that is as it was
built, the last medium that was selected is still selected, what can be selected is what could be
at first, and a medium that was selected is found by every attempt. -/
theorem history_keeps_selection {p : Pipeline δ ζ ℓ} (hbuilt : p.Built) (requests : List Request) :
    p.SelectionKept (p.after requests) (p.lastSelected requests) := by
  have hevolves := evolves_after requests p
  have hselected := selected_after requests p
  have hsource : ∀ medium, ((p.after requests).sourceFor medium).isSome ↔ p.Available medium :=
    fun medium => isSome_sourceFor_iff.trans (available_iff_of_evolves hevolves)
  refine ⟨?_, ?_, ?_, (boot_evolves _).2, ?_⟩
  · rw [hselected, hbuilt.selected]
  · intro medium havailable
    rw [run_select, if_pos ((hsource medium).mpr havailable)]
  · intro medium hunavailable
    rw [run_select, if_neg (mt (hsource medium).mp hunavailable)]
  · intro hsome cause hfails
    obtain ⟨medium, hlast⟩ := Option.isSome_iff_exists.mp hsome
    have havailable := available_of_lastSelected hlast
    obtain ⟨source, husable⟩ := Option.isSome_iff_exists.mp ((hsource medium).mpr havailable)
    rw [hlast] at hselected
    exact not_ofMedium_of_uses ⟨medium, hselected, husable⟩ hfails

/-- A board that uses QSPI flash in place but has no window on it, so that the default medium is not
available, and that has a linked image. Every checksum is zero, and the launcher refuses. -/
def windowlessBoard : Pipeline Bench.Media Bench.Unpacker Bench.BenchLauncher :=
  let config : BootConfig := { BootConfig.default with qspi := some ⟨true⟩, payload := true }
  ((new .none (.custom true) config []).withPayload (claiming 272).bytes).withCrc
    (Bench.constantChecksum 0)

/-- Its first attempt fails for want of the medium. When the linked image was selected instead, it
stays selected after a request for the other medium, and an attempt gets as far as the launcher. -/
theorem windowlessBoard_keeps_selection :
    FailsFor (boot.run windowlessBoard) (.mediumUnavailable .qspi) ∧
      (windowlessBoard.after [.boot, .select .payload, .select .qspi]).selected = some .payload ∧
      FailsFor (boot.run (windowlessBoard.after [.boot, .select .payload, .select .qspi]))
        .launch := by
  have hbuilt : windowlessBoard.Built := .withCrc _ (.withPayload _ (.new _ _ _ _))
  have hkept := history_keeps_selection hbuilt [.boot, .select .payload, .select .qspi]
  have hlast : windowlessBoard.lastSelected [.boot, .select .payload, .select .qspi] =
      some .payload := by decide +kernel
  rw [hlast] at hkept
  exact ⟨failsFor_boot_iff.mpr (by decide +kernel), hkept.selected,
    failsFor_boot_iff.mpr (by decide +kernel)⟩

end Pipeline

end BootImage
