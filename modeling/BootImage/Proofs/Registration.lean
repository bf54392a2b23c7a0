import BootImage.Bench.Checksums
import BootImage.Bench.Launchers
import BootImage.Bench.Media
import BootImage.Bench.Unpacker
import BootImage.Proofs.History

/-!
# What is handed to the launcher

A launcher is called only by an attempt whose candidate passed validation, and then twice: it is
told the image, and it is asked to start it. The device is read twice before that and may answer
differently, so what counts is where the bytes that were validated are, and which bytes are named to
the launcher.

* `history_hands_over` — in any history, a request leaves the launcher alone, or hands over the
  candidate that passed validation (`Pipeline.Handover`): as much of it as its own header claims, no
  more than this attempt copied or unpacked, and untouched from the check to the start. The calls
  are those of the configured flow, and the launcher after them and the answer are as the launcher
  has it (`Pipeline.TakenOver`).
* `registered_passes_iff` — what is registered was cut from a valid image. It passes validation
  itself exactly if the header claims at least its own size; validation does not look at the claim,
  so an image that is resident or was unpacked is registered with any claim.
-/

namespace BootImage

open Attempt

/-! ### Questions to a trace -/

/-- A run that may not call the decompressor does not. -/
theorem unpacks_of_keeps {σ α : Type} {events : Event → Prop} {reached : σ → Prop}
    {post : α → σ → Prop} {ran : Ran σ α} (h : ran.Keeps events reached post)
    (hnone : ∀ input room, ¬ events (.unpack input room)) :
    ran.trace.filterMap Event.unpack? = [] := by
  refine h.filterMap_eq_nil ?_
  rintro e ⟨input, room⟩ hunpack
  rw [Event.unpack?_eq_some.mp hunpack]
  exact hnone input room

/-- A run that may neither register nor start an image does not call the launcher. -/
theorem launches_of_keeps {σ α : Type} {events : Event → Prop} {reached : σ → Prop}
    {post : α → σ → Prop} {ran : Ran σ α} (h : ran.Keeps events reached post)
    (hregister : ∀ place image, ¬ events (.register place image))
    (hlaunch : ∀ call, ¬ events (.launch call)) : ran.trace.filter Event.isLaunch = [] := by
  refine h.filter_eq_nil ?_
  intro e hcall
  rcases Event.isLaunch_iff.mp hcall with ⟨place, image, rfl⟩ | ⟨call, rfl⟩
  · exact hregister place image
  · exact hlaunch call

namespace Pipeline

variable {δ ζ ℓ : Type} [Device δ] [Decompressor ζ] [Launcher ℓ]

section attempt

variable {q : Pipeline δ ζ ℓ} {c : Candidate}

/-- A preparation does not call the launcher. -/
theorem launches_prepared (q : Pipeline δ ζ ℓ) : q.prepared.trace.filter Event.isLaunch = [] :=
  launches_of_keeps (prepare_keeps q) (fun _ _ => id) fun _ => id

/-- Nor does the check of a candidate. -/
theorem launches_checked (q : Pipeline δ ζ ℓ) (c : Candidate) :
    (q.checked c).trace.filter Event.isLaunch = [] :=
  launches_of_keeps (checked_keeps q c) (fun _ _ => id) fun _ => id

/-- Nor what is said about a reply. -/
theorem launches_report (reply : LaunchReply) : reply.report.filter Event.isLaunch = [] := by
  cases reply with
  | returned => rfl
  | refused fault => rfl
  | departed => rfl

/-- An attempt that gets to the launcher registers and starts, in this order. -/
theorem launches_launching (q : Pipeline δ ζ ℓ) (c : Candidate) :
    (q.launching c).filter Event.isLaunch =
      [.register c.location.place (claimedPart c.image), .launch q.config.bootFlow.call] := by
  have hlaunch : Event.isLaunch (.launch q.config.bootFlow.call) = true := rfl
  rw [launching, List.filter_append, List.filter_append, List.filter_append, launches_prepared,
    List.filter_cons_of_pos hlaunch, launches_report]
  rfl

/-- A question about reads or calls of the decompressor has no answers after the preparation. -/
theorem filterMap_launching {β : Type} (q : Pipeline δ ζ ℓ) (c : Candidate)
    {ask : Event → Option β} (hlogged : ∀ message, ask (.logged message) = none)
    (hchecksum : ∀ input value, ask (.checksum input value) = none)
    (hregister : ∀ place image, ask (.register place image) = none)
    (hlaunch : ∀ call, ask (.launch call) = none) :
    (q.launching c).filterMap ask = q.prepared.trace.filterMap ask := by
  have hreport : (q.started c.image).1.report.filterMap ask = [] := by
    rcases (q.started c.image).1 with _ | fault | _ <;> simp [LaunchReply.report, hlogged]
  simp [launching, enlisting, headerChecksum, hlogged, hchecksum, hregister, hlaunch, hreport]

omit [Launcher ℓ] in
/-- The last read of a preparation whose candidate is a copied image was for the whole of it. -/
theorem last_read_of_copied (hc : q.Delivers c) (hplace : c.location.place = .target)
    (hcopied : c.wasUnpacked = false) :
    ∃ medium offset, (q.prepared.trace.filterMap Event.read?).getLast? =
      some (medium, offset, c.image.length) := by
  cases hc with
  | @plain source location hacq hmagic =>
    have hyields := (source.acquire_keeps q.toWorkspace).value location hacq.succeeds
    cases location with
    | resident place image =>
      cases hyields with
      | linked image => cases hplace
      | mapped window => cases hplace
    | inTarget n =>
      obtain ⟨medium, offset, earlier, htrace⟩ :=
        source.last_read_of_inTarget q.toWorkspace hacq.succeeds
      have hlen := length_acquired_of_inTarget source hacq.succeeds
      have htrace' : (q.acquisition source).trace = earlier ++ [.read medium offset n] := htrace
      refine ⟨medium, offset, ?_⟩
      rw [prepared, run_prepare_of_plain hacq hmagic, arrival, htrace', hlen,
        List.filterMap_append, List.filterMap_append]
      show ((earlier.filterMap Event.read? ++ [(medium, offset, n)]) ++ []).getLast? = _
      rw [List.append_nil, List.getLast?_concat]
  | unpacked hcan hclaim haccept => cases hcopied

omit [Decompressor ζ] [Launcher ℓ] in
/-- An acquisition does not call the decompressor. -/
theorem unpacks_acquisition (q : Pipeline δ ζ ℓ) (source : Source) :
    (q.acquisition source).trace.filterMap Event.unpack? = [] :=
  unpacks_of_keeps (source.acquire_keeps q.toWorkspace) fun _ _ => id

omit [Decompressor ζ] [Launcher ℓ] in
/-- Nor does one that succeeds. -/
theorem unpacks_arrival (q : Pipeline δ ζ ℓ) (source : Source) :
    (q.arrival source).filterMap Event.unpack? = [] := by
  rw [arrival, List.filterMap_append, unpacks_acquisition]
  rfl

omit [Launcher ℓ] in
/-- The one call of the decompressor in a preparation whose candidate was unpacked, and its
answer. -/
theorem unpacked_of_wasUnpacked (hc : q.Delivers c) (hunpacked : c.wasUnpacked = true) :
    ∃ source location z, q.CanUnpack source location z ∧
      q.prepared.trace.filterMap Event.unpack? = [(q.acquired source location, q.room source)] ∧
      (q.unpackedImage source location z).written = some c.image.length := by
  cases hc with
  | plain hacq hmagic => cases hunpacked
  | @unpacked source location z n hcan hclaim haccept =>
    refine ⟨source, location, z, hcan, ?_, ?_⟩
    · rw [prepared, run_prepare_of_unpacked hcan hclaim haccept, List.filterMap_append,
        List.filterMap_append, unpacks_arrival]
      rfl
    · have hfits : n ≤ (q.unpackedImage source location z).output.length := by
        rw [length_output_unpackedImage]
        exact haccept.2
      rw [hclaim, List.length_take_of_le hfits]

end attempt

/-! ### The handover -/

/-- An attempt passed validation: its preparation gave the candidate, and the check of it gave the
header. -/
def Passes (q : Pipeline δ ζ ℓ) (c : Candidate) (header : Header) : Prop :=
  q.prepared.result = .ok c ∧ (q.checked c).result = .ok header

/-- What is cut from a candidate for the launcher. -/
def handed (c : Candidate) (header : Header) : Bytes :=
  c.image.take (min header.length.toNat c.image.length)

/-- What is true of an attempt from `q` that hands over the candidate `c` with this header, and
whose run is `ran`. -/
structure Handover (q : Pipeline δ ζ ℓ) (ran : Ran (Pipeline δ ζ ℓ) Bool) (c : Candidate)
    (header : Header) : Prop where
  /-- It passed validation. -/
  passes : q.Passes c header
  /-- The candidate is valid, and the header is the one at its start. -/
  valid : Valid q.crc c.image ∧ header = Header.ofBytes c.image
  /-- When the candidate was checked it was at the start of the region it is said to be in. -/
  held : c.image <+: q.prepared.state.region c.location.place
  /-- Of a copied image no more is handed over than the last read of this attempt was for. -/
  copied : c.location.place = .target → c.wasUnpacked = false → ∃ medium offset n,
    (ran.trace.filterMap Event.read?).getLast? = some (medium, offset, n) ∧
      (handed c header).length ≤ n
  /-- Of an unpacked image no more is handed over than the decompressor, which this attempt called
  once, said it wrote. -/
  unpacked : c.wasUnpacked = true → ∃ source location z n, q.CanUnpack source location z ∧
    ran.trace.filterMap Event.unpack? = [(q.acquired source location, q.room source)] ∧
      (q.unpackedImage source location z).written = some n ∧ (handed c header).length ≤ n
  /-- All regions are at the start of the image, and at the end of the run, what they were at the
  check. -/
  undisturbed : ∀ place,
    ((enlist c header).run (q.checked c).state).state.region place =
        q.prepared.state.region place ∧
      ran.state.region place = q.prepared.state.region place

/-- What is true of a run that handed over this part of this region, where `call` asks for the start
and `outcome` is what the launcher made of it: its reply, and the launcher after it. -/
structure TakenOver (ran : Ran (Pipeline δ ζ ℓ) Bool) (place : Place) (slice : Bytes)
    (call : LaunchCall) (outcome : LaunchReply × ℓ) : Prop where
  /-- One registration and then one start, and no other call. -/
  calls : ran.trace.filter Event.isLaunch = [.register place slice, .launch call]
  /-- The launcher is left as it is after these two calls. -/
  launcher : ran.state.launcher = outcome.2
  /-- The run ends as the reply has it. -/
  answer : ran.result = outcome.1.answer

/-- A part of a candidate is no longer than the whole. -/
theorem length_handed_le (c : Candidate) (header : Header) :
    (handed c header).length ≤ c.image.length := List.length_take_le' _ _

/-- What a header claims is read from the image that it is the header of. -/
theorem handed_ofBytes {c : Candidate} (hlen : Header.size ≤ c.image.length) :
    handed c (Header.ofBytes c.image) = claimedPart c.image := by
  rw [handed, Header.length_ofBytes hlen, claimedPart]

section passes

variable {q : Pipeline δ ζ ℓ} {c : Candidate} {header : Header}

/-- A valid candidate passes validation. -/
theorem passes_of_valid (hprep : q.prepared.result = .ok c) (hvalid : Valid q.crc c.image) :
    q.Passes c (Header.ofBytes c.image) := ⟨hprep, by rw [checked_of_valid hvalid]⟩

/-- What passes validation is valid, and the header is the one at its start. -/
theorem Passes.valid (h : q.Passes c header) :
    Valid q.crc c.image ∧ header = Header.ofBytes c.image :=
  (checked_keeps q c).value header h.2

omit [Launcher ℓ] in
/-- There is one candidate at most. -/
theorem Passes.unique {c' : Candidate} {header' : Header} (h : q.Passes c header)
    (h' : q.Passes c' header') : c = c' ∧ header = header' := by
  cases h.1.symm.trans h'.1
  cases h.2.symm.trans h'.2
  exact ⟨rfl, rfl⟩

/-- An attempt that passes validation gets the launcher's reply to its candidate. -/
theorem gets_iff_of_passes (h : q.Passes c header) {reply : LaunchReply} :
    q.Gets reply ↔ (q.started c.image).1 = reply := by
  have hgets : q.Gets (q.started c.image).1 := ⟨c, prepare_eq_ok.mp h.1, h.valid.1, rfl⟩
  constructor
  · intro hreply
    exact hgets.unique hreply
  · rintro rfl
    exact hgets

/-- The run of an attempt that passes validation: its candidate is registered, and the launcher
replies. -/
theorem attempt_of_passes (h : q.Passes c header) :
    (attempt : Attempt (Pipeline δ ζ ℓ) Unit).run q =
      ⟨(q.started c.image).1.result, q.launching c, q.launched c⟩ := by
  have hcourse := attempted q
  generalize (attempt : Attempt (Pipeline δ ζ ℓ) Unit).run q = ran at hcourse
  cases hcourse with
  | unprepared hprep => cases h.1.symm.trans hprep
  | invalid hprep hvalid _ =>
    cases h.1.symm.trans hprep
    exact absurd h.valid.1 hvalid
  | launched hprep _ =>
    cases h.1.symm.trans hprep
    rfl

/-- An attempt that gets a reply passes validation. -/
theorem Gets.passes {reply : LaunchReply} (h : q.Gets reply) : ∃ c header, q.Passes c header := by
  obtain ⟨c, hc, hvalid, -⟩ := h
  exact ⟨c, _, passes_of_valid (prepare_eq_ok.mpr hc) hvalid⟩

/-- An attempt that does not pass validation gets no reply. -/
theorem not_gets_of_not_passes (h : ∀ c header, ¬ q.Passes c header) (reply : LaunchReply) :
    ¬ q.Gets reply := by
  intro hgets
  obtain ⟨c, header, hpasses⟩ := hgets.passes
  exact h c header hpasses

/-- A call of `boot` that passes validation answers what the launcher replies. -/
theorem answer_of_passes (h : q.Passes c header) :
    (boot.run q).result = (q.started c.image).1.answer :=
  answer_of_gets ((gets_iff_of_passes h).mpr rfl)

/-- It leaves the launcher as it is after its reply. -/
theorem launcher_of_passes (h : q.Passes c header) :
    (boot.run q).state.launcher = (q.started c.image).2 := by
  obtain ⟨report, stage, -, -, hstate⟩ := boot_of_attempt q
  rw [hstate, attempt_of_passes h]
  rfl

/-- One that does not pass validation leaves the launcher as it was. -/
theorem launcher_of_not_passes (h : ∀ c header, ¬ q.Passes c header) :
    (boot.run q).state.launcher = q.launcher := by
  rcases launcher_boot q with ⟨c, hc, hvalid, -⟩ | ⟨-, hlauncher⟩
  · exact absurd (passes_of_valid (prepare_eq_ok.mpr hc) hvalid) (h c _)
  · exact hlauncher

end passes

section boot

variable {q : Pipeline δ ζ ℓ}

/-- A question to which no message is an answer has the answers that the attempt has. -/
theorem filterMap_trace_boot {β : Type} (q : Pipeline δ ζ ℓ) (ask : Event → Option β)
    (hask : ∀ message, ask (.logged message) = none) :
    (boot.run q).trace.filterMap ask =
      ((attempt : Attempt (Pipeline δ ζ ℓ) Unit).run q).trace.filterMap ask := by
  obtain ⟨report, stage, htrace, hreport, -⟩ := boot_of_attempt q
  have hnone : report.filterMap ask = [] := by
    rw [List.filterMap_eq_nil_iff]
    intro e he
    obtain ⟨message, rfl⟩ := hreport e he
    exact hask message
  rw [htrace, List.filterMap_append, List.filterMap_cons_none (hask _), hnone, List.append_nil]

/-- Without a candidate they are those of the preparation. -/
theorem filterMap_boot_of_unprepared {β : Type} {ask : Event → Option β} {stop : Stop}
    (hask : ∀ message, ask (.logged message) = none) (hprep : q.prepared.result = .error stop) :
    (boot.run q).trace.filterMap ask = q.prepared.trace.filterMap ask := by
  rw [filterMap_trace_boot q ask hask, attempt_eq, run_bind_of_error (x := prepare) hprep]
  rfl

/-- With one, and where the launcher gives none, they are those of the preparation and of the
check. -/
theorem filterMap_boot_of_prepared {β : Type} {ask : Event → Option β} {c : Candidate}
    (hlogged : ∀ message, ask (.logged message) = none)
    (hregister : ∀ place image, ask (.register place image) = none)
    (hlaunch : ∀ call, ask (.launch call) = none) (hprep : q.prepared.result = .ok c) :
    (boot.run q).trace.filterMap ask =
      q.prepared.trace.filterMap ask ++ (q.checked c).trace.filterMap ask := by
  rw [filterMap_trace_boot q ask hlogged]
  have hcourse := attempted q
  generalize (attempt : Attempt (Pipeline δ ζ ℓ) Unit).run q = ran at hcourse
  cases hcourse with
  | unprepared hprep' => cases hprep.symm.trans hprep'
  | invalid hprep' _ _ =>
    cases hprep.symm.trans hprep'
    exact List.filterMap_append
  | launched hprep' hvalid =>
    cases hprep.symm.trans hprep'
    have hreport : (q.started c.image).1.report.filterMap ask = [] := by
      rcases (q.started c.image).1 with _ | fault | _ <;> simp [LaunchReply.report, hlogged]
    rw [checked_of_valid hvalid]
    simp [launching, enlisting, hlogged, hregister, hlaunch, hreport, List.filterMap_cons]

/-- The launcher is called by the attempt and by nothing else. -/
theorem launches_boot (q : Pipeline δ ζ ℓ) : (boot.run q).trace.filter Event.isLaunch =
    ((attempt : Attempt (Pipeline δ ζ ℓ) Unit).run q).trace.filter Event.isLaunch := by
  obtain ⟨report, stage, htrace, hreport, -⟩ := boot_of_attempt q
  have hnone : report.filter Event.isLaunch = [] := by
    rw [List.filter_eq_nil_iff]
    intro e he
    obtain ⟨message, rfl⟩ := hreport e he
    exact Bool.false_ne_true
  have hstarting : ¬ Event.isLaunch (.logged .starting) = true := Bool.false_ne_true
  rw [htrace, List.filter_append, List.filter_cons_of_neg hstarting, hnone, List.append_nil]

/-- An attempt that does not pass validation does not call the launcher. -/
theorem launches_of_not_passes (h : ∀ c header, ¬ q.Passes c header) :
    (boot.run q).trace.filter Event.isLaunch = [] := by
  rw [launches_boot]
  have hcourse := attempted q
  generalize (attempt : Attempt (Pipeline δ ζ ℓ) Unit).run q = ran at hcourse
  cases hcourse with
  | unprepared _ => exact launches_prepared q
  | invalid _ _ _ => rw [List.filter_append, launches_prepared, launches_checked, List.append_nil]
  | launched hprep hvalid => exact absurd (passes_of_valid hprep hvalid) (h _ _)

section passes

variable {c : Candidate} {header : Header}

/-- An attempt that passes validation hands its candidate over. -/
theorem handover_of_passes (h : q.Passes c header) : q.Handover (boot.run q) c header where
  passes := h
  valid := h.valid
  held := (prepare_keeps q).value c h.1
  copied := by
    intro hplace hcopied
    obtain ⟨medium, offset, hlast⟩ := last_read_of_copied (prepare_eq_ok.mp h.1) hplace hcopied
    refine ⟨medium, offset, c.image.length, ?_, length_handed_le c _⟩
    rw [filterMap_trace_boot q _ (fun _ => rfl), attempt_of_passes h,
      filterMap_launching q c (fun _ => rfl) (fun _ _ => rfl) (fun _ _ => rfl) (fun _ => rfl),
      hlast]
  unpacked := by
    intro hunpacked
    obtain ⟨source, location, z, hcan, hcall, hclaim⟩ :=
      unpacked_of_wasUnpacked (prepare_eq_ok.mp h.1) hunpacked
    refine ⟨source, location, z, c.image.length, hcan, ?_, hclaim, length_handed_le c _⟩
    rw [filterMap_trace_boot q _ (fun _ => rfl), attempt_of_passes h,
      filterMap_launching q c (fun _ => rfl) (fun _ _ => rfl) (fun _ _ => rfl) (fun _ => rfl),
      hcall]
  undisturbed := by
    intro place
    obtain ⟨hvalid, rfl⟩ := h.valid
    obtain ⟨report, stage, -, -, hstate⟩ := boot_of_attempt q
    constructor
    · rw [checked_of_valid hvalid, run_enlist hvalid.long]
      cases place with
      | payload => rfl
      | window => rfl
      | target => rfl
    · rw [hstate, attempt_of_passes h]
      cases place with
      | payload => rfl
      | window => rfl
      | target => rfl

/-- What it hands over is taken over by the configured flow. -/
theorem takenOver_of_passes (h : q.Passes c header) :
    TakenOver (boot.run q) c.location.place (handed c header) q.config.bootFlow.call
      (q.config.bootFlow.handOver q.launcher (handed c header)) := by
  obtain ⟨hvalid, rfl⟩ := h.valid
  rw [handed_ofBytes hvalid.long]
  refine ⟨?_, launcher_of_passes h, answer_of_passes h⟩
  rw [launches_boot, attempt_of_passes h, launches_launching]

end passes

/-- A call of `boot` calls the launcher not at all, or hands over a candidate. -/
theorem boot_hands_over (q : Pipeline δ ζ ℓ) :
    ((boot.run q).trace.filter Event.isLaunch = [] ∧ ∀ c header, ¬ q.Passes c header) ∨
      ∃ c header, q.Handover (boot.run q) c header ∧
        (boot.run q).trace.filter Event.isLaunch =
          [.register c.location.place (handed c header), .launch q.config.bootFlow.call] := by
  by_cases h : ∃ c header, q.Passes c header
  · obtain ⟨c, header, h⟩ := h
    exact .inr ⟨c, header, handover_of_passes h, (takenOver_of_passes h).calls⟩
  · simp only [not_exists] at h
    exact .inl ⟨launches_of_not_passes h, h⟩

/-- A boot that gets no reply from the launcher has not called it, and answers no. -/
theorem boot_of_no_reply {q : Pipeline δ ζ ℓ} (hnone : ∀ reply, ¬ q.Gets reply) :
    (boot.run q).result = .ok false ∧ (boot.run q).state.stage = .failed ∧
      (boot.run q).trace.filter Event.isLaunch = [] := by
  rcases boot_cases q with ⟨-, -, h⟩ | ⟨-, -, h⟩ | ⟨hresult, hstage, -⟩
  · exact absurd h (hnone _)
  · exact absurd h (hnone _)
  · refine ⟨hresult, hstage, ?_⟩
    refine launches_of_not_passes fun c header hpasses => ?_
    exact hnone _ ((gets_iff_of_passes hpasses).mpr rfl)

end boot

/-! ### Histories -/

section history

variable {p : Pipeline δ ζ ℓ} {requests : List Request} {record : Record δ ζ ℓ}

/-- A selection does not call the launcher. -/
theorem launches_select (medium : BootMedium) (q : Pipeline δ ζ ℓ) :
    ((serve (.select medium)).run q).trace.filter Event.isLaunch = [] := by
  apply List.filter_eq_nil_iff.mpr
  intro e he
  rw [eq_of_mem_trace_select he]
  exact Bool.false_ne_true

/-- A selection does not register anything. -/
theorem not_registered_select (medium : BootMedium) (q : Pipeline δ ζ ℓ) (place : Place)
    (slice : Bytes) : .register place slice ∉ ((serve (.select medium)).run q).trace := by
  intro hregister
  have hcalled : .register place slice ∈
      ((serve (.select medium)).run q).trace.filter Event.isLaunch :=
    List.mem_filter.mpr ⟨hregister, rfl⟩
  rw [launches_select] at hcalled
  cases hcalled

/-- What an attempt registers is what it hands over. -/
theorem handover_of_registered {q : Pipeline δ ζ ℓ} {place : Place} {slice : Bytes}
    (hregister : .register place slice ∈ (boot.run q).trace) :
    ∃ c header, q.Handover (boot.run q) c header ∧ place = c.location.place ∧
      slice = handed c header := by
  have hcalled : .register place slice ∈ (boot.run q).trace.filter Event.isLaunch :=
    List.mem_filter.mpr ⟨hregister, rfl⟩
  rcases boot_hands_over q with ⟨hnone, -⟩ | ⟨c, header, hover, hcalls⟩
  · rw [hnone] at hcalled
    cases hcalled
  · rw [hcalls] at hcalled
    exact ⟨c, header, hover, by simpa using hcalled⟩

/-- **What is handed to the launcher.** In any history a request leaves the launcher alone, and if
it is for a boot, then it did not pass validation and answers no; or it hands over the candidate
that passed validation. Then the launcher is told as much of it as its header claims, and is asked
once for the start that the configuration says: to restart all cores, or for its own flow. It is
left as it is after these two calls, and its reply is the answer. -/
theorem history_hands_over (p : Pipeline δ ζ ℓ) (requests : List Request)
    (hmem : record ∈ p.history requests) :
    (record.ran.trace.filter Event.isLaunch = [] ∧
        record.ran.state.launcher = record.before.launcher ∧
        (record.request = .boot →
          record.ran.result = .ok false ∧ ∀ c header, ¬ record.before.Passes c header)) ∨
      (record.request = .boot ∧ ∃ c header, record.before.Handover record.ran c header ∧
        (p.config.bootFlow = .restartCores →
          TakenOver record.ran c.location.place (handed c header) (.restart .all)
            (Launcher.restart (Launcher.register record.before.launcher (handed c header)) .all)) ∧
        (p.config.bootFlow = .custom →
          TakenOver record.ran c.location.place (handed c header) .custom
            (Launcher.customFlow
              (Launcher.register record.before.launcher (handed c header))))) := by
  obtain ⟨hevolves, hran⟩ := evolves_of_mem_history hmem
  obtain ⟨q, request, ran⟩ := record
  obtain rfl : ran = (serve request).run q := hran
  have hconfig : q.config = p.config := hevolves.config
  cases request with
  | select medium =>
    obtain ⟨selected, hstate⟩ := state_serve_select medium q
    exact .inl ⟨launches_select medium q, by rw [hstate], fun hboot => by cases hboot⟩
  | boot =>
    rcases boot_hands_over q with ⟨hcalls, hnone⟩ | ⟨c, header, hover, -⟩
    · have hanswer := (boot_of_no_reply (not_gets_of_not_passes hnone)).1
      exact .inl ⟨hcalls, launcher_of_not_passes hnone, fun _ => ⟨hanswer, hnone⟩⟩
    · -- The flow is that of the first state, and the launcher that of this record.
      have htaken := takenOver_of_passes hover.passes
      rw [hconfig] at htaken
      refine .inr ⟨rfl, c, header, hover, ?_, ?_⟩
      · intro hflow
        rwa [hflow] at htaken
      · intro hflow
        rwa [hflow] at htaken

/-- A header with the plain magic word and no name, whose checksum is zero, and which claims this
many bytes. -/
def claiming (length : UInt64) : Header :=
  ⟨Header.plainMagic, 0, length, List.replicate 256 0, List.length_replicate⟩

/-- A board with nothing but a linked image, which is such a header. Every checksum is zero. -/
def claimingBoard (length : UInt64) : Pipeline Bench.Media Bench.Unpacker Bench.BenchLauncher :=
  ((new .none (.custom false) { BootConfig.default with payload := true } []).withPayload
    (claiming length).bytes).withCrc (Bench.constantChecksum 0)

/-- The first attempt of this board. -/
def firstBoot (length : UInt64) : Record Bench.Media Bench.Unpacker Bench.BenchLauncher :=
  ⟨claimingBoard length, .boot, (serve .boot).run (claimingBoard length)⟩

/-- It is in the history of this one request. -/
theorem firstBoot_mem_history (length : UInt64) :
    firstBoot length ∈ (claimingBoard length).history [.boot] := List.mem_cons_self

/-- An image that is nothing but its header, and claims to be that, is handed over. All cores are
restarted, and the launcher comes back. -/
theorem header_handed_over : firstBoot 272 ∈ (claimingBoard 272).history [.boot] ∧
    ∃ c header, (firstBoot 272).before.Handover (firstBoot 272).ran c header ∧
      TakenOver (firstBoot 272).ran c.location.place (handed c header) (.restart .all)
        (.returned, .custom false) := by
  refine ⟨firstBoot_mem_history 272, ?_⟩
  rcases history_hands_over (claimingBoard 272) [.boot] (firstBoot_mem_history 272) with
    ⟨hnone, -⟩ | ⟨-, c, header, hover, hrestart, -⟩
  · exact absurd hnone (by decide +kernel)
  · exact ⟨c, header, hover, hrestart rfl⟩

/-! ### Whether what is registered is itself valid -/

/-- The part of a valid image that its header claims is valid if it has room for the header. -/
theorem valid_claimedPart_iff {crc : Checksum} {image : Bytes} (hvalid : Valid crc image) :
    Valid crc (claimedPart image) ↔ Header.size ≤ (word64 image 8).toNat := by
  constructor
  · intro h
    have hlong := h.long
    rw [claimedPart, List.length_take] at hlong
    omega
  · intro hclaim
    have hroom : Header.size ≤ min (word64 image 8).toNat image.length :=
      Nat.le_min.mpr ⟨hclaim, hvalid.long⟩
    have hword : ∀ pos, pos + 4 ≤ Header.size → word32 (claimedPart image) pos = word32 image pos :=
      fun pos hpos => word32_take (Nat.le_trans hpos hroom)
    have hchecked : checkedBytes (claimedPart image) = checkedBytes image := by
      have h4 : 4 ≤ min (word64 image 8).toNat image.length := Nat.le_trans (by decide) hroom
      rw [checkedBytes, checkedBytes, claimedPart, List.take_take, List.take_take,
        Nat.min_eq_left h4, Nat.min_eq_left hroom]
    refine ⟨?_, ?_, ?_⟩
    · rw [claimedPart, List.length_take]
      omega
    · rw [hword 0 (by decide)]
      exact hvalid.plain
    · rw [hchecked, hword 4 (by decide)]
      exact hvalid.intact

/-- **Whether what is registered passes validation itself.** In any history, what is registered is
the claimed part of an image that passed validation. It has room for a header and passes validation
on its own if and only if the claim is for a header at least. -/
theorem registered_passes_iff (p : Pipeline δ ζ ℓ) (requests : List Request) {place : Place}
    {slice : Bytes} (hmem : record ∈ p.history requests)
    (hregister : .register place slice ∈ record.ran.trace) :
    ∃ c header, record.before.Passes c header ∧ Valid p.crc c.image ∧
      place = c.location.place ∧ slice = claimedPart c.image ∧
      ((Header.size ≤ slice.length ∧ ∃ header', ((validate p.crc slice c.wasUnpacked).run
          record.before.prepared.state).result = .ok header') ↔
        Header.size ≤ (word64 c.image 8).toNat) := by
  obtain ⟨hevolves, hran⟩ := evolves_of_mem_history hmem
  obtain ⟨q, request, ran⟩ := record
  obtain rfl : ran = (serve request).run q := hran
  have hcrc : q.crc = p.crc := hevolves.crc
  have hcalled : .register place slice ∈ ((serve request).run q).trace.filter Event.isLaunch :=
    List.mem_filter.mpr ⟨hregister, rfl⟩
  cases request with
  | select medium =>
    rw [launches_select] at hcalled
    cases hcalled
  | boot =>
    have hover := boot_hands_over q
    rw [serve] at hcalled
    rcases hover with ⟨hnone, -⟩ | ⟨c, header, hover, hcalls⟩
    · rw [hnone] at hcalled
      cases hcalled
    · obtain ⟨hvalid, rfl⟩ := hover.valid
      rw [hcalls, handed_ofBytes hvalid.long] at hcalled
      have hslice : place = c.location.place ∧ slice = claimedPart c.image := by
        simpa using hcalled
      obtain ⟨rfl, rfl⟩ := hslice
      rw [hcrc] at hvalid
      refine ⟨c, _, hover.passes, hvalid, rfl, rfl, ?_⟩
      rw [← valid_claimedPart_iff hvalid]
      constructor
      · rintro ⟨-, header', hheader⟩
        exact ((validate_eq_ok _ _ _ _).mp hheader).1
      · intro h
        exact ⟨h.long, _, (validate_eq_ok _ _ _ _).mpr ⟨h, rfl⟩⟩

/-- A valid image that claims no bytes is registered, as no bytes, and what is registered is then
not an image that passes validation. -/
theorem nothing_registered : .register .payload [] ∈ (firstBoot 0).ran.trace ∧
    ∃ c header, (firstBoot 0).before.Passes c header ∧ Valid (Bench.constantChecksum 0) c.image ∧
      [] = claimedPart c.image ∧ ¬ Header.size ≤ (word64 c.image 8).toNat := by
  have hregister : .register .payload [] ∈ (firstBoot 0).ran.trace := by decide +kernel
  obtain ⟨c, header, hpasses, hvalid, -, hslice, hiff⟩ := registered_passes_iff (claimingBoard 0)
    [.boot] (firstBoot_mem_history 0) hregister
  exact ⟨hregister, c, header, hpasses, hvalid, hslice, fun h => absurd (hiff.mpr h).1 (by decide)⟩

end history

end Pipeline

end BootImage
