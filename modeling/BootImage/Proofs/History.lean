import BootImage.Proofs.Outcome

/-!
# Histories of requests

A board is asked, in any order and any number of times, to boot and to select a medium. The run of
a history of requests is the list of its records (`Pipeline.history`): each says in which state a
request was served, and what its run left. The state goes from one request to the next whatever the
answer was, so histories with failed attempts in them are among these, and so are those that would
go on after a departure.

* `serve_evolves` — serving one request leaves everything that no request changes.
* `evolves_of_mem_history` — so does serving a whole history: in each of its records the pipeline
  is built as it was at first, and its collaborators are in states that calls lead to.
-/

namespace BootImage

open Attempt

/-- A request to a board. -/
inductive Request where
  /-- To make one attempt to boot. -/
  | boot
  /-- To select the medium of the next attempt. -/
  | select (medium : BootMedium)
  deriving DecidableEq, Repr

namespace Pipeline

variable {δ ζ ℓ : Type} [Device δ] [Decompressor ζ] [Launcher ℓ]

/-- Serves a request. The answer to a selection is yes, unless it fails. -/
def serve : Request → Attempt (Pipeline δ ζ ℓ) Bool
  | .boot => boot
  | .select medium => do
    select medium
    return true

/-- The state in which a history leaves a pipeline. -/
def after (p : Pipeline δ ζ ℓ) : List Request → Pipeline δ ζ ℓ
  | [] => p
  | request :: requests => ((serve request).run p).state.after requests

/-- A request, the state in which it was served, and what its run left. -/
structure Record (δ ζ ℓ : Type) where
  before : Pipeline δ ζ ℓ
  request : Request
  ran : Ran (Pipeline δ ζ ℓ) Bool

/-- The records of a history. -/
def history (p : Pipeline δ ζ ℓ) : List Request → List (Record δ ζ ℓ)
  | [] => []
  | request :: requests =>
    ⟨p, request, (serve request).run p⟩ :: history ((serve request).run p).state requests

omit [Device δ] [Decompressor ζ] [Launcher ℓ] in
/-- A selection logs and selects, or fails and changes nothing. -/
theorem run_select (medium : BootMedium) (p : Pipeline δ ζ ℓ) :
    (select medium).run p =
      if (p.sourceFor medium).isSome then
        ⟨.ok (), [.logged (.selecting medium)], { p with selected := some medium }⟩
      else ⟨.error (.failed (.mediumUnavailable medium)), [], p⟩ := by
  rcases hsource : p.sourceFor medium with _ | source
  · rw [select, run_bind, run_requireSource_of_none hsource]
    rfl
  · rw [select, run_bind, run_requireSource hsource]
    rfl

/-- All that a selection leaves in a trace is a message about the medium. -/
theorem eq_of_mem_trace_select {medium : BootMedium} {p : Pipeline δ ζ ℓ} {e : Event}
    (he : e ∈ ((serve (.select medium)).run p).trace) : e = .logged (.selecting medium) := by
  rw [serve, run_bind, run_select] at he
  by_cases hsource : (p.sourceFor medium).isSome
  · rw [if_pos hsource] at he
    simpa [Except.map] using he
  · rw [if_neg hsource] at he
    cases he

/-- What serving a selection leaves. -/
theorem state_serve_select (medium : BootMedium) (p : Pipeline δ ζ ℓ) :
    ∃ selected, ((serve (.select medium)).run p).state = { p with selected := selected } := by
  rw [serve, run_bind, run_select]
  by_cases hsource : (p.sourceFor medium).isSome
  · rw [if_pos hsource]
    exact ⟨some medium, rfl⟩
  · rw [if_neg hsource]
    exact ⟨p.selected, rfl⟩

/-- **Serving a request leaves everything that no request changes.** -/
theorem serve_evolves (request : Request) (p : Pipeline δ ζ ℓ) :
    p.Evolves ((serve request).run p).state := by
  cases request with
  | boot => exact (boot_evolves p).1
  | select medium =>
    obtain ⟨selected, hstate⟩ := state_serve_select medium p
    rw [hstate]
    exact { Evolves.refl p with }

/-- So does serving all the requests of a history. -/
theorem evolves_after (requests : List Request) (p : Pipeline δ ζ ℓ) :
    p.Evolves (p.after requests) := by
  induction requests generalizing p with
  | nil => exact .refl p
  | cons request requests ih => exact (serve_evolves request p).trans (ih _)

/-- A history can be served in two parts. -/
theorem after_append (p : Pipeline δ ζ ℓ) (earlier later : List Request) :
    p.after (earlier ++ later) = (p.after earlier).after later := by
  induction earlier generalizing p with
  | nil => rfl
  | cons request earlier ih => exact ih _

/-- **In each record of a history the pipeline is built as it was at first**, and the record is that
of serving its request. -/
theorem evolves_of_mem_history {record : Record δ ζ ℓ} {requests : List Request}
    {p : Pipeline δ ζ ℓ} (hmem : record ∈ p.history requests) :
    p.Evolves record.before ∧ record.ran = (serve record.request).run record.before := by
  induction requests generalizing p with
  | nil => cases hmem
  | cons request requests ih =>
    rcases List.mem_cons.mp hmem with rfl | hmem
    · exact ⟨.refl p, rfl⟩
    · obtain ⟨hevolves, hran⟩ := ih hmem
      exact ⟨(serve_evolves request p).trans hevolves, hran⟩

end Pipeline

end BootImage
