import BootImage.Attempt
import Mathlib.Order.Basic
import Mathlib.Tactic.Common

/-!
# Contracts of steps

What a step promises is said of the run it makes from a state (`Ran.Keeps`): which events it may
leave in the trace, which states it may leave, that it stops for a cause if it stops, and what holds
of a value it gives. A contract of a composed step follows from the contracts of its
parts (`Ran.Keeps.bind`), so each function of the library has one lemma about its contract, and the
functions that call it cite that lemma.

* `Ran.Keeps.bind` — the second part has to keep the contract only from states that the first part
  may leave, with values that it may give.
* `Ran.Keeps.ofExcept`, `Ran.Keeps.caught`, `Ran.Keeps.on`, `Ran.Keeps.accumulating` — the ways in
  which a step is put in a larger one. A caught step keeps its contract, since its failure becomes
  a value.
* `Ran.Keeps.mono` — a contract may be given up for a weaker one.
* `Ran.Keeps.filterMap_eq_nil`, `Ran.Keeps.filter_eq_nil` — a question to the trace that no allowed
  event answers has no answers.

A run that is known to have a value is opened with `Attempt.run_bind_of_ok`, and one that is known
to have stopped with `Attempt.run_bind_of_error`.
-/

namespace BootImage

variable {σ τ α β : Type}

/-- What is left of a run that keeps a contract: its events are among `events`, the state it left is
among `reached`, it did not go out of range or to the image, and its value, if it has one, fulfils
`post`. -/
structure Ran.Keeps (events : Event → Prop) (reached : σ → Prop) (post : α → σ → Prop)
    (ran : Ran σ α) : Prop where
  /-- Each event is an allowed one. -/
  trace : ∀ e ∈ ran.trace, events e
  /-- The state is an allowed one, whether there is a value or not. -/
  state : reached ran.state
  /-- If it stopped, it failed: no cut went past the end of its region, no result past the end of
  its word, and control did not go to the image. -/
  fails : ∀ stop, ran.result = .error stop → ∃ cause, stop = .failed cause
  /-- The postcondition holds of a value. -/
  value : ∀ a, ran.result = .ok a → post a ran.state

namespace Attempt

/-- A composition whose first part gives a value goes on with the second part. -/
theorem run_bind_of_ok {x : Attempt σ α} {f : α → Attempt σ β} {s : σ} {a : α}
    (h : (x.run s).result = .ok a) :
    (x >>= f).run s = ⟨((f a).run (x.run s).state).result,
      (x.run s).trace ++ ((f a).run (x.run s).state).trace, ((f a).run (x.run s).state).state⟩ := by
  rw [run_bind]
  rcases hx : x.run s with ⟨result, t, s'⟩
  rw [hx] at h
  cases h
  rfl

/-- A composition whose first part stops leaves what that part left. -/
theorem run_bind_of_error {x : Attempt σ α} {f : α → Attempt σ β} {s : σ} {stop : Stop}
    (h : (x.run s).result = .error stop) :
    (x >>= f).run s = ⟨.error stop, (x.run s).trace, (x.run s).state⟩ := by
  rw [run_bind]
  rcases hx : x.run s with ⟨result, t, s'⟩
  rw [hx] at h
  cases h
  rfl

end Attempt

namespace Ran.Keeps

open Attempt

variable {events events' : Event → Prop} {reached reached' : σ → Prop} {post : α → σ → Prop}

/-- A run with a value keeps a contract that its value, its events and its state fulfil. -/
theorem ok {a : α} {t : List Event} {s : σ} (ht : ∀ e ∈ t, events e) (hs : reached s)
    (ha : post a s) : Ran.Keeps events reached post ⟨.ok a, t, s⟩ where
  trace := ht
  state := hs
  fails := by
    intro stop hstop
    cases hstop
  value := by
    intro b hb
    cases hb
    exact ha

/-- A run that failed for a cause keeps any contract about its events and its state. -/
theorem failed {cause : Error} {t : List Event} {s : σ} (ht : ∀ e ∈ t, events e) (hs : reached s) :
    Ran.Keeps events reached post ⟨.error (.failed cause), t, s⟩ where
  trace := ht
  state := hs
  fails := by
    intro stop hstop
    cases hstop
    exact ⟨cause, rfl⟩
  value := by
    intro b hb
    cases hb

/-- A contract may be given up for a weaker one. -/
theorem mono {post' : α → σ → Prop} {ran : Ran σ α} (h : ran.Keeps events reached post)
    (he : ∀ e, events e → events' e) (hr : ∀ s, reached s → reached' s)
    (hp : ∀ a s, reached s → post a s → post' a s) : ran.Keeps events' reached' post' where
  trace := fun e hmem => he e (h.trace e hmem)
  state := hr _ h.state
  fails := h.fails
  value := fun a ha => hp a _ h.state (h.value a ha)

/-- A question that no allowed event answers has no answers in the trace. -/
theorem filterMap_eq_nil {ran : Ran σ α} (h : ran.Keeps events reached post)
    {ask : Event → Option β} (hask : ∀ e b, ask e = some b → ¬ events e) :
    ran.trace.filterMap ask = [] := by
  refine List.filterMap_eq_nil_iff.mpr fun e he => ?_
  rw [Option.eq_none_iff_forall_ne_some]
  exact fun b hb => hask e b hb (h.trace e he)

/-- Nor are there events of a sort that is not allowed. -/
theorem filter_eq_nil {ran : Ran σ α} (h : ran.Keeps events reached post) {sort : Event → Bool}
    (hsort : ∀ e, sort e = true → ¬ events e) : ran.trace.filter sort = [] :=
  List.filter_eq_nil_iff.mpr fun e he hyes => hsort e hyes (h.trace e he)

/-- **Composition.** The second part goes on from a state that the first part may leave, with a
value that it may give. -/
theorem bind {x : Attempt σ α} {f : α → Attempt σ β} {s : σ} {post' : β → σ → Prop}
    (hx : (x.run s).Keeps events reached post)
    (hf : ∀ a s', reached s' → post a s' → ((f a).run s').Keeps events reached post') :
    ((x >>= f).run s).Keeps events reached post' := by
  rcases hres : (x.run s).result with stop | a
  · rw [run_bind_of_error hres]
    refine ⟨hx.trace, hx.state, ?_, by intro b hb; cases hb⟩
    intro stop' hstop
    cases hstop
    exact hx.fails stop hres
  · rw [run_bind_of_ok hres]
    have hfa := hf a _ hx.state (hx.value a hres)
    refine ⟨?_, hfa.state, hfa.fails, hfa.value⟩
    intro e he
    rcases List.mem_append.mp he with he | he
    · exact hx.trace e he
    · exact hfa.trace e he

/-- A first part that only leaves allowed events hands the contract on to the second part. -/
theorem next {f : α → Attempt σ β} {a : α} {t : List Event} {s : σ} {post' : β → σ → Prop}
    (ht : ∀ e ∈ t, events e) (hf : ((f a).run s).Keeps events reached post') :
    (continueWith ⟨.ok a, t, s⟩ f).Keeps events reached post' := by
  rw [continueWith_ok]
  refine ⟨?_, hf.state, hf.fails, hf.value⟩
  intro e he
  rcases List.mem_append.mp he with he | he
  · exact ht e he
  · exact hf.trace e he

/-- A computation without effects leaves the state as it was. -/
theorem ofExcept (x : Except Error α) {s : σ} (hs : reached s) :
    ((Attempt.ofExcept x).run s).Keeps events reached fun a _ => x = .ok a := by
  cases x with
  | ok a => exact Keeps.ok (by simp) hs rfl
  | error cause => exact Keeps.failed (by simp) hs

/-- A caught step keeps the contract of the step; its failure is a value of which nothing is
known. -/
theorem caught {x : Attempt σ α} {s : σ} (h : (x.run s).Keeps events reached post) :
    ((Attempt.caught x).run s).Keeps events reached
      fun r s' => ∀ a, r = .ok a → post a s' := by
  obtain ⟨ht, hs, hf, hv⟩ := h
  refine ⟨ht, hs, ?_, ?_⟩
  · intro stop hstop
    apply hf
    rcases hres : (x.run s).result with (cause | _ | _) | b <;>
      simp_all [Attempt.caught, Attempt.run]
  · intro r hra a hr'
    subst hr'
    apply hv
    rcases hres : (x.run s).result with (cause | _ | _) | b <;>
      simp_all [Attempt.caught, Attempt.run]

/-- A step on a part of the state keeps its contract, as one about the whole. -/
theorem on {part : σ → τ} {put : σ → τ → σ} {x : Attempt τ α} {s : σ}
    {reachedPart : τ → Prop} {postPart : α → τ → Prop}
    (h : (x.run (part s)).Keeps events reachedPart postPart)
    (hr : ∀ t, reachedPart t → reached (put s t))
    (hp : ∀ a t, reachedPart t → postPart a t → post a (put s t)) :
    ((Attempt.on part put x).run s).Keeps events reached post where
  trace := h.trace
  state := hr _ h.state
  fails := h.fails
  value := fun a ha => hp a _ h.state (h.value a ha)

/-- A step with an accumulator keeps its contract, as one about the state without it. -/
theorem accumulating {initial : τ} {x : Attempt (σ × τ) α} {s : σ}
    (h : (x.run (s, initial)).Keeps events (fun st => reached st.1) fun _ _ => True) :
    ((Attempt.accumulating initial x).run s).Keeps events reached fun _ _ => True where
  trace := h.trace
  state := h.state
  fails := by
    intro stop hres
    rw [run_accumulating] at hres
    rcases hx : (x.run (s, initial)).result with stop' | a
    · rw [hx] at hres
      cases hres
      exact h.fails stop hx
    · rw [hx] at hres
      cases hres
  value := fun _ _ => trivial

end Ran.Keeps

end BootImage
