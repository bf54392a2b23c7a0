import BootImage.Proofs.Contract

/-!
# Two runs side by side

That something does not matter to a step is said of two runs of it: from states that are alike,
they leave the same trace and alike states, and both stop for the same reason or both have a value
(`Ran.Twin`). As contracts do, twins compose: the second part has to make twins only of what the
first can leave.

* `Ran.Twin.bind` — composition. The values of the first parts need not be equal; how they are
  related is handed to the second parts.
* `Ran.Twin.on`, `Ran.Twin.caught`, `Ran.Twin.accumulating` — the ways in which a step is put in a
  larger one.
* `Attempt.Blind` — a step that neither looks at the state nor changes it makes twins from any two
  states (`Ran.Twin.ofBlind`), with equal values. Checks are of this kind.
-/

namespace BootImage

variable {σ τ α β : Type}

/-- Two runs that cannot be told apart: they leave the same trace and alike states, and stop for the
same reason or have values that are related by `both`. -/
inductive Ran.Twin (alike : σ → σ → Prop) (both : α → α → σ → σ → Prop) :
    Ran σ α → Ran σ α → Prop
  | ok {a a' : α} {t : List Event} {s s' : σ} (hs : alike s s') (ha : both a a' s s') :
      Twin alike both ⟨.ok a, t, s⟩ ⟨.ok a', t, s'⟩
  | stopped {stop : Stop} {t : List Event} {s s' : σ} (hs : alike s s') :
      Twin alike both ⟨.error stop, t, s⟩ ⟨.error stop, t, s'⟩

/-- The values are equal. -/
def Ran.Equal (a a' : α) (_ _ : σ) : Prop := a = a'

namespace Attempt

/-! ### Steps that do not look -/

/-- A step that neither looks at the state nor changes it. -/
def Blind (x : Attempt σ α) : Prop := ∃ result trace, ∀ s, x.run s = ⟨result, trace, s⟩

namespace Blind

/-- A value does not depend on the state. -/
theorem pure (a : α) : Blind (Pure.pure a : Attempt σ α) := ⟨.ok a, [], fun _ => rfl⟩

/-- A message does not. -/
theorem log (message : Message) : Blind (Attempt.log message : Attempt σ Unit) :=
  ⟨.ok (), [.logged message], fun _ => rfl⟩

/-- No event does. -/
theorem emit (event : Event) : Blind (Attempt.emit event : Attempt σ Unit) :=
  ⟨.ok (), [event], fun _ => rfl⟩

/-- Nor does a stop. -/
theorem stop (why : Stop) : Blind (Attempt.stop why : Attempt σ α) :=
  ⟨.error why, [], fun _ => rfl⟩

/-- Nor does a failure with a message. -/
theorem failWith (message : Message) (cause : Error) :
    Blind (Attempt.failWith message cause : Attempt σ α) :=
  ⟨.error (.failed cause), [.logged message], fun _ => rfl⟩

/-- What would follow a failure does not run, so it may look. -/
theorem failWith_bind (message : Message) (cause : Error) (f : α → Attempt σ β) :
    Blind (Attempt.failWith message cause >>= f) :=
  ⟨.error (.failed cause), [.logged message], fun _ => rfl⟩

/-- A checksum depends on its input only. -/
theorem checksumWith (crc : Checksum) (input : Bytes) :
    Blind (Attempt.checksumWith crc input : Attempt σ UInt32) :=
  ⟨.ok (crc input), [.checksum input (crc input)], fun _ => rfl⟩

/-- A step on a value of its own does not look at the state around it. -/
theorem within (own : τ) (x : Attempt τ α) : Blind (Attempt.within own x : Attempt σ (α × τ)) :=
  ⟨_, _, fun _ => rfl⟩

/-- Nor does a value or failure that is there already. -/
theorem ofExcept (x : Except Error α) : Blind (Attempt.ofExcept x : Attempt σ α) := by
  cases x with
  | ok a => exact .pure a
  | error cause => exact .stop _

/-- Nor does a choice between two such steps, if the condition is not about the state. -/
theorem choice {c : Prop} [Decidable c] {x y : Attempt σ α} (hx : Blind x) (hy : Blind y) :
    Blind (if c then x else y) := by
  split_ifs
  · exact hx
  · exact hy

/-- A cut looks at the region that it is given. -/
theorem cut (region : Bytes) (n : Nat) : Blind (Attempt.cut region n : Attempt σ Bytes) :=
  choice (.pure _) (.stop _)

/-- A check that a number fits its word looks at the number. -/
theorem word (n : Nat) : Blind (Attempt.word n : Attempt σ Nat) := choice (.pure _) (.stop _)

/-- A checked difference looks at its operands. -/
theorem difference (a b : Nat) : Blind (Attempt.difference a b : Attempt σ Nat) :=
  choice (.pure _) (.stop _)

/-- Steps that do not look compose to one that does not look. -/
theorem bind {x : Attempt σ α} {f : α → Attempt σ β} (hx : Blind x) (hf : ∀ a, Blind (f a)) :
    Blind (x >>= f) := by
  obtain ⟨result, t, hx⟩ := hx
  rcases result with stop | a
  · refine ⟨.error stop, t, fun s => ?_⟩
    rw [run_bind, hx, continueWith_error]
  · obtain ⟨result, t', hf⟩ := hf a
    refine ⟨result, t ++ t', fun s => ?_⟩
    rw [run_bind, hx, continueWith_ok, hf]

end Blind

end Attempt

namespace Ran.Twin

open Attempt

variable {alike : σ → σ → Prop} {both : α → α → σ → σ → Prop} {r r' : Ran σ α}

/-- Twins leave the same trace. -/
theorem trace (h : Twin alike both r r') : r.trace = r'.trace := by
  cases h with
  | ok hs ha => rfl
  | stopped hs => rfl

/-- They leave states that are alike. -/
theorem state (h : Twin alike both r r') : alike r.state r'.state := by
  cases h with
  | ok hs ha => exact hs
  | stopped hs => exact hs

/-- Twins with equal values have equal results. -/
theorem result (h : Twin alike Equal r r') : r.result = r'.result := by
  cases h with
  | ok hs ha => exact congrArg Except.ok ha
  | stopped hs => rfl

/-- Twins stay twins when the same trace comes before them. -/
theorem prepend (h : Twin alike both r r') (t : List Event) :
    Twin alike both ⟨r.result, t ++ r.trace, r.state⟩ ⟨r'.result, t ++ r'.trace, r'.state⟩ := by
  cases h with
  | ok hs ha => exact .ok hs ha
  | stopped hs => exact .stopped hs

/-- **Composition.** The second parts go on from alike states with related values. -/
theorem bind {x x' : Attempt σ α} {f f' : α → Attempt σ β} {s s' : σ}
    {both' : β → β → σ → σ → Prop} (hx : Twin alike both (x.run s) (x'.run s'))
    (hf : ∀ a a' s s', alike s s' → both a a' s s' →
      Twin alike both' ((f a).run s) ((f' a').run s')) :
    Twin alike both' ((x >>= f).run s) ((x' >>= f').run s') := by
  rw [run_bind, run_bind]
  generalize x.run s = r, x'.run s' = r' at hx
  cases hx with
  | @ok a a' t s s' hs ha =>
    rw [continueWith_ok, continueWith_ok]
    exact (hf a a' s s' hs ha).prepend t
  | stopped hs =>
    rw [continueWith_error, continueWith_error]
    exact .stopped hs

/-- A step that does not look makes twins with equal values. -/
theorem ofBlind {x : Attempt σ α} {s s' : σ} (hx : Blind x) (hs : alike s s') :
    Twin alike Equal (x.run s) (x.run s') := by
  obtain ⟨result, t, hx⟩ := hx
  rw [hx, hx]
  rcases result with stop | a
  · exact .stopped hs
  · exact .ok hs rfl

/-- A step that does not look, and what follows it with the same value. -/
theorem blindly {x : Attempt σ α} {f f' : α → Attempt σ β} {s s' : σ}
    {both' : β → β → σ → σ → Prop} (hx : Blind x) (hs : alike s s')
    (hf : ∀ a, Twin alike both' ((f a).run s) ((f' a).run s')) :
    Twin alike both' ((x >>= f).run s) ((x >>= f').run s') := by
  obtain ⟨result, t, hx⟩ := hx
  rw [run_bind, run_bind, hx, hx]
  rcases result with stop | a
  · exact .stopped hs
  · rw [continueWith_ok, continueWith_ok]
    exact (hf a).prepend t

/-- Twins that look at their states first. -/
theorem getting {f f' : σ → Attempt σ β} {s s' : σ} {both' : β → β → σ → σ → Prop}
    (h : Twin alike both' ((f s).run s) ((f' s').run s')) :
    Twin alike both' ((get >>= f).run s) ((get >>= f').run s') := h.prepend []

/-- Twins that change their states first. -/
theorem modifying {f f' : Unit → Attempt σ β} {g g' : σ → σ} {s s' : σ}
    {both' : β → β → σ → σ → Prop}
    (h : Twin alike both' ((f ()).run (g s)) ((f' ()).run (g' s'))) :
    Twin alike both' ((modify g >>= f).run s) ((modify g' >>= f').run s') := h.prepend []

/-- Twins on a part of the state are twins on the whole. -/
theorem on {part : σ → τ} {put : σ → τ → σ} {x x' : Attempt τ α} {s s' : σ}
    {alikePart : τ → τ → Prop} {bothPart : α → α → τ → τ → Prop}
    (h : Twin alikePart bothPart (x.run (part s)) (x'.run (part s')))
    (hs : ∀ t t', alikePart t t' → alike (put s t) (put s' t'))
    (ha : ∀ a a' t t', alikePart t t' → bothPart a a' t t' → both a a' (put s t) (put s' t')) :
    Twin alike both ((Attempt.on part put x).run s) ((Attempt.on part put x').run s') := by
  rw [run_on, run_on]
  generalize x.run (part s) = r, x'.run (part s') = r' at h
  cases h with
  | ok hss haa => exact .ok (hs _ _ hss) (ha _ _ _ _ hss haa)
  | stopped hss => exact .stopped (hs _ _ hss)

/-- Caught twins are twins: their failures are the same value. -/
theorem caught {x x' : Attempt σ α} {s s' : σ} (h : Twin alike Equal (x.run s) (x'.run s')) :
    Twin alike Equal ((Attempt.caught x).run s) ((Attempt.caught x').run s') := by
  show Twin alike Equal (Ran.mk _ _ _) (Ran.mk _ _ _)
  generalize x.run s = r, x'.run s' = r' at h
  cases h with
  | ok hss haa => exact .ok hss (congrArg Except.ok haa)
  | @stopped stop t s s' hss =>
    cases stop with
    | failed cause => exact .ok hss rfl
    | departed => exact .stopped hss
    | outOfRange => exact .stopped hss

/-- Twins with an accumulator that end with the same one. -/
theorem accumulating {initial : τ} {x x' : Attempt (σ × τ) α} {s s' : σ}
    (h : Twin (fun st st' => alike st.1 st'.1 ∧ st.2 = st'.2) Equal (x.run (s, initial))
      (x'.run (s', initial))) :
    Twin alike Equal ((Attempt.accumulating initial x).run s)
      ((Attempt.accumulating initial x').run s') := by
  rw [run_accumulating, run_accumulating]
  generalize x.run (s, initial) = r, x'.run (s', initial) = r' at h
  cases h with
  | ok hss haa => exact .ok hss.1 (congrArg₂ Prod.mk haa hss.2)
  | stopped hss => exact .stopped hss.1

end Ran.Twin

end BootImage
