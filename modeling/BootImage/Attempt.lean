import BootImage.Event

/-!
# Attempts: fallible steps that leave a trace

An `Attempt σ α` acts on a state `σ`. It ends with a value or stops, and says in order what it did:
the messages it logged, the reads it made, and the calls it made to decompressor, checksum and
launcher. Statements about what an attempt does are statements about `Ran.trace`.

An attempt stops for one of three reasons (`Stop`). A failure has a cause. A departure means that
control went to the image. The third, `outOfRange`, is there because regions have ends and words
have sizes: every cut of a region, every copy from one region to another, and every operation on
words that is not known to fit, goes through one of the checked operations below, which stop so when
they would not fit.
-/

namespace BootImage

/-- Why an attempt ends before its last step. -/
inductive Stop where
  /-- It failed, for this cause. -/
  | failed (cause : Error)
  /-- Control went to the image. -/
  | departed
  /-- A cut went past the end of its region, a copy met a region of another length, or a result went
  past the end of its word. -/
  | outOfRange
  deriving DecidableEq, Repr

/-- What is left of an attempt that has run. -/
structure Ran (σ α : Type) where
  /-- Its value, or why it stopped. -/
  result : Except Stop α
  /-- What it did, in order. -/
  trace : List Event
  /-- The state it left. -/
  state : σ

/-- A step that acts on a state, may stop, and leaves a trace. -/
def Attempt (σ α : Type) : Type := σ → Ran σ α

namespace Attempt

variable {σ τ α β : Type}

/-- Runs an attempt from a state. -/
def run (x : Attempt σ α) (s : σ) : Ran σ α := x s

/-- Attempts that run alike from every state are equal. -/
@[ext] theorem ext {x y : Attempt σ α} (h : ∀ s, x.run s = y.run s) : x = y := funext h

/-- Goes on with `f` where `first` ended, unless it stopped. -/
def continueWith (first : Ran σ α) (f : α → Attempt σ β) : Ran σ β :=
  match first.result with
  | .ok a =>
    let second := (f a).run first.state
    ⟨second.result, first.trace ++ second.trace, second.state⟩
  | .error stop => ⟨.error stop, first.trace, first.state⟩

instance : Monad (Attempt σ) where
  pure a s := ⟨.ok a, [], s⟩
  bind x f s := continueWith (x.run s) f

/-- A value is there at once. -/
@[simp] theorem run_pure (a : α) (s : σ) : (pure a : Attempt σ α).run s = ⟨.ok a, [], s⟩ := rfl

/-- A composition goes on where its first part ended. -/
@[simp] theorem run_bind (x : Attempt σ α) (f : α → Attempt σ β) (s : σ) :
    (x >>= f).run s = continueWith (x.run s) f := rfl

/-- After a value the second part goes on, and the traces are put together. -/
@[simp] theorem continueWith_ok (a : α) (t : List Event) (s : σ) (f : α → Attempt σ β) :
    continueWith ⟨.ok a, t, s⟩ f =
      ⟨((f a).run s).result, t ++ ((f a).run s).trace, ((f a).run s).state⟩ := rfl

/-- After a stop there is no second part. -/
@[simp] theorem continueWith_error (e : Stop) (t : List Event) (s : σ) (f : α → Attempt σ β) :
    continueWith ⟨.error e, t, s⟩ f = ⟨.error e, t, s⟩ := rfl

/-- Giving back the value of a run changes nothing. -/
private theorem continueWith_pure (ran : Ran σ α) : continueWith ran pure = ran := by
  rcases ran with ⟨_ | a, t, s⟩
  · rfl
  · simp

/-- Going on twice is going on with the rest. -/
private theorem continueWith_assoc {γ : Type} (ran : Ran σ α) (f : α → Attempt σ β)
    (g : β → Attempt σ γ) :
    continueWith (continueWith ran f) g = continueWith ran fun a => f a >>= g := by
  rcases ran with ⟨_ | a, t, s⟩
  · rfl
  · simp only [continueWith_ok, run_bind]
    rcases (f a).run s with ⟨_ | b, t', s'⟩ <;> simp

instance : LawfulMonad (Attempt σ) := LawfulMonad.mk' (Attempt σ)
  (fun x => ext fun s => continueWith_pure (x.run s))
  (fun _ _ => rfl)
  (fun x f g => ext fun s => continueWith_assoc (x.run s) f g)

/-- A function of the value leaves the trace and the state. -/
@[simp] theorem run_map (f : α → β) (x : Attempt σ α) (s : σ) :
    (f <$> x).run s = ⟨(x.run s).result.map f, (x.run s).trace, (x.run s).state⟩ := by
  rw [← bind_pure_comp, run_bind]
  rcases x.run s with ⟨_ | a, t, s'⟩
  · rfl
  · simp [Except.map]

/-- A composed attempt gives a value when its first part does and its second part, which goes on
from the state that the first left, does too. -/
theorem result_bind_eq_ok {x : Attempt σ α} {f : α → Attempt σ β} {s : σ} {b : β} :
    ((x >>= f).run s).result = .ok b ↔
      ∃ a, (x.run s).result = .ok a ∧ ((f a).run (x.run s).state).result = .ok b := by
  rw [run_bind]
  rcases x.run s with ⟨_ | a, t, s'⟩ <;> simp

/-! ### Steps -/

/-- The state. -/
def get : Attempt σ σ := fun s => ⟨.ok s, [], s⟩

/-- Changes the state. -/
def modify (f : σ → σ) : Attempt σ Unit := fun s => ⟨.ok (), [], f s⟩

/-- Stops. -/
def stop (why : Stop) : Attempt σ α := fun s => ⟨.error why, [], s⟩

/-- Fails for a cause. -/
def fail (cause : Error) : Attempt σ α := stop (.failed cause)

/-- Leaves one event in the trace. -/
def emit (event : Event) : Attempt σ Unit := fun s => ⟨.ok (), [event], s⟩

/-- Logs a message. -/
def log (message : Message) : Attempt σ Unit := emit (.logged message)

/-- Fails for a cause, after a message about it. -/
def failWith (message : Message) (cause : Error) : Attempt σ α := do
  log message
  fail cause

/-- Calls a checksum primitive. -/
def checksumWith (crc : Checksum) (input : Bytes) : Attempt σ UInt32 := do
  emit (.checksum input (crc input))
  return crc input

/-- The value of a computation without effects, or its failure. -/
def ofExcept : Except Error α → Attempt σ α
  | .ok a => pure a
  | .error cause => fail cause

/-- Runs `x` and hands a failure on as a value. A departure, or a step out of range, still stops. -/
def caught (x : Attempt σ α) : Attempt σ (Except Error α) := fun s =>
  let ran := x.run s
  ⟨match ran.result with
    | .ok a => .ok (.ok a)
    | .error (.failed cause) => .ok (.error cause)
    | .error stop => .error stop, ran.trace, ran.state⟩

/-! ### Acting on a part of the state -/

/-- Runs `x` on a part of the state. -/
def on (part : σ → τ) (put : σ → τ → σ) (x : Attempt τ α) : Attempt σ α := fun s =>
  let ran := x.run (part s)
  ⟨ran.result, ran.trace, put s ran.state⟩

/-- Runs `x` on a state of its own, which is handed out at the end if there is a value. -/
def within (own : τ) (x : Attempt τ α) : Attempt σ (α × τ) := fun s =>
  let ran := x.run own
  ⟨ran.result.map fun a => (a, ran.state), ran.trace, s⟩

/-- Runs `x` with an accumulator beside the state, which is handed out at the end if there is a
value and lost if there is none. -/
def accumulating (initial : τ) (x : Attempt (σ × τ) α) : Attempt σ (α × τ) := fun s =>
  let ran := x.run (s, initial)
  ⟨ran.result.map fun a => (a, ran.state.2), ran.trace, ran.state.1⟩

/-! ### Checked operations -/

/-- The first `n` bytes of a region, which has to have them. -/
def cut (region : Bytes) (n : Nat) : Attempt σ Bytes :=
  if n ≤ region.length then pure (region.take n) else stop .outOfRange

/-- What is in a region once a source is copied over it, which has to be as long as the region. -/
def overwrite (region source : Bytes) : Attempt σ Bytes :=
  if source.length = region.length then pure source else stop .outOfRange

/-- A number that has to fit a word of 64 bits. -/
def word (n : Nat) : Attempt σ Nat :=
  if n < UInt64.size then pure n else stop .outOfRange

/-- A difference that has to be no less than zero. -/
def difference (a b : Nat) : Attempt σ Nat :=
  if b ≤ a then pure (a - b) else stop .outOfRange

/-- A quotient, whose divisor has to differ from zero. -/
def quotient (a b : Nat) : Attempt σ Nat :=
  if b = 0 then stop .outOfRange else pure (a / b)

/-- Looking at the state leaves nothing in the trace. -/
@[simp] theorem run_get (s : σ) : (get : Attempt σ σ).run s = ⟨.ok s, [], s⟩ := rfl

/-- Nor does changing it. -/
@[simp] theorem run_modify (f : σ → σ) (s : σ) : (modify f).run s = ⟨.ok (), [], f s⟩ := rfl

/-- A stop leaves the state as it is. -/
@[simp] theorem run_stop (why : Stop) (s : σ) :
    (stop why : Attempt σ α).run s = ⟨.error why, [], s⟩ := rfl

/-- So does a failure, which has a cause. -/
@[simp] theorem run_fail (cause : Error) (s : σ) :
    (fail cause : Attempt σ α).run s = ⟨.error (.failed cause), [], s⟩ := rfl

/-- An event is the whole trace. -/
@[simp] theorem run_emit (event : Event) (s : σ) :
    (emit event).run s = ⟨.ok (), [event], s⟩ := rfl

/-- So is a message. -/
@[simp] theorem run_log (message : Message) (s : σ) :
    (log message).run s = ⟨.ok (), [.logged message], s⟩ := rfl

/-- A failure with a message has the message for its trace. -/
@[simp] theorem run_failWith (message : Message) (cause : Error) (s : σ) :
    (failWith message cause : Attempt σ α).run s =
      ⟨.error (.failed cause), [.logged message], s⟩ := rfl

/-- A checksum leaves its input and its value in the trace. -/
@[simp] theorem run_checksumWith (crc : Checksum) (input : Bytes) (s : σ) :
    (checksumWith crc input).run s = ⟨.ok (crc input), [.checksum input (crc input)], s⟩ := rfl

/-- A value that is there already is the value of the step. -/
@[simp] theorem run_ofExcept_ok (a : α) (s : σ) :
    (ofExcept (.ok a) : Attempt σ α).run s = ⟨.ok a, [], s⟩ := rfl

/-- A failure that is there already is the failure of the step. -/
@[simp] theorem run_ofExcept_error (cause : Error) (s : σ) :
    (ofExcept (.error cause) : Attempt σ α).run s = ⟨.error (.failed cause), [], s⟩ := rfl

/-- A step on a part of the state changes that part and nothing else. -/
@[simp] theorem run_on (part : σ → τ) (put : σ → τ → σ) (x : Attempt τ α) (s : σ) :
    (on part put x).run s =
      ⟨(x.run (part s)).result, (x.run (part s)).trace, put s (x.run (part s)).state⟩ := rfl

/-- A step on a value of its own leaves the state, and gives that value along with its own. -/
@[simp] theorem run_within (own : τ) (x : Attempt τ α) (s : σ) :
    (within own x).run s =
      ⟨(x.run own).result.map fun a => (a, (x.run own).state), (x.run own).trace, s⟩ := rfl

/-- A step that accumulates gives what it accumulated along with its value. -/
@[simp] theorem run_accumulating (initial : τ) (x : Attempt (σ × τ) α) (s : σ) :
    (accumulating initial x).run s =
      ⟨(x.run (s, initial)).result.map fun a => (a, (x.run (s, initial)).state.2),
        (x.run (s, initial)).trace, (x.run (s, initial)).state.1⟩ := rfl

/-- A value is handed on. -/
theorem run_caught_of_ok {x : Attempt σ α} {s s' : σ} {a : α} {t : List Event}
    (h : x.run s = ⟨.ok a, t, s'⟩) : (caught x).run s = ⟨.ok (.ok a), t, s'⟩ := by
  show (⟨_, _, _⟩ : Ran _ _) = _
  rw [h]

/-- A failure is handed on as a value. -/
theorem run_caught_of_failed {x : Attempt σ α} {s s' : σ} {cause : Error} {t : List Event}
    (h : x.run s = ⟨.error (.failed cause), t, s'⟩) :
    (caught x).run s = ⟨.ok (.error cause), t, s'⟩ := by
  show (⟨_, _, _⟩ : Ran _ _) = _
  rw [h]

/-- A departure is not handed on. -/
theorem run_caught_of_departed {x : Attempt σ α} {s s' : σ} {t : List Event}
    (h : x.run s = ⟨.error .departed, t, s'⟩) : (caught x).run s = ⟨.error .departed, t, s'⟩ := by
  show (⟨_, _, _⟩ : Ran _ _) = _
  rw [h]

/-- A cut inside the region gives its first bytes. -/
theorem cut_of_le {region : Bytes} {n : Nat} (h : n ≤ region.length) :
    (cut region n : Attempt σ Bytes) = pure (region.take n) := if_pos h

/-- A region is overwritten with a source of its length. -/
theorem overwrite_of_length {region source : Bytes} (h : source.length = region.length) :
    (overwrite region source : Attempt σ Bytes) = pure source := if_pos h

/-- A number below 2^64 is its own word. -/
theorem word_of_lt {n : Nat} (h : n < UInt64.size) : (word n : Attempt σ Nat) = pure n := if_pos h

/-- A difference that is not negative is the difference. -/
theorem difference_of_le {a b : Nat} (h : b ≤ a) :
    (difference a b : Attempt σ Nat) = pure (a - b) := if_pos h

/-- A quotient by a divisor other than zero is the quotient. -/
theorem quotient_of_ne {a b : Nat} (h : b ≠ 0) :
    (quotient a b : Attempt σ Nat) = pure (a / b) := if_neg h

end Attempt

end BootImage
