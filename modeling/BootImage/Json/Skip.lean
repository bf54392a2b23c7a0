import BootImage.Json.Scalar

/-!
# Passing over JSON values

A value that nobody wants is passed over without being kept. The brackets that are open are a stack
(`Skipping.frames`), and each step takes one token or a few off the text.
-/

namespace BootImage.Json

/-- The bracket that a value being passed over is in. -/
inductive Frame where
  | list
  | object
  deriving DecidableEq

/-- Where one is in passing over a value. -/
structure Skipping where
  /-- The brackets that are open, the innermost first. -/
  frames : List Frame
  /-- Whether a value has just ended; otherwise one comes next. -/
  afterValue : Bool
  deriving DecidableEq

/-- The closing bracket of a frame. -/
def Frame.closing : Frame → UInt8
  | list => ascii ']'
  | object => closeBrace

/-- What comes before a value in a frame: in an object, a key. -/
def Frame.beforeValue : Frame → Reader Unit
  | list => pure ()
  | object => do
    skipBlank
    expect (ascii '"')
    let _ ← stringBody true
    colon

/-- Enters a frame, whose opening bracket has been taken. -/
def Frame.enter (frame : Frame) (frames : List Frame) : Reader Skipping := do
  skipBlank
  if (← peek) = frame.closing then do
    let _ ← take
    return ⟨frames, true⟩
  else do
    frame.beforeValue
    return ⟨frame :: frames, false⟩

/-- Passes over a value without brackets, or enters the value's frame. -/
def Skipping.value (frames : List Frame) : Reader Skipping := do
  skipBlank
  let b ← peek
  if b = ascii '[' then do
    let _ ← take
    Frame.list.enter frames
  else if b = openBrace then do
    let _ ← take
    Frame.object.enter frames
  else do
    if b = ascii 'n' then expectAll (asciiText "null")
    else if b = ascii 't' then expectAll (asciiText "true")
    else if b = ascii 'f' then expectAll (asciiText "false")
    else if b = ascii '-' ∨ isDigit b then let _ ← number .syntaxError
    else if b = ascii '"' then do
      let _ ← take
      let _ ← stringBody true
    else refuse .syntaxError
    return ⟨frames, true⟩

/-- Goes on after a value: to the next value of its frame, or out of the frame. -/
def Skipping.next (frame : Frame) (frames : List Frame) : Reader Skipping := do
  skipBlank
  let b ← take
  if b = ascii ',' then do
    frame.beforeValue
    return ⟨frame :: frames, false⟩
  else if b = frame.closing then return ⟨frames, true⟩
  else refuse .syntaxError

/-- One step in passing over a value. -/
def Skipping.step : Skipping → Reader Skipping
  | ⟨frames, false⟩ => Skipping.value frames
  | ⟨frame :: frames, true⟩ => Skipping.next frame frames
  | ⟨[], true⟩ => pure ⟨[], true⟩

/-- Steps until the outermost value has ended. -/
def Skipping.finish (k : Skipping) (s : Bytes) : Except JsonError (Unit × Bytes) :=
  if k = ⟨[], true⟩ then .ok ((), s)
  else
    match k.step s with
    | .error e => .error e
    | .ok (next, rest) =>
      -- A step takes at least one byte; the test makes the recursion end.
      if rest.length < s.length then next.finish rest else .error .syntaxError
termination_by s.length

/-- Passes over a value of any kind. -/
def skipValue : Reader Unit := Skipping.finish ⟨[], false⟩

end BootImage.Json
