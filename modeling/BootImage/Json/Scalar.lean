import BootImage.Json.Number
import BootImage.Json.Text

/-!
# JSON values of a wanted kind

A value of the wrong kind is an error once it has been read, so that a malformed one is malformed in
the first place. A list or an object in the place of another kind is an error at its opening
bracket.
-/

namespace BootImage.Json

/-- Reads a value of the wrong kind, which is an error in any case. -/
def mismatch {α : Type} : Reader α := do
  let b ← peek
  if b = ascii 'n' then expectAll (asciiText "null")
  else if b = ascii 't' then expectAll (asciiText "true")
  else if b = ascii 'f' then expectAll (asciiText "false")
  else if b = ascii '-' ∨ isDigit b then let _ ← heldNumber
  else if b = ascii '"' then do
    let _ ← take
    let _ ← stringBody false
  else if b = ascii '[' ∨ b = openBrace then pure ()
  else refuse .syntaxError
  refuse .data

/-- Reads a truth value. -/
def bool : Reader Bool := do
  skipBlank
  let b ← peek
  if b = ascii 't' then do
    expectAll (asciiText "true")
    return true
  else if b = ascii 'f' then do
    expectAll (asciiText "false")
    return false
  else mismatch

/-- Reads a whole number of 64 bits without a sign. -/
def nat64 : Reader Nat := do
  skipBlank
  let b ← peek
  if b = ascii '-' ∨ isDigit b then do
    let n ← heldNumber
    match n.whole? with
    | some value => if ¬ n.negative ∧ value < UInt64.size then return value else refuse .data
    | none => refuse .data
  else mismatch

/-- Reads a string. -/
def string : Reader Bytes := do
  skipBlank
  if (← peek) = ascii '"' then do
    let _ ← take
    stringBody false
  else mismatch

/-- Reads null. -/
def null : Reader Unit := do
  skipBlank
  if (← peek) = ascii 'n' then expectAll (asciiText "null") else mismatch

/-- Reads a value or null. -/
def nullable {α : Type} (value : Reader α) : Reader (Option α) := do
  skipBlank
  if (← peek?) = some (ascii 'n') then do
    expectAll (asciiText "null")
    return none
  else return some (← value)

/-- Passes over the colon after a key. -/
def colon : Reader Unit := do
  skipBlank
  expect (ascii ':')

end BootImage.Json
