import BootImage.Json.Skip

/-!
# JSON objects

The members of an object are read one at a time, in any order, into a draft that holds what was
found so far. A member that comes twice is an error at its second key; what is missing is noticed at
the closing bracket.
-/

namespace BootImage.Json

/-- The next key of an object, if there is one. The key's quotes and, before it, the comma are
taken, or else the closing bracket. -/
def nextKey (first : Bool) : Reader (Option Bytes) := do
  skipBlank
  let b ← peek
  if b = closeBrace then do
    let _ ← take
    return none
  else do
    if ¬ first then do
      expect (ascii ',')
      skipBlank
    expect (ascii '"')
    return some (← stringBody false)

/-- Reads the members of an object, whose opening bracket has been taken. `member` is told what was
found so far and the key, and reads the colon and the value. -/
def members {ρ : Type} (member : ρ → Bytes → Reader ρ) (first : Bool) (found : ρ) (s : Bytes) :
    Except JsonError (ρ × Bytes) :=
  match nextKey first s with
  | .error e => .error e
  | .ok (none, rest) => .ok (found, rest)
  | .ok (some key, rest) =>
    match member found key rest with
    | .error e => .error e
    | .ok (found, after) =>
      -- A member takes at least its quotes; the test makes the recursion end.
      if after.length < s.length then members member false found after else .error .syntaxError
termination_by s.length

/-- Reads an object, starting from nothing found. `finish` makes the value of what was found. -/
def object {ρ α : Type} (nothing : ρ) (member : ρ → Bytes → Reader ρ) (finish : ρ → Option α) :
    Reader α := do
  skipBlank
  if (← peek) = openBrace then do
    let _ ← take
    match finish (← members member true nothing) with
    | some value => return value
    | none => refuse .data
  else mismatch

/-- Reads the value of a member that must not have been read before. -/
def once {α ρ : Type} (before : Option α) (value : Reader α) (put : α → ρ) : Reader ρ := do
  if before.isSome then refuse .data
  else do
    colon
    return put (← value)

/-- Passes over a member that nobody wants. -/
def ignored {ρ : Type} (found : ρ) : Reader ρ := do
  colon
  skipValue
  return found

end BootImage.Json
