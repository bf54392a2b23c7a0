import BootImage.Guid
import BootImage.Utf8

/-!
# The compact wire form

Values are written without names or padding: a truth value as a byte 0 or 1, an optional value as a
byte 0 or as a byte 1 and the value, a number or the index of an alternative as a base-128 number
with the low digits first, and a text as its length and its bytes.

A reader takes a value off the start of a byte string and gives the rest. The base-128 form
(`varint`) may be padded with zero digits, up to the number of digits that the largest value needs,
so several byte strings read as one value; `ofNat` writes the shortest.
-/

namespace BootImage

/-- Why bytes do not read as a value. -/
inductive WireError where
  /-- The bytes end before the value does. -/
  | unexpectedEnd
  /-- A base-128 number has too many digits or too large a value. -/
  | badVarint
  /-- A truth value is neither 0 nor 1. -/
  | badBool
  /-- The mark of an optional value is neither 0 nor 1. -/
  | badOption
  /-- A text is not well-formed UTF-8. -/
  | badUtf8
  /-- The bytes are well formed and stand for no value of the type. -/
  | noValue
  deriving DecidableEq, Repr

namespace Wire

/-- A function that takes a value off the start of a byte string. -/
abbrev Reader (α : Type) := StateT Bytes (Except WireError) α

/-! ### Base-128 numbers -/

/-- A base-128 number of at most `n` digits, lowest first, each but the last with its high bit set.
A number that uses all `n` digits has a last digit of at most `last`. -/
def varint (last : Nat) : Nat → Bytes → Except WireError (Nat × Bytes)
  | 0, _ => .error .badVarint
  | _ + 1, [] => .error .unexpectedEnd
  | n + 1, b :: s =>
    if b.toNat < 128 then
      if n = 0 ∧ last < b.toNat then .error .badVarint else .ok (b.toNat, s)
    else
      match varint last n s with
      | .ok (high, rest) => .ok (b.toNat % 128 + 128 * high, rest)
      | .error e => .error e

/-- The shortest base-128 form of a number. -/
def ofNat (n : Nat) : Bytes :=
  if n < 128 then [UInt8.ofNat n] else UInt8.ofNat (n % 128 + 128) :: ofNat (n / 128)

/-- Reads a number of 32 bits. -/
def nat32 : Reader Nat := varint 15 5

/-- Reads a number of 64 bits. -/
def nat64 : Reader Nat := varint 1 10

/-! ### Readers -/

/-- Gives up. -/
def refuse {α : Type} (e : WireError) : Reader α := fun _ => .error e

/-- Reads one byte. -/
def byte : Reader UInt8
  | [] => .error .unexpectedEnd
  | b :: s => .ok (b, s)

/-- Reads `n` bytes. -/
def bytes (n : Nat) : Reader Bytes := fun s =>
  if n ≤ s.length then .ok (s.take n, s.drop n) else .error .unexpectedEnd

/-- Reads a truth value. -/
def bool : Reader Bool := do
  let b ← byte
  if b = 0 then return false
  else if b = 1 then return true
  else refuse .badBool

/-- Reads an optional value. -/
def option {α : Type} (value : Reader α) : Reader (Option α) := do
  let b ← byte
  if b = 0 then return none
  else if b = 1 then return some (← value)
  else refuse .badOption

/-- Reads the bytes of a text, which have to be well-formed UTF-8. -/
def text : Reader Bytes := do
  let s ← bytes (← nat64)
  match Utf8.decode? s with
  | some _ => return s
  | none => refuse .badUtf8

/-- Reads an identifier, which is written as its text. -/
def guid : Reader Guid := do
  match Guid.ofText? (← text) with
  | some g => return g
  | none => refuse .noValue

/-- Reads one of some alternatives by its index. -/
def oneOf {α : Type} (alternatives : List α) : Reader α := do
  match alternatives[← nat32]? with
  | some a => return a
  | none => refuse .noValue

/-! ### Writers -/

/-- Writes a truth value. -/
def ofBool (b : Bool) : Bytes := if b then [1] else [0]

/-- Writes an optional value. -/
def ofOption {α : Type} (write : α → Bytes) : Option α → Bytes
  | none => [0]
  | some a => 1 :: write a

/-- Writes a text. -/
def ofText (s : Bytes) : Bytes := ofNat s.length ++ s

/-- Writes an identifier as its text. -/
def ofGuid (g : Guid) : Bytes := ofText g.text

end Wire

end BootImage
