import BootImage.Double
import BootImage.Json.Reader

/-!
# JSON numbers

A number is kept as it is written. Where a value is wanted, a number that is not a whole one of 64
bits is judged as a double, and one too large for a double is malformed. The judgement rounds three
times: the leading digits that fit a word of 64 bits are a double, the power of ten that is left is
a double, and so is their product (`Number.isTooLarge`). Close to the largest double it may differ
from what the written number itself would give, in both directions.

Where a value is passed over, its size does not matter, and a number that the end of the text breaks
off is malformed rather than cut short; the functions below are told the error for the end of the
text.
-/

namespace BootImage.Json

/-- A number, as it is written. -/
structure Number where
  negative : Bool
  /-- The digits before the point. -/
  whole : Bytes
  /-- The digits after the point; none if there is no point. -/
  fraction : Bytes
  /-- The power of ten, if one is written. -/
  power : Option Int
  deriving DecidableEq

/-- The number that decimal digits stand for. -/
def ofDigits (digits : Bytes) : Nat := digits.foldl (fun n d => 10 * n + (d.toNat - 48)) 0

/-- Takes the decimal digits that come next. -/
def takeDigits : Reader Bytes := fun s => .ok (s.takeWhile isDigit, s.dropWhile isDigit)

/-- Takes at least one decimal digit. `ending` is the error at the end of the text. -/
def takeDigits1 (ending : JsonError) : Reader Bytes := do
  let digits ← takeDigits
  if digits ≠ [] then return digits
  else if (← peek?) = none then refuse ending
  else refuse .syntaxError

/-- Takes the digits before a fraction, which have no leading zero. -/
def wholePart (ending : JsonError) : Reader Bytes := do
  let digits ← takeDigits1 ending
  if digits.head? = some (ascii '0') ∧ digits.length ≠ 1 then refuse .syntaxError
  else return digits

/-- Takes the digits of a fraction, if there is one. -/
def fraction (ending : JsonError) : Reader Bytes := do
  if (← peek?) = some (ascii '.') then do
    let _ ← take
    takeDigits1 ending
  else return []

/-- Takes an exponent, if there is one. -/
def exponent (ending : JsonError) : Reader (Option Int) := do
  let mark ← peek?
  if mark = some (ascii 'e') ∨ mark = some (ascii 'E') then do
    let _ ← take
    let sign ← peek?
    if sign = some (ascii '-') then do
      let _ ← take
      return some (-(ofDigits (← takeDigits1 ending) : Int))
    else if sign = some (ascii '+') then do
      let _ ← take
      return some (ofDigits (← takeDigits1 ending) : Int)
    else return some (ofDigits (← takeDigits1 ending) : Int)
  else return none

/-- Takes a number as it is written. -/
def number (ending : JsonError) : Reader Number := do
  let negative := (← peek?) = some (ascii '-')
  if negative then let _ ← take
  return ⟨negative, ← wholePart ending, ← fraction ending, ← exponent ending⟩

namespace Number

/-- The value of a number that is written without a fraction and a power of ten, its sign apart. -/
def whole? (n : Number) : Option Nat :=
  if n.fraction = [] ∧ n.power = none then some (ofDigits n.whole) else none

/-- Appends digits to a number up to the first with which it does not fit a word of 64 bits. Gives
the number, and how many digits are left. -/
def append : Nat → Bytes → Nat × Nat
  | n, [] => (n, 0)
  | n, d :: ds =>
    let more := 10 * n + (d.toNat - 48)
    if more < UInt64.size then append more ds else (n, ds.length + 1)

/-- The leading digits that fit a word, and the power of ten by which they are too small. Digits of
the fraction may fit after the last ones before it did not. -/
def scientific (n : Number) : Nat × Int :=
  let (leading, dropped) := append 0 n.whole
  let (significand, left) := append leading n.fraction
  (significand, n.power.getD 0 + dropped - (n.fraction.length - left : Nat))

/-- Whether a number is too large for a double. -/
def isTooLarge (n : Number) : Bool :=
  let (significand, power) := n.scientific
  if significand = 0 ∨ power < 0 then false
  else if 308 < power then true
  else Double.overflows (Double.nearest significand * Double.nearest (Nat.pow 10 power.toNat))

/-- Whether a number is of a size that can be held: it is a whole number of 64 bits, or it is not
too large for a double. -/
def isHeld (n : Number) : Bool := n.whole?.any (· < UInt64.size) || !n.isTooLarge

end Number

/-- Takes a number of a size that can be held. -/
def heldNumber : Reader Number := do
  let n ← number .eof
  if n.isHeld then return n else refuse .syntaxError

end BootImage.Json
