import BootImage.Hexadecimal
import BootImage.Json.Reader

/-!
# JSON strings

A string is read as the UTF-8 bytes of its characters. A numbered escape is a 16-bit number, and two
of them may be the halves of a surrogate pair. In a string that is only passed over, the halves need
not match.
-/

namespace BootImage.Json

/-- The byte that a one-letter escape stands for. -/
def simpleEscape? (letter : UInt8) : Option UInt8 :=
  if letter = ascii '"' ∨ letter = ascii '\\' ∨ letter = ascii '/' then some letter
  else if letter = ascii 'b' then some 8
  else if letter = ascii 'f' then some 12
  else if letter = ascii 'n' then some 10
  else if letter = ascii 'r' then some 13
  else if letter = ascii 't' then some 9
  else none

/-- Takes four hexadecimal digits as a number. -/
def hex4 : Reader Nat
  | a :: b :: c :: d :: s =>
    match Hexadecimal.value? a, Hexadecimal.value? b, Hexadecimal.value? c,
      Hexadecimal.value? d with
    | some a, some b, some c, some d => .ok (((a * 16 + b) * 16 + c) * 16 + d, s)
    | _, _, _, _ => .error .syntaxError
  | _ => .error .eof

/-- Whether a 16-bit number is the first half of a surrogate pair. -/
def isHighSurrogate (n : Nat) : Bool := 0xD800 ≤ n && n ≤ 0xDBFF

/-- Whether a 16-bit number is the second half of a surrogate pair. -/
def isLowSurrogate (n : Nat) : Bool := 0xDC00 ≤ n && n ≤ 0xDFFF

/-- The UTF-8 bytes of a numbered escape, of which the introduction has been taken. -/
def unicodeEscape : Reader Bytes := do
  let high ← hex4
  if isLowSurrogate high then refuse .syntaxError
  else if isHighSurrogate high then do
    expectAll (asciiText "\\u")
    let low ← hex4
    if isLowSurrogate low then
      return String.utf8EncodeChar (Char.ofNat ((high - 0xD800) * 0x400 + (low - 0xDC00) + 0x10000))
    else refuse .syntaxError
  else return String.utf8EncodeChar (Char.ofNat high)

/-- The bytes that an escape stands for, of which the backslash has been taken. If the string is
only passed over, a numbered escape may be any number. -/
def escape (passedOver : Bool) : Reader Bytes := do
  let letter ← take
  match simpleEscape? letter with
  | some b => return [b]
  | none =>
    if letter ≠ ascii 'u' then refuse .syntaxError
    else if passedOver then do
      let _ ← hex4
      return []
    else unicodeEscape

/-- The bytes of a string whose opening quote has been taken. -/
def stringBody (passedOver : Bool) : Bytes → Except JsonError (Bytes × Bytes)
  | [] => .error .eof
  | b :: s =>
    if b = ascii '"' then .ok ([], s)
    else if b = ascii '\\' then
      match escape passedOver s with
      | .error e => .error e
      | .ok (decoded, rest) =>
        -- An escape is never longer than what it is read from; the test makes the recursion end.
        if rest.length ≤ s.length then
          match stringBody passedOver rest with
          | .error e => .error e
          | .ok (more, rest) => .ok (decoded ++ more, rest)
        else .error .syntaxError
    else if b < 32 then .error .syntaxError
    else
      match stringBody passedOver s with
      | .error e => .error e
      | .ok (more, rest) => .ok (b :: more, rest)
termination_by s => s.length

end BootImage.Json
