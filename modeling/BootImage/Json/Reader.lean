import BootImage.Bytes

/-!
# Reading JSON text

Text is read as UTF-8 bytes from left to right, and the first thing that is wrong decides the
error: `eof` if the text ends there, `syntaxError` if it is malformed there, and `data` if it is
well formed but not of the wanted kind. A reader takes something off the start of a text and gives
the rest; `whole` asks that nothing but blanks is left.
-/

namespace BootImage

/-- Why a text is refused. -/
inductive JsonError where
  /-- The text ends too early. -/
  | eof
  /-- The text is malformed. -/
  | syntaxError
  /-- The text is well formed and says something else than is wanted. -/
  | data
  deriving DecidableEq, Repr

namespace Json

/-- A function that takes a value off the start of a text. -/
abbrev Reader (α : Type) := StateT Bytes (Except JsonError) α

/-- The byte of an ASCII character. -/
def ascii (c : Char) : UInt8 := UInt8.ofNat c.toNat

/-- The bytes of an ASCII text. -/
def asciiText (s : String) : Bytes := s.toList.map ascii

/-- The bracket that opens an object. -/
def openBrace : UInt8 := ascii '\x7b'

/-- The bracket that closes an object. -/
def closeBrace : UInt8 := ascii '\x7d'

/-- Refuses the text. -/
def refuse {α : Type} (e : JsonError) : Reader α := fun _ => .error e

/-- Whether a byte may stand between tokens. -/
def isBlank (b : UInt8) : Bool := b == 32 || b == 9 || b == 10 || b == 13

/-- Passes over blanks. -/
def skipBlank : Reader Unit := fun s => .ok ((), s.dropWhile isBlank)

/-- The next byte, which is left in place. -/
def peek : Reader UInt8
  | [] => .error .eof
  | b :: s => .ok (b, b :: s)

/-- The next byte, if there is one. -/
def peek? : Reader (Option UInt8) := fun s => .ok (s.head?, s)

/-- Takes the next byte. -/
def take : Reader UInt8
  | [] => .error .eof
  | b :: s => .ok (b, s)

/-- Takes a byte that has to be the given one. -/
def expect (wanted : UInt8) : Reader Unit := do
  if (← take) = wanted then pure () else refuse .syntaxError

/-- Takes bytes that have to be the given ones. -/
def expectAll (wanted : Bytes) : Reader Unit := wanted.forM expect

/-- Whether a byte is a decimal digit. -/
def isDigit (b : UInt8) : Bool := 48 ≤ b && b ≤ 57

/-- Reads a value that is the whole text, up to blanks. -/
def whole {α : Type} (value : Reader α) (text : Bytes) : Except JsonError α :=
  match value text with
  | .error e => .error e
  | .ok (a, rest) => if rest.all isBlank then .ok a else .error .syntaxError

end Json

end BootImage
