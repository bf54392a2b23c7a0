import BootImage.Json.Reader

/-!
# Writing JSON text

Text is written without blanks. The strings of this project's values are ASCII and need no escapes.
-/

namespace BootImage.Json

/-- A string of ASCII characters that need no escape. -/
def quoted (s : Bytes) : Bytes := ascii '"' :: s ++ [ascii '"']

/-- A truth value. -/
def ofBool (b : Bool) : Bytes := asciiText (if b then "true" else "false")

/-- A number in base 10. -/
def ofNat (n : Nat) : Bytes := (Nat.toDigits 10 n).map ascii

/-- A value, or null. -/
def ofOption {α : Type} (write : α → Bytes) : Option α → Bytes
  | none => asciiText "null"
  | some a => write a

/-- A key and its value. -/
def ofMember (m : String × Bytes) : Bytes := quoted (asciiText m.1) ++ ascii ':' :: m.2

/-- An object with the given keys and values. -/
def ofObject (ms : List (String × Bytes)) : Bytes :=
  openBrace :: (((ms.map ofMember).intersperse [ascii ',']).flatten ++ [closeBrace])

/-- A text of ASCII characters as a string. -/
def toText (s : Bytes) : String := String.ofList (s.map fun b => Char.ofNat b.toNat)

end BootImage.Json
