import BootImage.Hexadecimal

/-!
# Globally unique identifiers

A GUID is kept as its sixteen bytes on a medium. Its text has 36 characters: five groups of
hexadecimal pairs with hyphens between them, of which the first three are words and so appear with
their bytes turned round, while the last two are bytes in the order written.
-/

namespace BootImage

/-- An identifier, as its bytes on a medium. -/
structure Guid where
  /-- The bytes in the order they are stored. -/
  bytes : Bytes
  /-- There are sixteen of them. -/
  length_bytes : bytes.length = 16
  deriving DecidableEq

namespace Guid

/-- The identifier stored in the first sixteen bytes of a string, missing ones counting as zero. -/
def ofBytes (bs : Bytes) : Guid := ⟨fit 16 bs, length_fit 16 bs⟩

/-- The identifier of all zeros, which marks an unused partition entry. -/
def zero : Guid := ofBytes []

/-- The ASCII hyphen. -/
def hyphen : UInt8 := 45

/-- The 36 ASCII characters of an identifier, in lower case. -/
def text (g : Guid) : Bytes :=
  Hexadecimal.ofBytes (g.bytes.take 4).reverse ++ hyphen ::
  (Hexadecimal.ofBytes ((g.bytes.drop 4).take 2).reverse ++ hyphen ::
  (Hexadecimal.ofBytes ((g.bytes.drop 6).take 2).reverse ++ hyphen ::
  (Hexadecimal.ofBytes ((g.bytes.drop 8).take 2) ++ hyphen ::
  Hexadecimal.ofBytes (g.bytes.drop 10))))

/-- The text after a hyphen. -/
def dropHyphen? : Bytes → Option Bytes
  | [] => none
  | c :: s => if c = hyphen then some s else none

/-- The identifier written by a text of exactly 36 characters, its digits in either case. -/
def ofText? (s : Bytes) : Option Guid := do
  let (a, s) ← Hexadecimal.takeBytes? 4 s
  let (b, s) ← Hexadecimal.takeBytes? 2 (← dropHyphen? s)
  let (c, s) ← Hexadecimal.takeBytes? 2 (← dropHyphen? s)
  let (d, s) ← Hexadecimal.takeBytes? 2 (← dropHyphen? s)
  let (e, s) ← Hexadecimal.takeBytes? 6 (← dropHyphen? s)
  if s = [] then some (ofBytes (a.reverse ++ b.reverse ++ c.reverse ++ d ++ e)) else none

end Guid

end BootImage
