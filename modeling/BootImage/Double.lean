/-!
# Whole numbers in double precision

A double holds 53 binary digits, so whole numbers from 2^53 on are held by their nearest double
(`Double.nearest`). From `Double.limit` on there is no nearest double of finite size.
-/

namespace BootImage.Double

/-- The distance between the doubles around a whole number that are whole numbers themselves. -/
def spacing (n : Nat) : Nat := Nat.pow 2 (n.log2 - 52)

/-- The double that is nearest to a whole number. Of two that are equally near it is the one whose
last binary digit is 0. -/
def nearest (n : Nat) : Nat :=
  let below := n / spacing n
  let excess := n % spacing n
  if 2 * excess < spacing n ∨ (2 * excess = spacing n ∧ below % 2 = 0) then below * spacing n
  else (below + 1) * spacing n

-- Both of these are half way between two doubles.
example : nearest 9007199254740993 = 9007199254740992 ∧
    nearest 9007199254740995 = 9007199254740996 := by decide +kernel

/-- The middle between the largest double and the next that there would be, 2^1024. -/
def limit : Nat := Nat.pow 2 1024 - Nat.pow 2 970

/-- Whether a whole number is so large that its nearest double is infinite. -/
def overflows (n : Nat) : Bool := limit ≤ n

end BootImage.Double
