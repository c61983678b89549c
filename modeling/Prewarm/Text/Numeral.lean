/-!
# Whole numbers in texts

A count in an environment variable or a version is a run of ASCII digits, perhaps after one plus
sign, whose value fits the machine word it is meant for.
-/

namespace Prewarm.Text

/-- The value of a run of digits, the most significant first. -/
def digitsValue (ds : List Char) : Nat := ds.foldl (fun n c => 10 * n + (c.toNat - '0'.toNat)) 0

/-- The number below `bound` that a text writes: at least one ASCII digit, after at most one plus
sign, and nothing else. -/
def readBelow (bound : Nat) (s : String) : Option Nat :=
  let ds := match s.toList with
    | '+' :: ds => ds
    | ds => ds
  if ds ≠ [] ∧ ds.all Char.isDigit ∧ digitsValue ds < bound then some (digitsValue ds) else none

/-- The number of 64 bits that a text writes. -/
def readWord (s : String) : Option Nat := readBelow (Nat.pow 2 64) s

end Prewarm.Text
