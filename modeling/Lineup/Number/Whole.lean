/-!
# Whole — whole numbers of a limited size

Team sizes and network addresses' numbers are digits, one at least, after an optional plus sign; leading zeros are
allowed.  A number at or above the limit is refused.
-/
namespace Lineup.Number

def dropPlus : List Char → List Char
  | '+' :: cs => cs
  | cs => cs

/-- The whole number that the text denotes, when it is below `limit`. -/
def readWhole? (limit : Nat) (cs : List Char) : Option Nat :=
  let ds := dropPlus cs
  if ds ≠ [] ∧ ds.all Char.isDigit ∧ Nat.ofDigitChars 10 ds 0 < limit then some (Nat.ofDigitChars 10 ds 0) else none

def sizeLimit : Nat := 0x10000000000000000

def portLimit : Nat := 0x10000

end Lineup.Number
