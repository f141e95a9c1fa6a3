/-!
# Hexadecimal — digits in base sixteen

Letters count in either case when digits are read; they are small when digits are written.
-/
namespace Lineup.Number

def hexValue? (c : Char) : Option Nat :=
  if '0' ≤ c ∧ c ≤ '9' then some (c.toNat - '0'.toNat)
  else if 'a' ≤ c ∧ c ≤ 'f' then some (c.toNat - 'a'.toNat + 10)
  else if 'A' ≤ c ∧ c ≤ 'F' then some (c.toNat - 'A'.toNat + 10)
  else none

/-- The number with these digits; no digits make 0. -/
def readHex? (cs : List Char) : Option Nat :=
  (cs.mapM hexValue?).map fun digits => digits.foldl (fun value digit => value * 16 + digit) 0

def hexText (n : Nat) : String := String.ofList (Nat.toDigits 16 n)

end Lineup.Number
