import Lineup.Text.Blank
/-!
# Numeral — reading decimal numbers

A numeral is an optional sign, decimal digits with an optional point among, before or after them, and an optional
exponent: `5`, `+5.`, `-.5`, `1.5e-3`.  Its value is the nearest double, a half going to the even neighbour.  A number
that a user writes must also be finite, so a numeral that is too large is refused, as are words such as `inf`.
-/
namespace Lineup.Number

/-- The decimal number `± significand · 10 ^ exponent`. -/
structure Numeral where
  negative : Bool
  significand : Nat
  exponent : Int
  deriving DecidableEq, Repr

/-- The double nearest to the numeral; it keeps its sign when that is a zero. -/
def Numeral.toFloat (n : Numeral) : Float :=
  let size := Float.ofScientific n.significand (n.exponent < 0) n.exponent.natAbs
  if n.negative then -size else size

def takeSign : List Char → Bool × List Char
  | '-' :: cs => (true, cs)
  | '+' :: cs => (false, cs)
  | cs => (false, cs)

def digitsValue (ds : List Char) : Nat := Nat.ofDigitChars 10 ds 0

def readExponent? : List Char → Option Int
  | [] => some 0
  | c :: cs =>
    if c = 'e' ∨ c = 'E' then
      let (negative, ds) := takeSign cs
      if ds.isEmpty || !ds.all Char.isDigit then none
      else some (if negative then -(digitsValue ds : Int) else digitsValue ds)
    else none

def takeDigits (cs : List Char) : List Char × List Char × List Char :=
  let whole := cs.takeWhile Char.isDigit
  match cs.dropWhile Char.isDigit with
  | '.' :: rest => (whole, rest.takeWhile Char.isDigit, rest.dropWhile Char.isDigit)
  | rest => (whole, [], rest)

def Numeral.read? (cs : List Char) : Option Numeral :=
  let (negative, unsigned) := takeSign cs
  let (whole, fraction, rest) := takeDigits unsigned
  if whole.isEmpty && fraction.isEmpty then none
  else (readExponent? rest).map fun exponent =>
    ⟨negative, digitsValue (whole ++ fraction), exponent - fraction.length⟩

/-- The finite double that a text denotes, blank characters around it set aside. -/
def readFinite? (cs : List Char) : Option Float :=
  ((Numeral.read? (Text.trim cs)).map Numeral.toFloat).filter Float.isFinite

def finite? (s : String) : Option Float := readFinite? s.toList

theorem isFinite_of_readFinite? {cs : List Char} {x : Float} (h : readFinite? cs = some x) : x.isFinite = true :=
  (Option.filter_eq_some_iff.1 h).2

end Lineup.Number
