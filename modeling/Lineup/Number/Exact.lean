/-!
# Exact — doubles as the rational numbers they are

A finite double is a whole number of some power of two, so it has an exact value among the rationals; `toRat?` gives it.
`ofRat` goes the other way and rounds to the nearest double, a half to the even neighbour.  `key` orders all doubles,
the two zeros and the infinities included.
-/
namespace Lineup.Number

open Float.Model (UnpackedFloat)
open Float.Model.UnpackedFloat (Sign)

/-- A finite double as `± significand · 2 ^ exponent`. -/
structure Parts where
  negative : Bool
  significand : Nat
  exponent : Int
  deriving DecidableEq, Repr

def isNegative : Sign → Bool
  | .negative => true
  | .positive => false

def parts? (x : Float) : Option Parts :=
  match x.toModel.unpack with
  | .zero sign => some ⟨isNegative sign, 0, 0⟩
  | .finite sign significand exponent _ => some ⟨isNegative sign, significand, exponent⟩
  | .infinity _ => none
  | .notANumber => none

def Parts.toRat (p : Parts) : Rat :=
  let size : Rat :=
    if 0 ≤ p.exponent then ((p.significand * Nat.pow 2 p.exponent.toNat : Nat) : Rat)
    else (p.significand : Rat) / (Nat.pow 2 (-p.exponent).toNat : Rat)
  if p.negative then -size else size

def toRat? (x : Float) : Option Rat := (parts? x).map Parts.toRat

/-- The double nearest to `n / d`, for `n` and `d` above zero. -/
def ofQuotient (n d : Nat) : Float :=
  if hn : 0 < n then
    if hd : 0 < d then
      .ofModel (.pack (UnpackedFloat.div Float.Model.Format.binary64
        (.finite .positive n 0 hn) (.finite .positive d 0 hd)))
    else 0.0
  else 0.0

def ofRat (q : Rat) : Float :=
  if q.num < 0 then -ofQuotient q.num.natAbs q.den else ofQuotient q.num.natAbs q.den

/-- The place of a double in the total order of all doubles: by value, `-0.0` before `0.0`.  The NaN that arithmetic
gives carries a minus sign and stands before `-∞`. -/
def key (x : Float) : Int :=
  if x.isNaN then -0x10000000000000000
  else
    let bits := x.toBits.toNat
    if bits < 0x8000000000000000 then bits else 0x7FFFFFFFFFFFFFFF - bits

def order (x y : Float) : Ordering := compare (key x) (key y)

end Lineup.Number
