import Lineup.Number.Exact
/-!
# Shortest — the fewest digits that read back

Among the decimal numbers that are nearer to a double than to any other double, `shortest` finds those with the fewest
digits and of these the one nearest to the double.  Everything is compared in whole numbers, so nothing is lost on the
way: a double `m · 2 ^ q` is held against the grid of the multiples of `10 ^ p`, for one digit more at a time.
-/
namespace Lineup.Number

inductive Tie where
  | toEven
  | up
  deriving DecidableEq, Repr

/-- The decimal number `digits · 10 ^ exponent`. -/
structure Scaled where
  digits : Nat
  exponent : Int
  deriving DecidableEq, Repr

def tenPow (k : Int) : Nat × Nat := (Nat.pow 10 k.toNat, Nat.pow 10 (-k).toNat)

def twoPow (k : Int) : Nat × Nat := (Nat.pow 2 k.toNat, Nat.pow 2 (-k).toNat)

/-- `2 ^ q` in units of `10 ^ p`, as a pair of a numerator and a denominator. -/
def unit (q p : Int) : Nat × Nat :=
  ((twoPow q).1 * (tenPow p).2, (twoPow q).2 * (tenPow p).1)

/-- The exponent `e` with `10 ^ e ≤ m · 2 ^ q < 10 ^ (e + 1)`, for `m` above zero: the estimate from the binary
exponent is right or one too small. -/
def magnitude (m : Nat) (q : Int) : Int :=
  let e := ((m.log2 : Int) + q) * 30103 / 100000
  let (a, b) := unit q e
  if 10 * b ≤ m * a then e + 1 else e

/-- Of the two neighbours of `m · 2 ^ q` among the multiples of `10 ^ p`, the one that reads back as `m · 2 ^ q`, or the
nearer if both do. -/
def neighbour? (tie : Tie) (m : Nat) (q p : Int) : Option Scaled :=
  let (a, b) := unit q p
  let below := m * a / b
  -- the least positive normal significand has a nearer neighbour below than above
  let step := if m = 0x10000000000000 ∧ -1074 < q then 1 else 2
  let even := m % 2 = 0
  let lowOk := below * b = m * a ∨ (4 * m - step) * a < 4 * below * b ∨ (even ∧ (4 * m - step) * a = 4 * below * b)
  let highOk := 4 * (below + 1) * b < (4 * m + 2) * a ∨ (even ∧ 4 * (below + 1) * b = (4 * m + 2) * a)
  let toLow := m * a - below * b
  let toHigh := (below + 1) * b - m * a
  let high := toHigh < toLow ∨ (toHigh = toLow ∧ (tie = .up ∨ below % 2 = 1))
  if lowOk ∧ ¬ (highOk ∧ high) then some ⟨below, p⟩
  else if highOk then some ⟨below + 1, p⟩
  else none

def dropZeros : (fuel : Nat) → Scaled → Scaled
  | 0, s => s
  | fuel + 1, s => if s.digits ≠ 0 ∧ s.digits % 10 = 0 then dropZeros fuel ⟨s.digits / 10, s.exponent + 1⟩ else s

/-- The shortest decimal number that reads back as `m · 2 ^ q`, for `m` above zero.  Seventeen digits are enough for
every double. -/
def shortest (tie : Tie) (m : Nat) (q : Int) : Scaled :=
  let e := magnitude m q
  match (List.range 17).findSome? fun (k : Nat) => neighbour? tie m q (e - (k : Int)) with
  | some s => dropZeros 17 s
  | none => ⟨m * (unit q (e - 16)).1 / (unit q (e - 16)).2, e - 16⟩

/-- `n / d` rounded to the nearest whole number, a half to the even one. -/
def roundDiv (n d : Nat) : Nat :=
  let below := n / d
  let rest := 2 * (n % d)
  if d < rest ∨ (rest = d ∧ below % 2 = 1) then below + 1 else below

def roundAt (places : Nat) (m : Nat) (q : Int) : Nat :=
  let (a, b) := unit q (-(places : Int))
  roundDiv (m * a) b

end Lineup.Number
