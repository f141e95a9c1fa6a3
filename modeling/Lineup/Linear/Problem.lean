import Lineup.Bound
import Lineup.Mode
/-!
# Problem — linear problems over the rationals

A problem asks for the point of the largest value among those that meet its rows and whose coordinates are 0 or 1, or
lie between 0 and 1 in fractional mode.  Everything is exact here, so the words *feasible* and *optimal* need no
tolerance.

`Problem.bound` is the one idea behind the solver: rows added up with multipliers of the right signs bound the value of
every feasible point from above, whatever the multipliers are (`Problem.dot_le_bound`).
-/
namespace Lineup.Linear

/-- The sum of the products of coefficients and coordinates; the shorter list ends it. -/
def dot : List Rat → List Rat → Rat
  | a :: as, x :: xs => a * x + dot as xs
  | _, _ => 0

structure Constraint where
  coefficients : List Rat
  sense : Sense
  threshold : Rat
  deriving DecidableEq, Repr

def Constraint.holds (c : Constraint) (x : List Rat) : Bool :=
  match c.sense with
  | .atMost => dot c.coefficients x ≤ c.threshold
  | .atLeast => c.threshold ≤ dot c.coefficients x
  | .equal => dot c.coefficients x = c.threshold

structure Problem where
  size : Nat
  objective : List Rat
  rows : List Constraint
  deriving DecidableEq, Repr

namespace Problem

def value (p : Problem) (x : List Rat) : Rat := dot p.objective x

def allowed : Mode → Rat → Bool
  | .binary, v => v = 0 || v = 1
  | .fractional, v => 0 ≤ v && v ≤ 1

def feasible (mode : Mode) (p : Problem) (x : List Rat) : Bool :=
  x.length = p.size && x.all (allowed mode) && p.rows.all (·.holds x)

/-- The multiplier if it has the sign that the sense of its row asks for, and 0 otherwise. -/
def signed (sense : Sense) (y : Rat) : Rat :=
  match sense with
  | .atMost => if 0 ≤ y then y else 0
  | .atLeast => if y ≤ 0 then y else 0
  | .equal => y

/-- Each row with its multiplier, rows without one being left out. -/
def weighted (p : Problem) (multipliers : List Rat) : List (Constraint × Rat) :=
  p.rows.zipWith (fun row y => (row, signed row.sense y)) multipliers

def thresholdSum (p : Problem) (multipliers : List Rat) : Rat :=
  (p.weighted multipliers).foldl (fun total (row, y) => total + y * row.threshold) 0

/-- The coefficients that remain of `objective` when the rows are taken off it with their multipliers. -/
def reduced (p : Problem) (objective multipliers : List Rat) : List Rat :=
  (p.weighted multipliers).foldl (fun rest (row, y) => rest.zipWith (fun c a => c - y * a) row.coefficients) objective

def positiveSum (xs : List Rat) : Rat := xs.foldr (fun x total => (if 0 ≤ x then x else 0) + total) 0

/-- A bound from above on `dot objective x` for every feasible point `x`. -/
def bound (p : Problem) (objective multipliers : List Rat) : Rat :=
  p.thresholdSum multipliers + positiveSum (p.reduced objective multipliers)

def nothing (p : Problem) : List Rat := List.replicate p.size 0

end Problem

inductive Outcome where
  | optimal (point : List Rat)
  | infeasible
  | undecided
  deriving DecidableEq, Repr

def Outcome.Exact (mode : Mode) (p : Problem) : Outcome → Prop
  | .optimal x => p.feasible mode x = true ∧ ∀ y, p.feasible mode y = true → p.value y ≤ p.value x
  | .infeasible => ∀ y, p.feasible mode y = false
  | .undecided => False

abbrev Solver := Mode → Problem → Outcome

end Lineup.Linear
