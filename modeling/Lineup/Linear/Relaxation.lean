import Lineup.Linear.Dictionary
/-!
# Relaxation — the relaxed problem with a proof of the answer

A proposal counts only when it proves itself.  A feasible point whose value some multipliers give as a bound is optimal;
multipliers that bound zero by a negative number show that no point is feasible.
-/
namespace Lineup.Linear

inductive Verdict where
  /-- The point is optimal; the bound of the multipliers is its value. -/
  | optimal (x multipliers : List Rat)
  | infeasible
  | unknown
  deriving DecidableEq, Repr

namespace Problem

/-- The point is feasible and the multipliers leave no room above it. -/
def certifies (p : Problem) (x multipliers : List Rat) : Bool :=
  p.feasible .fractional x && p.bound p.objective multipliers = p.value x

def refutes (p : Problem) (multipliers : List Rat) : Bool := p.bound p.nothing multipliers < 0

def relax (p : Problem) : Verdict :=
  match p.propose with
  | .point x multipliers => if p.certifies x multipliers then .optimal x multipliers else .unknown
  | .contradiction multipliers => if p.refutes multipliers then .infeasible else .unknown
  | .none => .unknown

end Problem

end Lineup.Linear
