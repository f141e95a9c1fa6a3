import Lineup.Engine
import Lineup.Linear.Search
/-!
# Exact — programs solved without rounding

The coefficients of a program are doubles, and so rational numbers: an engine that leaves the solving to a backend hands
the program over as it stands, variable for variable and row for row, and reads the backend's reply back in the same
order.  `exact` solves the rational problem without rounding, and rounds only the point that it found.  A program with a
coefficient that is not finite stands for no problem.
-/
namespace Lineup

open Linear (Constraint Outcome Problem Solver)

def Row.toConstraint? (row : Row) : Option Constraint := do
  return ⟨← row.coefficients.mapM Number.toRat?, row.sense, ← Number.toRat? row.rhs⟩

def Program.toProblem? (p : Program) : Option Problem := do
  return ⟨p.ids.length, ← p.objective.mapM Number.toRat?, ← p.rows.mapM Row.toConstraint?⟩

namespace Engine

inductive Reply where
  | solved (values : List Float)
  | infeasible
  | unbounded
  | failed (reason : String)
  deriving DecidableEq

/-- A backend that solves linear problems, and answers in doubles. -/
abbrev Backend := Mode → Problem → Reply

def Reply.answer : Reply → Answer
  | .solved values => .optimal values
  | .infeasible => .failed .infeasible none
  | .unbounded => .failed .unbounded none
  | .failed reason => .failed .notSolved (some reason)

/-- What a solver says of a problem, with its point rounded. -/
def Reply.ofOutcome : Outcome → Reply
  | .optimal point => .solved (point.map Number.ofRat)
  | .infeasible => .infeasible
  | .undecided => .failed "the search for an optimum was cut short"

/-- The engine that leaves the solving to a backend. -/
def ofBackend (backend : Backend) : Engine := fun p =>
  match p.toProblem? with
  | some problem => (backend p.mode problem).answer
  -- A choice of this library: problems are rational, so what is not finite never gets to the backend.
  | none => .failed .notSolved (some "a coefficient of the program is not finite")

def backendOf (solver : Solver) : Backend := fun mode problem => .ofOutcome (solver mode problem)

/-- The engine that is used unless another is asked for. -/
def exact : Engine := ofBackend (backendOf Linear.solve)

end Engine

end Lineup
