import Lineup.Mode
import Lineup.Screening
/-!
# Program — the choice of a team as a linear program

A program has one variable for each candidate: 1 when the candidate is in the team and 0 when not, or anything between
in fractional mode.  It asks for the largest value of its objective among the points that meet all its rows.  There is a
row for each bound, in order, and for a fixed roster a last one that says how many candidates the team has.
-/
namespace Lineup

structure Row where
  label : String
  coefficients : List Float
  sense : Sense
  rhs : Float
  deriving DecidableEq

/-- A linear program over the ids of candidates, to be maximized. -/
structure Program where
  mode : Mode
  roster : Roster
  /-- The candidate behind each variable. -/
  ids : List Nat
  objective : List Float
  rows : List Row
  deriving DecidableEq

inductive ProgramError where
  | tooFewCandidates (size eligible : Nat)
  | emptyTeam
  | noCandidates
  | missingValue (id : Nat) (metric : String)
  deriving DecidableEq, Repr

def ProgramError.message : ProgramError → String
  | .tooFewCandidates size eligible => s!"team size {size} exceeds the {eligible} eligible candidates"
  | .emptyTeam => "team size must be at least 1"
  | .noCandidates => "no eligible candidates remain to select from"
  | .missingValue id metric => s!"candidate #{id} has no value for metric '{metric}'"

/-- The sum of the products of coefficients and values, from left to right; the shorter list ends it. -/
def dot (coefficients values : List Float) : Float :=
  (coefficients.zip values).foldl (fun total (a, x) => total + a * x) 0.0

namespace Row

def activity (row : Row) (values : List Float) : Float := dot row.coefficients values

def holds (row : Row) (values : List Float) (tolerance : Float) : Bool :=
  row.sense.holds (row.activity values) row.rhs tolerance

def teamSizeLabel : String := "team_size"

def teamSize (size count : Nat) : Row := ⟨teamSizeLabel, List.replicate count 1.0, .equal, Float.ofNat size⟩

end Row

def Candidate.required (c : Candidate) (metric : String) : Except ProgramError Float :=
  match c.metric? metric with
  | some value => .ok value
  | none => .error (.missingValue c.id metric)

def Candidate.coefficient (c : Candidate) (objective : Objective) : Except ProgramError Float :=
  objective.criteria.foldlM
    (fun total criterion => return total + criterion.weight * (← c.required criterion.metric)) 0.0

/-- The row of a bound; its label ends in the place of the bound in the list. -/
def Bound.row (b : Bound) (ordinal : Nat) (candidates : List Candidate) : Except ProgramError Row := do
  let coefficients ← candidates.mapM fun c => c.required b.metric
  return ⟨s!"{b.metric}_{b.sense.shortName}_{ordinal}", coefficients, b.sense, b.threshold⟩

namespace Program

def objectiveValue (p : Program) (values : List Float) : Float := dot p.objective values

def checkSize (roster : Roster) (eligible : Nat) : Except ProgramError Unit :=
  match roster with
  | .fixed 0 => .error .emptyTeam
  | .fixed size => if eligible < size then .error (.tooFewCandidates size eligible) else .ok ()
  | .unbounded => if eligible = 0 then .error .noCandidates else .ok ()

def ofCandidates (candidates : List Candidate) (objective : Objective) (bounds : List Bound) (roster : Roster)
    (mode : Mode) : Except ProgramError Program := do
  checkSize roster candidates.length
  let coefficients ← candidates.mapM fun c => c.coefficient objective
  let rows ← bounds.zipIdx.mapM fun (b, ordinal) => b.row ordinal candidates
  let sizeRow := match roster with
    | .fixed size => [Row.teamSize size candidates.length]
    | .unbounded => []
  return ⟨mode, roster, candidates.map Candidate.id, coefficients, rows ++ sizeRow⟩

end Program

end Lineup
