import Lineup.Ranking
/-!
# Report — what a selection comes to

A report lists the team and what was set aside, and evaluates every row of the program once more, for the team alone.
In fractional mode the team is made of whole candidates where the program chose shares, so a row may turn out broken.
-/
namespace Lineup

structure Check where
  label : String
  sense : Sense
  threshold : Float
  achieved : Float
  satisfied : Bool
  deriving DecidableEq

structure Report where
  mode : Mode
  roster : Roster
  team : List Ranked
  teamScore : Float
  /-- The value of the objective at the point that was solved for. -/
  objectiveValue : Float
  eligible : Nat
  excluded : List Exclusion
  checks : List Check
  deriving DecidableEq

/-- The point of a program that chooses the given candidates and no others. -/
def Program.indicator (p : Program) (ids : List Nat) : List Float :=
  let set := Std.TreeSet.ofList ids
  p.ids.map fun id => if set.contains id then 1.0 else 0.0

def Row.check (row : Row) (values : List Float) : Check :=
  ⟨row.label, row.sense, row.rhs, row.activity values, row.holds values selectionTolerance⟩

namespace Report

def assemble (p : Program) (a : Assignment) (team : List Ranked) (excluded : List Exclusion) : Report :=
  let values := p.indicator (team.map Ranked.id)
  { mode := p.mode
    roster := p.roster
    team
    teamScore := team.foldl (fun total r => total + r.score) 0.0
    objectiveValue := a.objectiveValue
    eligible := p.ids.length
    excluded
    checks := p.rows.map fun row => row.check values }

def pairs (r : Report) : List (String × Float) := r.team.map fun x => (x.name, x.score)

def violations (r : Report) : List Check := r.checks.filter fun c => !c.satisfied

end Report

end Lineup
