import Lineup.Report
import Lineup.Text.Pad
/-!
# Text — a report for people

A heading, a line for each candidate of the team, four lines of totals less the heading, and a table of the checks if
there are any.  Names share a column as wide as the longest of them, and no text is ever cut.
-/
namespace Lineup

open Text (padLeft padRight)

def amount (x : Float) : String := Number.fixed 3 x

def Roster.describe : Roster → String
  | .fixed size => s!"team of {size}"
  | .unbounded => "unbounded roster"

namespace Report

/-- The width of the column of names, four characters at least. -/
def nameWidth (team : List Ranked) : Nat := (team.map fun r => r.name.length).foldl max 4

/-- The line of the candidate at a place, counted from 0. -/
def candidateLine (mode : Mode) (width place : Nat) (r : Ranked) : String :=
  padLeft 3 (place + 1).repr ++ ". " ++ padRight width r.name ++ "  " ++ padLeft 10 (amount r.score) ++
    match mode with
    | .binary => ""
    | .fractional => s!"  (value {amount r.value})"

def checkLine (c : Check) : String :=
  "  " ++ padRight 20 c.label ++ " " ++ padLeft 10 (amount c.achieved) ++ " " ++ c.sense.symbol ++ " " ++
    padRight 10 (amount c.threshold) ++ " " ++ (if c.satisfied then "ok" else "VIOLATED")

def lines (r : Report) : List String :=
  s!"Selected team ({r.mode.label}, {r.roster.describe})" ::
    (r.team.zipIdx.map fun (x, place) => candidateLine r.mode (nameWidth r.team) place x) ++
    [s!"Team score: {amount r.teamScore}", s!"Objective value: {amount r.objectiveValue}",
      s!"Eligible rows: {r.eligible} ({r.excluded.length} excluded for missing values)"] ++
    (if r.checks = [] then [] else "Constraint checks:" :: r.checks.map checkLine)

def text (r : Report) : String := String.join (r.lines.map (· ++ "\n"))

end Report

end Lineup
