import Lineup.Json.Value
import Lineup.Report
/-!
# Json — a report for programs

The members of every record stand in a fixed order, so equal reports have equal texts.
-/
namespace Lineup

open Json (Value)

def Roster.toJson : Roster → Value
  | .fixed size => .record [("kind", .text "fixed"), ("size", .whole size)]
  | .unbounded => .record [("kind", .text "unbounded")]

def Ranked.toJson (r : Ranked) : Value :=
  .record [("row_id", .whole r.id), ("name", .text r.name), ("score", .real r.score),
    ("selection_value", .real r.value)]

def Exclusion.toJson (e : Exclusion) : Value :=
  .record [("row_id", .whole e.id), ("name", .text e.name), ("missing", .list (e.missing.map .text))]

def Check.toJson (c : Check) : Value :=
  .record [("label", .text c.label), ("comparator", .text c.sense.label), ("threshold", .real c.threshold),
    ("achieved", .real c.achieved), ("satisfied", .bool c.satisfied)]

namespace Report

def toJson (r : Report) : Value :=
  .record [("mode", .text r.mode.label), ("roster", r.roster.toJson), ("team", .list (r.team.map Ranked.toJson)),
    ("team_score", .real r.teamScore), ("objective_value", .real r.objectiveValue),
    ("eligible_rows", .whole r.eligible),
    ("excluded_rows", .whole r.excluded.length), ("excluded", .list (r.excluded.map Exclusion.toJson)),
    ("constraint_checks", .list (r.checks.map Check.toJson))]

def jsonText (r : Report) : String := r.toJson.pretty

end Report

end Lineup
