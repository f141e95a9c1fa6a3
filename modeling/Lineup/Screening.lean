import Lineup.Bound
import Lineup.Candidate
import Lineup.Criteria
import Std.Data.TreeSet
/-!
# Screening — setting aside the candidates that cannot be compared

A candidate takes part when it has a name and a value for every metric that the objective or a bound names.  All others
are set aside, each with the list of what it lacks.  Both sides keep the order of the candidates.
-/
namespace Lineup

namespace Candidate

/-- The sum of the candidate's metrics, each times its weight, in the order of the criteria; a metric without a value
adds nothing. -/
def score (c : Candidate) (objective : Objective) : Float :=
  objective.criteria.foldl (fun total criterion => total + criterion.weight * (c.metric? criterion.metric).getD 0.0) 0.0

/-- What the candidate lacks: its name first, then those of the metrics that have no value. -/
def lacks (c : Candidate) (referenced : List String) : List String :=
  (if Text.allBlank c.name then [nameColumn] else []) ++ referenced.filter fun metric => (c.metric? metric).isNone

end Candidate

def referencedMetrics (objective : Objective) (bounds : List Bound) : List String :=
  (Std.TreeSet.ofList (objective.metrics ++ bounds.map Bound.metric)).toList

structure Exclusion where
  id : Nat
  name : String
  missing : List String
  deriving DecidableEq, Repr

structure Screening where
  eligible : List Candidate
  excluded : List Exclusion

def screen (candidates : List Candidate) (objective : Objective) (bounds : List Bound) : Screening :=
  let referenced := referencedMetrics objective bounds
  { eligible := candidates.filter fun c => (c.lacks referenced).isEmpty
    excluded := candidates.filterMap fun c =>
      if (c.lacks referenced).isEmpty then none else some ⟨c.id, c.name, c.lacks referenced⟩ }

end Lineup
