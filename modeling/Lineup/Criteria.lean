import Lineup.Catalog
import Lineup.Expression
/-!
# Criteria — what a team is chosen for

A criterion weights a metric, and an objective is a list of criteria in the order in which they were given.  Criteria
are written `metric=weight`, with commas between; a weight may be negative, and no metric is weighted twice.
-/
namespace Lineup

structure Criterion where
  metric : String
  weight : Float
  deriving DecidableEq

structure Objective where
  criteria : List Criterion
  deriving DecidableEq

namespace Objective

def metrics (o : Objective) : List String := o.criteria.map Criterion.metric

/-- The weight of a metric, if it has one; the first counts. -/
def weight? (o : Objective) (metric : String) : Option Float :=
  (o.criteria.find? (·.metric = metric)).map Criterion.weight

end Objective

namespace Criterion

/-- Reads one item; `seen` are the metrics of the items before it. -/
def read (catalog : Catalog) (seen : List String) (item : List Char) : Except ExpressionError Criterion :=
  match Text.cut? ['='] item with
  | none => .error (.malformedItem (String.ofList item))
  | some (left, right) =>
    let metric := String.ofList (Text.trim left)
    if right.contains '=' || metric = "" then .error (.malformedItem (String.ofList item))
    else match Number.readFinite? right with
      | none => .error (.nonNumericValue (String.ofList item))
      | some weight =>
        if !catalog.contains metric then .error (.unknownMetric metric)
        else if seen.contains metric then .error (.repeatedMetric metric)
        else .ok ⟨metric, weight⟩

def readAll (catalog : Catalog) : (seen : List String) → List (List Char) → Except ExpressionError (List Criterion)
  | _, [] => .ok []
  | seen, item :: items =>
    match read catalog seen item with
    | .error e => .error e
    | .ok c => (readAll catalog (c.metric :: seen) items).map (c :: ·)

end Criterion

def Objective.read (catalog : Catalog) (text : String) : Except ExpressionError Objective :=
  match items (.noCriteria text) text with
  | .error e => .error e
  | .ok found => (Criterion.readAll catalog [] found).map Objective.mk

end Lineup
