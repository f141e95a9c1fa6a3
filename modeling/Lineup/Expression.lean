import Lineup.Text.Blank
import Lineup.Text.Split
/-!
# Expression — lists of items that a user writes

Criteria and bounds are both written as items with commas between.  A text is read as a whole: either every item is
accepted, or the first fault is reported together with the words that show it.
-/
namespace Lineup

inductive ExpressionError where
  | malformedItem (token : String)
  | nonNumericValue (item : String)
  | unknownMetric (metric : String)
  | repeatedMetric (metric : String)
  | noComparator (item : String)
  | noCriteria (text : String)
  | noBounds (text : String)
  deriving DecidableEq, Repr

namespace ExpressionError

def token : ExpressionError → String
  | .malformedItem t | .nonNumericValue t | .unknownMetric t | .repeatedMetric t | .noComparator t | .noCriteria t
  | .noBounds t => t

def label : ExpressionError → String
  | .malformedItem _ => "malformed_item"
  | .nonNumericValue _ => "non_numeric_value"
  | .unknownMetric _ => "unknown_metric"
  | .repeatedMetric _ => "duplicate_metric"
  | .noComparator _ => "no_comparator"
  | .noCriteria _ => "empty_criteria"
  | .noBounds _ => "empty_constraints"

def reason : ExpressionError → String
  | .malformedItem _ => "expected exactly one 'metric=value' pair"
  | .nonNumericValue _ => "value is not a finite number"
  | .unknownMetric _ => "metric is not in the dataset catalog"
  | .repeatedMetric _ => "metric is weighted more than once"
  | .noComparator _ => "no comparator found (use <=, >= or =)"
  | .noCriteria _ => "at least one criterion is required"
  | .noBounds _ => "constraint list is empty"

def message (e : ExpressionError) : String := s!"{e.reason}: '{e.token}'"

end ExpressionError

/-- The trimmed items of a text, none of them blank.  A blank text is the error `onBlank`; a blank item makes the whole
text malformed, whatever else is wrong with it. -/
def items (onBlank : ExpressionError) (text : String) : Except ExpressionError (List (List Char)) :=
  if Text.allBlank text then .error onBlank
  else
    let trimmedItems := (text.toList.splitOn ',').map Text.trim
    if trimmedItems.any List.isEmpty then .error (.malformedItem (Text.trimmed text)) else .ok trimmedItems

end Lineup
