import Lineup.Catalog
import Lineup.Expression
import Lineup.Number.Layout
/-!
# Bound — limits on the sum of a metric over a team

A bound holds the sum of a metric over the chosen candidates against a threshold: at most, at least, or equal.  Bounds
are written `metric<=value`, `metric>=value` and `metric=value`, with commas between; `==` is read like `=`.
-/
namespace Lineup

inductive Sense where
  | atMost
  | atLeast
  | equal
  deriving DecidableEq, Repr

namespace Sense

def symbol : Sense → String
  | .atMost => "<="
  | .atLeast => ">="
  | .equal => "="

def shortName : Sense → String
  | .atMost => "max"
  | .atLeast => "min"
  | .equal => "eq"

def label : Sense → String
  | .atMost => "at_most"
  | .atLeast => "at_least"
  | .equal => "equal"

def holds (sense : Sense) (lhs rhs tolerance : Float) : Bool :=
  match sense with
  | .atMost => lhs ≤ rhs + tolerance
  | .atLeast => rhs - tolerance ≤ lhs
  | .equal => (lhs - rhs).abs ≤ tolerance

/-- The spellings of the senses, in the order in which they are looked for: `<=`, `>=` and `==` before the `=` that is
their end. -/
def spellings : List (List Char × Sense) :=
  [(['<', '='], .atMost), (['>', '='], .atLeast), (['=', '='], .equal), (['='], .equal)]

end Sense

structure Bound where
  metric : String
  sense : Sense
  threshold : Float
  deriving DecidableEq

namespace Bound

def text (b : Bound) : String := b.metric ++ b.sense.symbol ++ Number.plain.text b.threshold

/-- The two sides of an item and the sense between them: at the first place of the first spelling that occurs. -/
def cut? (item : List Char) : Option (List Char × Sense × List Char) :=
  Sense.spellings.findSome? fun (token, sense) =>
    (Text.cut? token item).map fun (left, right) => (left, sense, right)

def read (catalog : Catalog) (item : List Char) : Except ExpressionError Bound :=
  match cut? item with
  | none => .error (.noComparator (String.ofList item))
  | some (left, sense, right) =>
    let metric := String.ofList (Text.trim left)
    if metric = "" then .error (.malformedItem (String.ofList item))
    else match Number.readFinite? right with
      | none => .error (.nonNumericValue (String.ofList item))
      | some threshold =>
        if !catalog.contains metric then .error (.unknownMetric metric) else .ok ⟨metric, sense, threshold⟩

def readAll (catalog : Catalog) (text : String) : Except ExpressionError (List Bound) :=
  match items (.noBounds text) text with
  | .error e => .error e
  | .ok found => found.mapM (read catalog)

end Bound

end Lineup
