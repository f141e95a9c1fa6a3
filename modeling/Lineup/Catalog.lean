import Lineup.Table
/-!
# Catalog — the metrics of a table

The catalog lists the columns that criteria and bounds may name: the numeric ones, in the order of the table, except the
columns that identify or describe a candidate.  There is a catalog only for a table whose columns have different names,
one of which holds the candidates' names, and that has a metric at all.
-/
namespace Lineup

inductive SchemaError where
  | missingName
  | noMetrics
  | repeatedColumn (name : String)
  deriving DecidableEq, Repr

def nameColumn : String := "name"

/-- The columns that are never metrics, whatever they hold. -/
def descriptiveColumns : List String := ["id", nameColumn, "dob", "nationality"]

def SchemaError.message : SchemaError → String
  | .missingName => s!"dataset has no '{nameColumn}' column to display candidates by"
  | .noMetrics => "dataset has no numeric metric columns"
  | .repeatedColumn name => s!"dataset repeats the column '{name}'"

structure Catalog where
  metrics : List String
  deriving DecidableEq, Repr

namespace Column

def holdsNames (c : Column) : Bool := Text.sameName c.name nameColumn

def isMetric (c : Column) : Bool :=
  c.kind = .numeric && !descriptiveColumns.any (Text.sameName c.name)

end Column

namespace Catalog

def contains (catalog : Catalog) (metric : String) : Bool := catalog.metrics.any (· == metric)

/-- The first name that repeats an earlier one, those in `seen` included, up to case. -/
def firstRepeat? : (seen : List String) → List String → Option String
  | _, [] => none
  | seen, name :: names =>
    if seen.any (Text.sameName name) then some name else firstRepeat? (name :: seen) names

def ofColumns (columns : List Column) : Except SchemaError Catalog :=
  match firstRepeat? [] (columns.map Column.name) with
  | some name => .error (.repeatedColumn name)
  | none =>
    if !columns.any Column.holdsNames then .error .missingName
    else
      let metrics := (columns.filter Column.isMetric).map Column.name
      if metrics = [] then .error .noMetrics else .ok ⟨metrics⟩

def text (catalog : Catalog) (rows : Nat) : String :=
  s!"{catalog.metrics.length} metrics across {rows} rows\n" ++
    String.join (catalog.metrics.map fun metric => s!"  - {metric}\n")

end Catalog

end Lineup
