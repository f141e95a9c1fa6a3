import Lineup.Catalog
import Std.Data.TreeMap
/-!
# Candidate — the records of a table as candidates for a team

A candidate has the number of its record as its id, so that ids keep their meaning when candidates are set aside.  Cells
under the metrics of the catalog become numbers, all other cells stay text, and a missing cell appears nowhere.
-/
namespace Lineup

structure Candidate where
  /-- The place of the candidate's record in the table, from 0. -/
  id : Nat
  name : String
  metrics : Std.TreeMap String Float
  attributes : Std.TreeMap String String

namespace Candidate

def metric? (c : Candidate) (metric : String) : Option Float := c.metrics[metric]?

def reading? (catalog : Catalog) : Column × Option String → Option (String × Float)
  | (column, some text) =>
    if catalog.contains column.name then (Number.finite? text).map (column.name, ·) else none
  | (_, none) => none

def attribute? (catalog : Catalog) : Column × Option String → Option (String × String)
  | (column, some text) => if catalog.contains column.name then none else some (column.name, text)
  | (_, none) => none

/-- The candidate of a record whose name stands under the column at `nameIndex`; a missing name is empty. -/
def ofRecord (catalog : Catalog) (columns : List Column) (nameIndex id : Nat) (cells : List (Option String)) :
    Candidate :=
  let fields := (columns.zip cells).eraseIdx nameIndex
  { id
    name := cells[nameIndex]?.join.getD ""
    metrics := .ofList (fields.filterMap (reading? catalog))
    attributes := .ofList (fields.filterMap (attribute? catalog)) }

end Candidate

def Table.candidates (table : Table) (catalog : Catalog) : Except SchemaError (List Candidate) :=
  match table.columns.findIdx? Column.holdsNames with
  | none => .error .missingName
  | some nameIndex =>
    .ok (table.records.zipIdx.map fun (cells, id) => Candidate.ofRecord catalog table.columns nameIndex id cells)

end Lineup
