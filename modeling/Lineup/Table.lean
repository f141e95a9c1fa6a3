import Lineup.Csv.Document
import Lineup.Number.Numeral
import Lineup.Text.Case
/-!
# Table — a data set as named columns and records of cells

A table is what becomes of a document: the names of its columns cleaned, its cells marked as present or missing, and a
kind found for each column.  A cell is missing when it is empty or one of the usual markers.  A column is numeric when
it has a present cell and every present cell is a finite number; all other columns hold text.
-/
namespace Lineup

inductive Kind where
  | numeric
  | text
  deriving DecidableEq, Repr

structure Column where
  name : String
  kind : Kind
  deriving DecidableEq, Repr

/-- Named columns, and for each record one cell under every column; a missing cell is `none`. -/
structure Table where
  columns : List Column
  records : List (List (Option String))
  deriving DecidableEq, Repr

namespace Table

def missingMarkers : List String := ["na", "n/a", "nan", "null"]

def cell (text : String) : Option String :=
  let present := Text.trimmed text
  if present = "" ∨ missingMarkers.any (Text.sameName present) then none else some present

/-- The name of a column: the header's text without byte-order marks, and trimmed. -/
def columnName (text : String) : String :=
  Text.trimmed (String.ofList (text.toList.filter (· ≠ '\ufeff')))

def kindOf (cells : List (Option String)) : Kind :=
  let present := cells.filterMap id
  if present ≠ [] ∧ present.all fun text => (Number.finite? text).isSome then .numeric else .text

def cellsAt (records : List (List (Option String))) (index : Nat) : List (Option String) :=
  records.map fun cells => cells[index]?.join

def ofDocument (d : Csv.Document) : Table :=
  let records := d.rows.map (·.map cell)
  { columns := d.header.zipIdx.map fun (text, index) => ⟨columnName text, kindOf (cellsAt records index)⟩
    records }

def load (bytes : List UInt8) : Except Csv.Error Table := (Csv.read bytes).map ofDocument

def loadText (text : String) : Except Csv.Error Table := load (Text.Utf8.encode text)

end Table

inductive SourceError where
  | unavailable (reason : String)
  | malformed (error : Csv.Error)
  deriving DecidableEq, Repr

def SourceError.message : SourceError → String
  | .unavailable reason => s!"failed to read dataset: {reason}"
  | .malformed error => s!"invalid dataset CSV: {error.message}"

end Lineup
