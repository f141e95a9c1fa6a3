import Lineup.Report
/-!
# Selection — from a table and a request to a report

A selection goes through its stages in order and stops at the first that fails: the catalog of the table, the criteria,
the bounds, the screening of the candidates, the program, its solution, the ranking and the report.  All that comes
before the engine is `prepare`, all that comes after it `finish`; so the engine is asked once, and only for a program
that exists.
-/
namespace Lineup

/-- The roster and mode of a selection whose request does not name others. -/
structure Setup where
  roster : Roster
  mode : Mode
  deriving DecidableEq, Repr

namespace Setup

def defaultTeamSize : Nat := 11

def standard : Setup := ⟨.fixed defaultTeamSize, .binary⟩

def override (setup : Setup) (roster : Option Roster) (mode : Option Mode) : Setup :=
  ⟨roster.getD setup.roster, mode.getD setup.mode⟩

end Setup

structure Request where
  criteria : String
  bounds : Option String
  roster : Option Roster
  mode : Option Mode
  deriving DecidableEq, Repr

inductive SelectionError where
  | source (error : SourceError)
  | schema (error : SchemaError)
  | expression (error : ExpressionError)
  | program (error : ProgramError)
  | solve (failure : SolveFailure)
  deriving DecidableEq, Repr

def SelectionError.message : SelectionError → String
  | .source error => error.message
  | .schema error => s!"schema error: {error.message}"
  | .expression error => s!"parse error: {error.message}"
  | .program error => s!"model error: {error.message}"
  | .solve failure => s!"no optimal selection: {failure.message}"

/-- The bounds of a request; a blank text is none. -/
def Request.readBounds (request : Request) (catalog : Catalog) : Except ExpressionError (List Bound) :=
  match request.bounds with
  | some text => if Text.allBlank text then .ok [] else Bound.readAll catalog text
  | none => .ok []

structure Prepared where
  setup : Setup
  objective : Objective
  screening : Screening
  program : Program

def Table.catalog (table : Table) : Except SelectionError Catalog :=
  (Catalog.ofColumns table.columns).mapError .schema

def prepare (setup : Setup) (table : Table) (request : Request) : Except SelectionError Prepared := do
  let setup := setup.override request.roster request.mode
  let catalog ← table.catalog
  let objective ← (Objective.read catalog request.criteria).mapError .expression
  let bounds ← (request.readBounds catalog).mapError .expression
  let candidates ← (table.candidates catalog).mapError .schema
  let screening := screen candidates objective bounds
  let program ← (Program.ofCandidates screening.eligible objective bounds setup.roster setup.mode).mapError .program
  return ⟨setup, objective, screening, program⟩

def Prepared.finish (p : Prepared) (answer : Answer) : Except SelectionError Report := do
  let assignment ← (p.program.assignment answer).mapError .solve
  let team := rank p.screening.eligible assignment p.objective p.setup.mode p.setup.roster
  return Report.assemble p.program assignment team p.screening.excluded

def select (engine : Engine) (setup : Setup) (table : Table) (request : Request) : Except SelectionError Report := do
  let prepared ← prepare setup table request
  prepared.finish (engine prepared.program)

/-- Selects a team with an engine that keeps a state, and gives the state after it.  A selection that comes to no
program leaves the state alone. -/
def selectFrom {σ : Type} (engine : StatefulEngine σ) (state : σ) (setup : Setup) (table : Table) (request : Request) :
    Except SelectionError Report × σ :=
  match prepare setup table request with
  | .error e => (.error e, state)
  | .ok prepared =>
    let (answer, next) := engine.run state prepared.program
    (prepared.finish answer, next)

end Lineup
