import Lineup.CommandLine.Arguments
import Lineup.Engine.Exact
import Lineup.Fault
import Lineup.Report.Json
import Lineup.Report.Text
import Lineup.Settings.File
import Lineup.Settings.LogFilter
/-!
# CommandLine — what a command does

A command first loads the settings, from the environment and then from a file of settings; options come before settings.
Then it looks at the filter of the log, then at the data set, and only then at what is asked of the data set.  The first
fault ends the run.
-/
namespace Lineup.CommandLine

/-- What a command finds outside the program. -/
structure Surroundings where
  environment : Environment
  settingsFile : Option String
  bytesAt : String → Except SourceError (List UInt8)

def Surroundings.settled (s : Surroundings) : Environment :=
  match s.settingsFile with
  | some text => Settings.File.load text s.environment
  | none => s.environment

/-- The variable whose filter, if it is one, comes before the filter of the settings. -/
def filterVariable : String := "RUST_LOG"

/-- The settings, once it is known that the log can be filtered as they say. -/
def checkLog (env : Environment) (settings : Settings) : Except Fault Settings :=
  if (env filterVariable).any Settings.LogFilter.isFilter || Settings.LogFilter.isFilter settings.logLevel then
    .ok settings
  else .error (.logFilter settings.logLevel)

def ServeOptions.apply (o : ServeOptions) (settings : Settings) : Settings :=
  { settings with host := o.host.getD settings.host, port := o.port.getD settings.port }

def SelectOptions.setup (o : SelectOptions) (setup : Setup) : Setup :=
  setup.override (Roster.ofRequest o.size o.unbounded) o.mode

/-- What the options ask of a data set; roster and mode are in the setup. -/
def SelectOptions.request (o : SelectOptions) : Request := ⟨o.criteria, o.bounds, none, none⟩

def SelectOptions.select {σ : Type} (o : SelectOptions) (engine : StatefulEngine σ) (state : σ) (setup : Setup)
    (bytes : List UInt8) : Except SelectionError Report × σ :=
  match Table.load bytes with
  | .error e => (.error (.source (.malformed e)), state)
  | .ok table => selectFrom engine state (o.setup setup) table o.request

inductive Result where
  | printed (text : String)
  | listening (endpoint : Endpoint) (setup : Setup)
  deriving DecidableEq, Repr

def start (s : Surroundings) (options : ServeOptions) : Except Fault Settings := do
  let settings ← (Settings.load s.settled).mapError .settings
  checkLog s.settled (options.apply settings)

def printed (json : Bool) (report : Report) : String := if json then report.jsonText ++ "\n" else report.text

def Command.run (s : Surroundings) : Command → Except Fault Result
  | .serve options => do
    let settings ← start s options
    let endpoint ← settings.endpoint.mapError .settings
    return .listening endpoint settings.setup
  | .select options => do
    let settings ← start s {}
    let bytes ← (s.bytesAt options.data).mapError (.selection ∘ .source)
    let report ← (options.select (.ofEngine Engine.exact) () settings.setup bytes).1.mapError .selection
    return .printed (printed options.json report)
  | .metrics data => do
    let _ ← start s {}
    let bytes ← (s.bytesAt data).mapError (.selection ∘ .source)
    let table ← (Table.load bytes).mapError (.selection ∘ .source ∘ .malformed)
    let catalog ← table.catalog.mapError .selection
    return .printed (catalog.text table.records.length)

/-! ## Endings -/

/-- How a run of the program ends, unless a service goes on running. -/
structure Ending where
  status : Nat
  output : String
  complaint : Option String
  deriving DecidableEq, Repr

def programName : String := "team-select"

def release : String := "0.1.0"

def usage : String :=
  "Usage: team-select [COMMAND]\n\n" ++
  "  serve    [--host HOST] [--port PORT]\n" ++
  "  select   --data FILE --criteria LIST [--constraints LIST] " ++
  "[--team-size N | --unbounded] [--mode MODE] [--json]\n" ++
  "  metrics  --data FILE\n" ++
  "  help     [COMMAND]\n"

def Stop.ending : Stop → Ending
  | .help => ⟨0, usage, none⟩
  | .version => ⟨0, s!"{programName} {release}\n", none⟩
  | .misuse => ⟨2, "", none⟩

def complaint (fault : Fault) : String := s!"{programName} error: {fault.message}"

inductive Conclusion where
  | ended (ending : Ending)
  | serving (endpoint : Endpoint) (setup : Setup)
  deriving DecidableEq, Repr

def run (s : Surroundings) (arguments : List String) : Conclusion :=
  match read arguments with
  | .error stop => .ended stop.ending
  | .ok command =>
    match command.run s with
    | .error fault => .ended ⟨1, "", some (complaint fault)⟩
    | .ok (.printed text) => .ended ⟨0, text, none⟩
    | .ok (.listening endpoint setup) => .serving endpoint setup

end Lineup.CommandLine
