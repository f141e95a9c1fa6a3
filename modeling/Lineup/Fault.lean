import Lineup.Settings
/-!
# Fault — why a run of the program ends without its result

Settings come first, then the filter of the log, then the selection itself.  A fault in what a user asks for is told
apart from a fault in the data set and from a fault in how the program is set up.
-/
namespace Lineup

inductive Fault where
  | settings (error : SettingsError)
  | logFilter (text : String)
  | system (reason : String)
  | selection (error : SelectionError)
  deriving DecidableEq, Repr

namespace Fault

def message : Fault → String
  | .settings error => s!"configuration error: {error.message}"
  | .logFilter text => s!"telemetry error: invalid log level/filter '{text}': unable to build EnvFilter"
  | .system reason => s!"io error: {reason}"
  | .selection error => s!"selection failed: {error.message}"

def status : Fault → Nat
  | .selection (.source _) => 400
  | .selection _ => 422
  | .settings _ | .logFilter _ | .system _ => 500

end Fault

end Lineup
