import Lineup.CommandLine
/-!
# Main — the program

Gathers what a command finds outside the program, lets it run, and writes what it comes to.
-/
namespace Lineup.Main

/-- Names of variables that a file of settings may mention: its runs of characters that can stand in a name, whole and
without the characters that only a name before an equals sign can have. -/
def mentioned (text : String) : List String :=
  let runs (inName : Char → Bool) : List String :=
    (text.toList.splitBy fun a b => inName a == inName b).map String.ofList
  runs (fun c => Text.isAlphanumeric c || c = '_' || c = '.') ++ runs Text.isAlphanumeric ++
    runs (fun c => c ≠ '{' && c ≠ '}')

def settingVariables : List String :=
  ["APP_ENV", "APP_HOST", "APP_PORT", "APP_LOG_LEVEL", "TEAM_SIZE", "SELECTION_MODE", CommandLine.filterVariable]

def environment (names : List String) : IO Environment := do
  let pairs ← names.filterMapM fun name => return (← IO.getEnv name).map (name, ·)
  return fun name => pairs.lookup name

def textOf? (path : String) : IO (Option String) := do
  match ← (IO.FS.readFile path).toBaseIO with
  | .ok text => return some text
  | .error _ => return none

def reason : IO.Error → String
  | .noFileOrDirectory _ code details => s!"{details} (os error {code})"
  | .permissionDenied _ code details => s!"{details} (os error {code})"
  | .inappropriateType _ code details => s!"{details} (os error {code})"
  | error => toString error

def bytesOf (path : String) : IO (Except SourceError (List UInt8)) := do
  match ← (IO.FS.Handle.mk path .read).toBaseIO with
  | .error error => return .error (.unavailable (reason error))
  | .ok handle =>
    match ← handle.readBinToEnd.toBaseIO with
    | .error error => return .error (.malformed (.unreadable (reason error)))
    | .ok bytes => return .ok bytes.data.toList

def dataPath? (arguments : List String) : Option String :=
  match CommandLine.read arguments with
  | .ok (.select options) => some options.data
  | .ok (.metrics data) => some data
  | _ => none

end Lineup.Main

open Lineup in
def main (arguments : List String) : IO UInt32 := do
  let settingsFile ← Main.textOf? ".env"
  let names := Main.settingVariables ++ Main.mentioned (settingsFile.getD "")
  let bytes ← match Main.dataPath? arguments with
    | some path => Main.bytesOf path
    | none => pure (.ok [])
  match CommandLine.run ⟨← Main.environment names, settingsFile, fun _ => bytes⟩ arguments with
  | .ended ending =>
    IO.print ending.output
    if ending.status = 2 then IO.eprint CommandLine.usage
    if let some complaint := ending.complaint then IO.eprintln complaint
    return ending.status.toUInt32
  | .serving endpoint _ =>
    IO.eprintln (CommandLine.complaint (.system s!"no listener for {endpoint.text}"))
    return 1
