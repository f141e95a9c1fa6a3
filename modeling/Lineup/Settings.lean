import Lineup.Address
import Lineup.Number.Whole
import Lineup.Selection
/-!
# Settings — what the environment says

Every setting has its own variable and a value for when the variable is not set.  Three of the variables can hold a text
that makes no sense; they are read in a fixed order and the first fault is reported.  Whether the host can be listened
on is not asked before a service starts.
-/
namespace Lineup

abbrev Environment := String → Option String

inductive Stage where
  | development
  | test
  | production
  deriving DecidableEq, Repr

/-- The stage of a text; whatever names no other stage is development. -/
def Stage.ofText (text : String) : Stage :=
  match Text.lower (Text.trimmed text) with
  | "prod" | "production" => .production
  | "test" | "ci" => .test
  | _ => .development

structure Settings where
  stage : Stage
  host : String
  port : UInt16
  logLevel : String
  setup : Setup
  deriving DecidableEq, Repr

inductive SettingsError where
  | port
  | host
  | teamSize (text : String)
  | mode (text : String)
  deriving DecidableEq, Repr

def SettingsError.message : SettingsError → String
  | .port => "APP_PORT must be a valid u16"
  | .host => "APP_HOST must parse to an IPv4 or IPv6 address"
  | .teamSize text => s!"TEAM_SIZE must be a non-negative integer or 'unbounded' (got '{text}')"
  | .mode text => s!"SELECTION_MODE must be 'binary' or 'fractional' (got '{text}')"

def readPort? (text : String) : Option UInt16 :=
  (Number.readWhole? Number.portLimit text.toList).map UInt16.ofNat

def unboundedWords : List String := ["none", "unbounded"]

/-- The roster of a text with blanks around it: a word for no fixed size, or a size. -/
def Roster.read? (text : String) : Option Roster :=
  let word := Text.trimmed text
  if unboundedWords.any (Text.sameName word) then some .unbounded
  else (Number.readWhole? Number.sizeLimit word.toList).map .fixed

namespace Settings

def valueOf {α : Type} (env : Environment) (name : String) (standard : α) (read? : String → Option α)
    (fault : String → SettingsError) : Except SettingsError α :=
  match env name with
  | none => .ok standard
  | some text =>
    match read? text with
    | some value => .ok value
    | none => .error (fault text)

def load (env : Environment) : Except SettingsError Settings := do
  let port ← valueOf env "APP_PORT" 3000 readPort? fun _ => .port
  let roster ← valueOf env "TEAM_SIZE" Setup.standard.roster Roster.read? .teamSize
  let mode ← valueOf env "SELECTION_MODE" Setup.standard.mode Mode.read? .mode
  return {
    stage := Stage.ofText ((env "APP_ENV").getD "development")
    host := (env "APP_HOST").getD "127.0.0.1"
    port
    logLevel := (env "APP_LOG_LEVEL").getD "info"
    setup := ⟨roster, mode⟩ }

def endpoint (s : Settings) : Except SettingsError Endpoint :=
  match Host.named? s.host with
  | some host => .ok ⟨host, s.port⟩
  | none => .error .host

end Settings

end Lineup
