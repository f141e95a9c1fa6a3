import Lineup.Number.Whole
import Lineup.Selection
import Lineup.Text.Split
/-!
# Arguments — what a command line asks for

The first argument names a command, and without arguments the service is started.  A command takes options, each at most
once: a switch stands alone, and any other option has a value, after an equals sign or as the next argument, which then
must not look like an option itself.  Arguments are read from front to back; a fault ends the reading, and so does the
wish for help.  Only then is it asked whether an option is missing or two of them exclude each other.
-/
namespace Lineup.CommandLine

structure ServeOptions where
  host : Option String := none
  port : Option UInt16 := none
  deriving DecidableEq, Repr

structure SelectOptions where
  data : String
  criteria : String
  bounds : Option String
  size : Option Nat
  unbounded : Bool
  mode : Option Mode
  json : Bool
  deriving DecidableEq, Repr

inductive Command where
  | serve (options : ServeOptions)
  | select (options : SelectOptions)
  | metrics (data : String)
  deriving DecidableEq, Repr

inductive Stop where
  | help
  | version
  | misuse
  deriving DecidableEq, Repr

/-! ## Options -/

inductive OptionKind (δ : Type) where
  | switch (set : δ → δ)
  | valued (set? : String → δ → Option δ)

/-- An option: its name, whether a draft has it, and what it does to a draft. -/
structure Definition (δ : Type) where
  name : String
  isPresent : δ → Bool
  kind : OptionKind δ

/-- The name of an option, and its value if it stands after an equals sign. -/
def splitOption (cs : List Char) : String × Option String :=
  match Text.cut? ['='] cs with
  | some (name, value) => (String.ofList name, some (String.ofList value))
  | none => (String.ofList cs, none)

/-- The argument looks like an option; a dash alone does not. -/
def isOptionLike (argument : String) : Bool :=
  match argument.toList with
  | '-' :: _ :: _ => true
  | _ => false

/-- Reads the options of a command into a draft.  After two dashes alone there are no options, and nothing else is taken
either. -/
def readOptions {δ : Type} (definitions : List (Definition δ)) (draft : δ) : List String → Except Stop δ
  | [] => .ok draft
  | argument :: rest =>
    match argument.toList with
    | ['-', '-'] => if rest = [] then .ok draft else .error .misuse
    | '-' :: '-' :: cs =>
      let (name, attached) := splitOption cs
      match definitions.find? (·.name = name), attached with
      | none, attached => .error (if name = "help" ∧ attached = none then .help else .misuse)
      | some definition, attached =>
        if definition.isPresent draft then .error .misuse
        else match definition.kind, attached with
          | .switch set, none => readOptions definitions (set draft) rest
          | .switch _, some _ => .error .misuse
          | .valued set?, some value =>
            match set? value draft with
            | some draft => readOptions definitions draft rest
            | none => .error .misuse
          | .valued set?, none =>
            match rest with
            | value :: rest =>
              if isOptionLike value then .error .misuse
              else match set? value draft with
                | some draft => readOptions definitions draft rest
                | none => .error .misuse
            | [] => .error .misuse
    | '-' :: 'h' :: _ => .error .help
    | _ => .error .misuse

def valued {δ α : Type} (name : String) (get : δ → Option α) (set : δ → α → δ) (read? : String → Option α) :
    Definition δ :=
  ⟨name, fun d => (get d).isSome, .valued fun text d => (read? text).map (set d)⟩

def switch {δ : Type} (name : String) (get : δ → Bool) (set : δ → δ) : Definition δ := ⟨name, get, .switch set⟩

/-! ## Commands -/

def readPath? (text : String) : Option String := if text = "" then none else some text

def readSize? (text : String) : Option Nat := Number.readWhole? Number.sizeLimit text.toList

/-- A port may have either sign, as long as it is no number below 0. -/
def readPort? (text : String) : Option UInt16 :=
  match text.toList with
  | '-' :: cs => if cs.head? = some '+' then none else (Number.readWhole? 1 cs).map UInt16.ofNat
  | cs => (Number.readWhole? Number.portLimit cs).map UInt16.ofNat

def serveDefinitions : List (Definition ServeOptions) :=
  [valued "host" (·.host) (fun d a => { d with host := some a }) some,
    valued "port" (·.port) (fun d a => { d with port := some a }) readPort?]

structure SelectDraft where
  data : Option String := none
  criteria : Option String := none
  bounds : Option String := none
  size : Option Nat := none
  unbounded : Bool := false
  mode : Option Mode := none
  json : Bool := false

def selectDefinitions : List (Definition SelectDraft) :=
  [valued "data" (·.data) (fun d a => { d with data := some a }) readPath?,
    valued "criteria" (·.criteria) (fun d a => { d with criteria := some a }) some,
    valued "constraints" (·.bounds) (fun d a => { d with bounds := some a }) some,
    valued "team-size" (·.size) (fun d a => { d with size := some a }) readSize?,
    switch "unbounded" (·.unbounded) (fun d => { d with unbounded := true }),
    valued "mode" (·.mode) (fun d a => { d with mode := some a }) Mode.read?,
    switch "json" (·.json) (fun d => { d with json := true })]

def metricsDefinitions : List (Definition (Option String)) := [valued "data" id (fun _ a => some a) readPath?]

def required {α : Type} : Option α → Except Stop α
  | some a => .ok a
  | none => .error .misuse

/-- The options of a selection, if none is missing and not both a size and no fixed size are asked for. -/
def SelectDraft.finish (d : SelectDraft) : Except Stop SelectOptions := do
  if d.size.isSome && d.unbounded then throw .misuse
  return ⟨← required d.data, ← required d.criteria, d.bounds, d.size, d.unbounded, d.mode, d.json⟩

def topics : List String := ["serve", "select", "metrics", "help"]

def read : List String → Except Stop Command
  | [] | ["--"] => .ok (.serve {})
  | "serve" :: rest => (readOptions serveDefinitions {} rest).map .serve
  | "select" :: rest => do return .select (← (← readOptions selectDefinitions {} rest).finish)
  | "metrics" :: rest => do return .metrics (← required (← readOptions metricsDefinitions none rest))
  | "help" :: rest => .error (if rest = [] ∨ topics.any (rest = [·]) then .help else .misuse)
  | "--help" :: _ => .error .help
  | "--version" :: _ => .error .version
  | argument :: _ =>
    match argument.toList with
    | '-' :: 'h' :: _ => .error .help
    | '-' :: 'V' :: _ => .error .version
    | _ => .error .misuse

end Lineup.CommandLine
