import Lineup.Number.Whole
import Lineup.Text.Alphanumeric
import Lineup.Text.Blank
import Lineup.Text.Case
import Lineup.Text.Split
/-!
# LogFilter — which texts say what is logged

A filter is a list of directives with commas between.  A directive is a level, or a target that may be followed by a
span in brackets and by an equals sign with a level; the span may name fields in braces.  Only the form of a filter
matters here: a text of another form is refused before anything else is done.
-/
namespace Lineup.Settings.LogFilter

def levelNames : List String := ["off", "error", "warn", "info", "debug", "trace"]

def levelLimit : Nat := 6

def isLevel (cs : List Char) : Bool :=
  levelNames.any (Text.sameName (String.ofList cs)) || (Number.readWhole? levelLimit cs).isSome

inductive Place where
  | target
  | span
  /-- Inside a field, and whether a character of it has been read. -/
  | field (begun : Bool)
  | afterFields
  | afterSpan

/-- Reads on in a directive; `ends` decides whether what follows an equals sign can stand there. -/
def accepts (ends : List Char → Bool) : Place → List Char → Bool
  | .target, [] | .afterSpan, [] => true
  | _, [] => false
  | .target, c :: cs =>
    if c = '=' then ends cs else if c = '[' then accepts ends .span cs else accepts ends .target cs
  | .span, c :: cs =>
    if c = ']' then accepts ends .afterSpan cs
    else if c = '{' then accepts ends (.field false) cs
    else accepts ends .span cs
  | .field begun, c :: cs => if c = '}' then begun && accepts ends .afterFields cs else accepts ends (.field true) cs
  | .afterFields, c :: cs => c = ']' && accepts ends .afterSpan cs
  | .afterSpan, c :: cs => c = '=' && ends cs

/-- Blanks around a directive are dropped, unless a level follows an equals sign: then there must be none. -/
def isDirective (written : List Char) : Bool :=
  let directive := Text.trim written
  let ends (level : List Char) : Bool := directive = written && (level = [] || isLevel level)
  match directive with
  | [] => false
  | '[' :: cs => accepts ends .span cs
  | c :: cs => (c = '-' || c = ':' || c = '_' || Text.isAlphanumeric c) && accepts ends .target (c :: cs)

/-- The text is a filter; the empty text is one, and empty directives are passed over. -/
def isFilter (text : String) : Bool :=
  ((text.toList.splitOn ',').filter (· ≠ [])).all isDirective

end Lineup.Settings.LogFilter
