import Lineup.Settings
import Lineup.Text.Alphanumeric
/-!
# File — variables set in a file

A file of settings holds statements `name=value`, one a line unless quotes keep a value open.  A `#` at the start of a
statement or after a blank begins a remark.  Inside a value single quotes keep everything, double quotes keep blanks, a
backslash keeps the next character, and `$name` or `$` with a name in braces stands for the text of a variable.  A file
never changes a variable that is set already, and what comes after a malformed statement is not read.
-/
namespace Lineup.Settings.File

/-! ## Statements -/

/-- Where reading stands between two characters of a statement. -/
inductive Quoting where
  | plain
  | blank
  | escape
  | strong
  | strongEscape
  | weak
  | weakEscape
  deriving DecidableEq, Repr

def Quoting.start (c : Char) : Quoting :=
  if c = '\\' then .escape else if c = '"' then .weak else if c = '\'' then .strong else .plain

def Quoting.next (c : Char) : Quoting → Quoting
  | .plain => if Text.isBlank c ∧ c ≠ '\n' ∧ c ≠ '\r' then .blank else .start c
  | .blank => .start c
  | .escape => .plain
  | .strong => if c = '\\' then .strongEscape else if c = '\'' then .plain else .strong
  | .strongEscape => .strong
  | .weak => if c = '\\' then .weakEscape else if c = '"' then .plain else .weak
  | .weakEscape => .weak

def lines : List Char → List (List Char)
  | [] => []
  | c :: cs =>
    if c = '\n' then [c] :: lines cs
    else match lines cs with
      | [] => [[c]]
      | line :: rest => (c :: line) :: rest

def beforeRemark : Quoting → List Char → List Char × Quoting
  | q, [] => ([], q)
  | q, c :: cs =>
    if q = .blank ∧ c = '#' then ([], .plain)
    else
      let (kept, last) := beforeRemark (q.next c) cs
      (c :: kept, last)

def isRemark (line : List Char) : Bool := (Text.trimStart line).head? = some '#'

/-- The statements of the lines, `begun` being what earlier lines hold of the first.  A statement that never ends is
`none`. -/
def statements (begun : List Char) (q : Quoting) : List (List Char) → List (Option (List Char))
  | [] => if q = .plain then [] else [none]
  | line :: rest =>
    if begun = [] ∧ isRemark line then statements [] .plain rest
    else
      let (kept, last) := beforeRemark q line
      if last = .plain then some (begun ++ kept) :: statements [] .plain rest
      else statements (begun ++ kept) last rest

/-! ## Values -/

/-- Where reading stands inside a value; `weak` tells whether double quotes are open. -/
inductive Phase where
  | bare (weak : Bool)
  | strong
  | escaped (weak : Bool)
  | named (weak : Bool) (name : List Char)
  | braced (weak : Bool) (name : List Char)
  | over

def textOf (env : Environment) (name : List Char) : List Char := ((env (String.ofList name)).getD "").toList

def escaped? (c : Char) : Option Char :=
  if c ∈ ['\\', '\'', '"', '$', ' '] then some c else if c = 'n' then some '\n' else none

/-- Reads on in a value.  A name after `$` ends with the first character that is not alphanumeric, and that character is
kept as it is. -/
def readValue? (env : Environment) : Phase → List Char → Option (List Char)
  | .bare weak, [] | .escaped weak, [] => if weak then none else some []
  | .named weak name, [] => if weak then none else some (textOf env name)
  | .over, [] => some []
  | .strong, [] | .braced .., [] => none
  | .over, c :: cs =>
    if c = ' ' ∨ c = '\t' then readValue? env .over cs else if c = '#' then some [] else none
  | .escaped weak, c :: cs =>
    match escaped? c with
    | some e => (readValue? env (.bare weak) cs).map (e :: ·)
    | none => none
  | .strong, c :: cs =>
    if c = '\'' then readValue? env (.bare false) cs else (readValue? env .strong cs).map (c :: ·)
  | .named weak name, c :: cs =>
    if Text.isAlphanumeric c then readValue? env (.named weak (name ++ [c])) cs
    else if c = '{' ∧ name = [] then readValue? env (.braced weak []) cs
    else if c = '$' then (readValue? env (.named weak []) cs).map (textOf env name ++ ·)
    else (readValue? env (.bare weak) cs).map (textOf env name ++ c :: ·)
  | .braced weak name, c :: cs =>
    if c = '}' then (readValue? env (.bare weak) cs).map (textOf env name ++ ·)
    else readValue? env (.braced weak (name ++ [c])) cs
  | .bare weak, c :: cs =>
    if c = '$' then readValue? env (.named weak []) cs
    else if c = '\\' then readValue? env (.escaped weak) cs
    else if c = '"' then readValue? env (.bare !weak) cs
    else if !weak ∧ c = '\'' then readValue? env .strong cs
    else if !weak ∧ (c = ' ' ∨ c = '\t') then readValue? env .over cs
    else (readValue? env (.bare weak) cs).map (c :: ·)

/-! ## Loading -/

/-- The name at the front and what follows it.  A name starts with a letter or an underscore and goes on with letters,
digits, underscores and points. -/
def readName? (cs : List Char) : Option (List Char × List Char) :=
  match cs with
  | [] => none
  | c :: _ =>
    if c.isAlpha ∨ c = '_' then
      let inName (c : Char) : Bool := c.isAlphanum || c = '_' || c = '.'
      some (cs.takeWhile inName, cs.dropWhile inName)
    else none

def afterEquals? (cs : List Char) : Option (List Char) :=
  match Text.trimStart cs with
  | '=' :: rest => some rest
  | _ => none

/-- The name that a statement sets and what follows the equals sign.  The word `export` may stand before the name; it
can be a name too. -/
def readAssignment? (cs : List Char) : Option (List Char × List Char) := do
  let (name, rest) ← readName? cs
  match afterEquals? rest with
  | some value => return (name, value)
  | none =>
    if name = "export".toList then
      let (exported, rest) ← readName? (Text.trimStart rest)
      return (exported, ← afterEquals? rest)
    else none

inductive Effect where
  | nothing
  | sets (name value : String)
  | malformed
  deriving DecidableEq, Repr

def isVoid (cs : List Char) : Bool := cs = [] || cs.head? = some '#'

def effect (env : Environment) (statement : List Char) : Effect :=
  let cs := Text.trim statement
  if isVoid cs then .nothing
  else match readAssignment? cs with
    | none => .malformed
    | some (name, rest) =>
      let written := Text.trimStart rest
      match if isVoid written then some [] else readValue? env (.bare false) written with
      | none => .malformed
      | some value => .sets (String.ofList name) (String.ofList value)

/-- The environment with a variable set, unless it is set already. -/
def fill (env : Environment) (name value : String) : Environment := fun other =>
  if other = name then some ((env name).getD value) else env other

/-- Carries out statements up to the first malformed one. -/
def run (env : Environment) : List (Option (List Char)) → Environment
  | [] | none :: _ => env
  | some statement :: rest =>
    match effect env statement with
    | .nothing => run env rest
    | .sets name value => run (fill env name value) rest
    | .malformed => env

def dropMark : List Char → List Char
  | '\ufeff' :: cs => cs
  | cs => cs

def load (text : String) (env : Environment) : Environment :=
  run env (statements [] .plain (lines (dropMark text.toList)))

theorem fill_of_eq_some {env : Environment} {name value : String} (h : env name = some value) (other text : String) :
    fill env other text name = some value := by
  unfold fill
  split
  next he => subst he; simp [h]
  next => exact h

/-- What is set already stays. -/
theorem run_of_eq_some {name value : String} : ∀ (statements : List (Option (List Char))) {env : Environment},
    env name = some value → run env statements name = some value
  | [], _, h => h
  | none :: _, _, h => h
  | some statement :: rest, env, h => by
    show (match effect env statement with
      | .nothing => run env rest
      | .sets other text => run (fill env other text) rest
      | .malformed => env) name = some value
    cases effect env statement with
    | nothing => exact run_of_eq_some rest h
    | sets other text => exact run_of_eq_some rest (fill_of_eq_some h other text)
    | malformed => exact h

end Lineup.Settings.File
