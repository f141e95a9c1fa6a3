import Lineup.Number.Layout
/-!
# Value — JSON values and their two texts

Reports and answers leave the program as JSON.  `pretty` sets every member and element on a line of its own, two blanks
deeper than what encloses it; `compact` puts all on one line.  A number that is not finite is written as `null`, and of
the characters in a text only quotes, backslashes and control characters below U+0020 are escaped.
-/
namespace Lineup.Json

inductive Value where
  | null
  | bool (b : Bool)
  | whole (n : Nat)
  | real (x : Float)
  | text (s : String)
  | list (elements : List Value)
  | record (members : List (String × Value))

def hexDigit (n : Nat) : Char := (Nat.toDigits 16 n).headD '0'

def escape (c : Char) : List Char :=
  if c = '"' then ['\\', '"']
  else if c = '\\' then ['\\', '\\']
  else if c = '\n' then ['\\', 'n']
  else if c = '\r' then ['\\', 'r']
  else if c = '\t' then ['\\', 't']
  else if c = '\x08' then ['\\', 'b']
  else if c = '\x0c' then ['\\', 'f']
  else if c.toNat < 0x20 then ['\\', 'u', '0', '0', hexDigit (c.toNat / 16), hexDigit (c.toNat % 16)]
  else [c]

def quoted (s : String) : String := String.ofList ('"' :: s.toList.flatMap escape ++ ['"'])

def number (x : Float) : String := if x.isFinite then Number.exchange.text x else "null"

namespace Value

mutual

def compact : Value → String
  | .null => "null"
  | .bool b => if b then "true" else "false"
  | .whole n => n.repr
  | .real x => number x
  | .text s => quoted s
  | .list elements => "[" ++ ",".intercalate (compactAll elements) ++ "]"
  | .record members => "\x7b" ++ ",".intercalate (compactMembers members) ++ "\x7d"

def compactAll : List Value → List String
  | [] => []
  | v :: vs => v.compact :: compactAll vs

def compactMembers : List (String × Value) → List String
  | [] => []
  | (name, v) :: members => (quoted name ++ ":" ++ v.compact) :: compactMembers members

end

def margin (depth : Nat) : String := "\n" ++ String.ofList (List.replicate (2 * depth) ' ')

/-- The lines between two brackets, or the brackets alone when there are none. -/
def block (opening closing : String) (depth : Nat) (lines : List String) : String :=
  if lines = [] then opening ++ closing
  else opening ++ margin (depth + 1) ++ ("," ++ margin (depth + 1)).intercalate lines ++ margin depth ++ closing

mutual

/-- The value set out over lines, its own first line being `depth` steps deep. -/
def prettyAt (depth : Nat) : Value → String
  | .list elements => block "[" "]" depth (prettyAll (depth + 1) elements)
  | .record members => block "\x7b" "\x7d" depth (prettyMembers (depth + 1) members)
  | .null => "null"
  | .bool b => if b then "true" else "false"
  | .whole n => n.repr
  | .real x => number x
  | .text s => quoted s

def prettyAll (depth : Nat) : List Value → List String
  | [] => []
  | v :: vs => v.prettyAt depth :: prettyAll depth vs

def prettyMembers (depth : Nat) : List (String × Value) → List String
  | [] => []
  | (name, v) :: members => (quoted name ++ ": " ++ v.prettyAt depth) :: prettyMembers depth members

end

def pretty (v : Value) : String := v.prettyAt 0

end Value

end Lineup.Json
