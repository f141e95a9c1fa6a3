import Lineup.Number.Hexadecimal
import Lineup.Number.Numeral
/-!
# Token — the words of a JSON text

`scan` cuts a text into tokens and stops with `bad` at the first place where no token can be read.  Blanks between
tokens are dropped.  Two things that look like tokens and have no value are left to the reader, who may not care: a text
with half of a surrogate pair, and a number too large for a double.
-/
namespace Lineup.Json

inductive Token where
  | openRecord
  | closeRecord
  | openList
  | closeList
  | comma
  | colon
  | null
  | bool (b : Bool)
  /-- A number, and whether it is written without point and exponent. -/
  | number (n : Number.Numeral) (plain : Bool)
  /-- A quoted text; `none` when an escape in it is half of a surrogate pair. -/
  | text (content : Option String)
  | bad
  deriving DecidableEq, Repr

/-- What a quoted text is made of: characters, and code units written in hexadecimal. -/
inductive Piece where
  | char (c : Char)
  | unit (n : Nat)
  deriving DecidableEq, Repr

def unit? (a b c d : Char) : Option Nat := Number.readHex? [a, b, c, d]

def escaped? (c : Char) : Option Char :=
  if c = '"' ∨ c = '\\' ∨ c = '/' then some c
  else if c = 'b' then some '\x08'
  else if c = 'f' then some '\x0c'
  else if c = 'n' then some '\n'
  else if c = 'r' then some '\r'
  else if c = 't' then some '\t'
  else none

/-- Reads a text after its opening quote, with what has been read so far given backwards.  Gives its pieces and what
follows the closing quote. -/
def readPieces? (done : List Piece) : List Char → Option (List Piece × List Char)
  | [] => none
  | '"' :: cs => some (done.reverse, cs)
  | '\\' :: 'u' :: a :: b :: c :: d :: cs =>
    match unit? a b c d with
    | some n => readPieces? (.unit n :: done) cs
    | none => none
  | '\\' :: c :: cs =>
    match escaped? c with
    | some e => readPieces? (.char e :: done) cs
    | none => none
  | c :: cs => if c.toNat < 0x20 then none else readPieces? (.char c :: done) cs

/-- Joins the pieces; two halves of a surrogate pair make one character, and a half alone makes none. -/
def join? : List Piece → Option (List Char)
  | [] => some []
  | .char c :: ps => (join? ps).map (c :: ·)
  | .unit n :: .unit m :: ps =>
    if 0xD800 ≤ n ∧ n < 0xDC00 then
      if 0xDC00 ≤ m ∧ m < 0xE000 then
        (join? ps).map (Char.ofNat (0x10000 + (n - 0xD800) * 0x400 + (m - 0xDC00)) :: ·)
      else none
    else if 0xDC00 ≤ n ∧ n < 0xE000 then none
    else (join? (.unit m :: ps)).map (Char.ofNat n :: ·)
  | .unit n :: ps => if 0xD800 ≤ n ∧ n < 0xE000 then none else (join? ps).map (Char.ofNat n :: ·)

def readWhole? (cs : List Char) : Option (List Char × List Char) :=
  match cs with
  | '0' :: rest => if (rest.headD ' ').isDigit then none else some (['0'], rest)
  | _ =>
    let digits := cs.takeWhile Char.isDigit
    if digits = [] then none else some (digits, cs.dropWhile Char.isDigit)

def readFraction? (cs : List Char) : Option (List Char × List Char) :=
  match cs with
  | '.' :: rest =>
    let digits := rest.takeWhile Char.isDigit
    if digits = [] then none else some (digits, rest.dropWhile Char.isDigit)
  | _ => some ([], cs)

def readExponent? (cs : List Char) : Option (Option Int × List Char) :=
  match cs with
  | c :: rest =>
    if c = 'e' ∨ c = 'E' then
      let (negative, unsigned) := Number.takeSign rest
      let digits := unsigned.takeWhile Char.isDigit
      if digits = [] then none
      else
        let size : Int := Number.digitsValue digits
        some (some (if negative then -size else size), unsigned.dropWhile Char.isDigit)
    else some (none, cs)
  | [] => some (none, [])

def readNumber? (negative : Bool) (cs : List Char) : Option (Token × List Char) := do
  let (whole, afterWhole) ← readWhole? cs
  let (fraction, afterFraction) ← readFraction? afterWhole
  let (exponent, rest) ← readExponent? afterFraction
  let numeral := ⟨negative, Number.digitsValue (whole ++ fraction), exponent.getD 0 - fraction.length⟩
  return (.number numeral (fraction = [] && exponent = none), rest)

def isBlank (c : Char) : Bool := c = ' ' || c = '\n' || c = '\t' || c = '\r'

def next? : List Char → Option (Token × List Char)
  | '{' :: cs => some (.openRecord, cs)
  | '}' :: cs => some (.closeRecord, cs)
  | '[' :: cs => some (.openList, cs)
  | ']' :: cs => some (.closeList, cs)
  | ',' :: cs => some (.comma, cs)
  | ':' :: cs => some (.colon, cs)
  | '"' :: cs => (readPieces? [] cs).map fun (pieces, rest) => (.text ((join? pieces).map String.ofList), rest)
  | 'n' :: 'u' :: 'l' :: 'l' :: cs => some (.null, cs)
  | 't' :: 'r' :: 'u' :: 'e' :: cs => some (.bool true, cs)
  | 'f' :: 'a' :: 'l' :: 's' :: 'e' :: cs => some (.bool false, cs)
  | '-' :: cs => readNumber? true cs
  | cs => readNumber? false cs

def scanFrom : (fuel : Nat) → List Char → List Token
  | _, [] => []
  | 0, _ => [.bad]
  | fuel + 1, c :: cs =>
    if isBlank c then scanFrom fuel cs
    else match next? (c :: cs) with
      | some (token, rest) => token :: scanFrom fuel rest
      | none => [.bad]

def scan (s : String) : List Token := scanFrom s.length s.toList

end Lineup.Json
