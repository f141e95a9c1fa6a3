import Lineup.Text.Case
import Lineup.Text.Split
/-!
# MediaType — which contents count as JSON

A media type is a type and a subtype with a slash between, and parameters after semicolons.  A content is JSON when its
type is `application` and its subtype is `json`, or has `json` before or after its last plus sign.  A media type that is
not well formed, down to its last parameter, names nothing.
-/
namespace Lineup.Service.MediaType

def marks : List Char := "!#$%&'*+-.^_`|~".toList

def isTokenChar (c : Char) : Bool := c.isAlphanum || marks.contains c

def isQuotable (c : Char) : Bool := 0x20 ≤ c.toNat && c.toNat < 0x7F

inductive Place where
  | start
  | name
  | valueStart
  | value
  /-- After an opening quote; a quoted value holds at least one character. -/
  | quotedStart
  | quoted
  | afterQuoted

def Place.next? (c : Char) : Place → Option Place
  | .start => if c = ' ' then some .start else if isTokenChar c then some .name else none
  | .name => if c = '=' then some .valueStart else if isTokenChar c then some .name else none
  | .valueStart => if c = '"' then some .quotedStart else if isTokenChar c then some .value else none
  | .value => if c = ';' then some .start else if isTokenChar c then some .value else none
  | .quotedStart => if isQuotable c then some .quoted else none
  | .quoted => if c = '"' then some .afterQuoted else if isQuotable c then some .quoted else none
  | .afterQuoted => if c = ';' then some .start else if c = ' ' then some .afterQuoted else none

def Place.isEnd : Place → Bool
  | .start | .valueStart | .value | .afterQuoted => true
  | .name | .quotedStart | .quoted => false

def areParameters (place : Place) : List Char → Bool
  | [] => place.isEnd
  | c :: cs =>
    match place.next? c with
    | some place => areParameters place cs
    | none => false

/-- The subtype cut at its last plus sign; a plus sign at its front does not count. -/
def atPlus? : List Char → Option (List Char × List Char)
  | [] => none
  | c :: cs =>
    match (cs.reverse.span (· ≠ '+')) with
    | (_, []) => none
    | (last, _ :: front) => some (c :: front.reverse, last.reverse)

def isNamed (name : String) (cs : List Char) : Bool := Text.sameName name (String.ofList cs)

def isJson (text : String) : Bool :=
  let (name, parameters) := text.toList.span (· ≠ ';')
  match name.span (· ≠ '/') with
  | (kind, _ :: subtype) =>
    isNamed "application" kind && subtype.all isTokenChar && areParameters .start (parameters.drop 1) &&
      (match atPlus? subtype with
        | some (front, last) => isNamed "json" front || isNamed "json" last
        | none => isNamed "json" subtype)
  | _ => false

end Lineup.Service.MediaType
