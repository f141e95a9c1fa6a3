import Lineup.Json.Token
/-!
# Skip — passing over a value

A value that nobody wants is passed over token by token.  It must be well formed, but nothing in it is given a meaning:
a number may be too large, and a text may hold half of a surrogate pair.
-/
namespace Lineup.Json

/-- What encloses the place where reading stands. -/
inductive Frame where
  | list
  | record
  deriving DecidableEq, Repr

/-- What may come next. -/
inductive Wanted where
  | value
  | first
  | key
  | colon
  | next
  deriving DecidableEq, Repr

def enter (frames : List Frame) : Token → Option (List Frame × Wanted)
  | .null | .bool _ | .number .. | .text _ => some (frames, .next)
  | .openList => some (.list :: frames, .first)
  | .openRecord => some (.record :: frames, .first)
  | _ => none

def step : List Frame → Wanted → Token → Option (List Frame × Wanted)
  | .list :: outer, .first, .closeList | .list :: outer, .next, .closeList => some (outer, .next)
  | .record :: outer, .first, .closeRecord | .record :: outer, .next, .closeRecord => some (outer, .next)
  | .list :: outer, .next, .comma => some (.list :: outer, .value)
  | .record :: outer, .next, .comma => some (.record :: outer, .key)
  | .record :: outer, .first, .text _ | .record :: outer, .key, .text _ => some (.record :: outer, .colon)
  | frames, .colon, .colon => some (frames, .value)
  | .list :: outer, .first, token => enter (.list :: outer) token
  | frames, .value, token => enter frames token
  | _, _, _ => none

def skipFrom? (frames : List Frame) (wanted : Wanted) : List Token → Option (List Token)
  | [] => none
  | token :: tokens =>
    match step frames wanted token with
    | none => none
    | some ([], .next) => some tokens
    | some (frames, wanted) => skipFrom? frames wanted tokens

def skip? (tokens : List Token) : Option (List Token) := skipFrom? [] .value tokens

end Lineup.Json
