import Lineup.Text.Blank
import Lineup.Text.Case
/-!
# Mode — whole candidates or shares of them, and the size of a team

In binary mode a candidate is chosen or not.  In fractional mode the program may choose a share of each candidate,
between nothing and all, and the candidates with the largest shares make the team.  A roster either fixes the number of
candidates in the team or leaves it to the bounds.
-/
namespace Lineup

inductive Mode where
  | binary
  | fractional
  deriving DecidableEq, Repr

namespace Mode

def label : Mode → String
  | .binary => "binary"
  | .fractional => "fractional"

def ofLabel? (text : String) : Option Mode :=
  if text = "binary" then some .binary else if text = "fractional" then some .fractional else none

def plainName (text : String) : String := Text.lower (Text.trimmed text)

def read? (text : String) : Option Mode :=
  match plainName text with
  | "binary" | "integer" => some .binary
  | "fractional" | "relaxed" => some .fractional
  | _ => none

def unknownMessage (text : String) : String :=
  s!"unknown selection mode '{plainName text}' (expected binary or fractional)"

end Mode

inductive Roster where
  | fixed (size : Nat)
  | unbounded
  deriving DecidableEq, Repr

namespace Roster

def size? : Roster → Option Nat
  | .fixed size => some size
  | .unbounded => none

def cap {α : Type} (roster : Roster) (xs : List α) : List α :=
  match roster with
  | .fixed size => xs.take size
  | .unbounded => xs

/-- The roster that a request asks for, if it asks for one; the wish for no fixed size wins. -/
def ofRequest (size : Option Nat) (unbounded : Bool) : Option Roster :=
  if unbounded then some .unbounded else size.map .fixed

end Roster

end Lineup
