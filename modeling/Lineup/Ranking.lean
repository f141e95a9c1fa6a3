import Lineup.Engine
/-!
# Ranking — the team of an assignment

In binary mode the candidates whose variable is 1, up to a tolerance, make the team.  In fractional mode a fixed roster
takes the candidates with the largest shares, and without one every share above the tolerance counts.  The team is
listed by score, highest first; equal scores follow the ids.
-/
namespace Lineup

def selectionTolerance : Float := 1e-6

structure Ranked where
  id : Nat
  name : String
  score : Float
  value : Float
  deriving DecidableEq

namespace Ranked

def byScore (a b : Ranked) : Ordering := (Number.order b.score a.score).then (compare a.id b.id)

def byValue (a b : Ranked) : Ordering := (Number.order b.value a.value).then (byScore a b)

end Ranked

def Assignment.ranked (a : Assignment) (candidates : List Candidate) (objective : Objective) : List Ranked :=
  candidates.filterMap fun c => (a.value? c.id).map fun value => ⟨c.id, c.name, c.score objective, value⟩

/-- Those that make the team, in no particular order. -/
def chosen (ranked : List Ranked) (mode : Mode) (roster : Roster) : List Ranked :=
  match mode with
  | .binary => ranked.filter fun r => (r.value - 1.0).abs < selectionTolerance
  | .fractional =>
    match roster with
    | .fixed size => (ranked.mergeSort fun a b => (a.byValue b).isLE).take size
    | .unbounded => ranked.filter fun r => selectionTolerance < r.value

/-- The team of an assignment; a fixed roster caps it in either mode. -/
def rank (candidates : List Candidate) (a : Assignment) (objective : Objective) (mode : Mode) (roster : Roster) :
    List Ranked :=
  roster.cap ((chosen (a.ranked candidates objective) mode roster).mergeSort fun x y => (x.byScore y).isLE)

end Lineup
