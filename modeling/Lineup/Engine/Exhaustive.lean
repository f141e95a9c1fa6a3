import Lineup.Engine
/-!
# Exhaustive — trying every team

The exhaustive engine tries all subsets of the candidates in the order of their masks, bit `i` of a mask standing for
variable `i`, and keeps the first of the best.  It serves as a yardstick for programs with few variables.
-/
namespace Lineup.Engine

/-- How far an activity may be off its right-hand side. -/
def exhaustiveTolerance : Float := 1e-9

/-- The point that chooses the variables whose bits are set. -/
def pointOf (count mask : Nat) : List Float :=
  (List.range count).map fun bit => if mask.testBit bit then 1.0 else 0.0

def feasible (p : Program) (values : List Float) : Bool :=
  p.rows.all fun row => row.holds values exhaustiveTolerance

/-- The better of the best value so far and the point of a mask; the earlier one stays when neither is greater. -/
def better (p : Program) (best : Option (Float × List Float)) (mask : Nat) : Option (Float × List Float) :=
  let values := pointOf p.ids.length mask
  if !feasible p values then best
  else
    let value := p.objectiveValue values
    match best with
    | none => some (value, values)
    | some (current, _) => if current < value then some (value, values) else best

def bestBelow (p : Program) (count : Nat) : Option (Float × List Float) :=
  count.fold (fun mask _ best => better p best mask) none

def exhaustive : Engine := fun p =>
  match p.mode with
  | .fractional => .failed .notSolved (some "exhaustive engine only handles binary models")
  | .binary =>
    match bestBelow p (Nat.pow 2 p.ids.length) with
    | some (_, values) => .optimal values
    | none => .failed .infeasible none

end Lineup.Engine
