import Lineup.Linear.Relaxation
/-!
# Search — the best point of zeros and ones

The search decides one coordinate after the other and gives up a branch in two cases: when some row cannot be met any
more, whatever the open coordinates are, and when no completion can beat the best point so far.  The second test uses
the bound of the relaxation's multipliers, kept up to date as coordinates are decided; any multipliers would do, better
ones cut more.  Of a coordinate's two values the one nearer to the relaxed point is tried first.
-/
namespace Lineup.Linear

/-- An open coordinate, with the room that it and the coordinates after it leave to each row. -/
structure Open where
  first : Bool
  gain : Rat
  /-- What it adds to the bound. -/
  reduced : Rat
  column : List Rat
  /-- The least that it and the later ones can add to each row. -/
  least : List Rat
  most : List Rat
  deriving DecidableEq, Repr

/-- The best point so far, with its value; a point is a list of zeros and ones. -/
abbrev Best := Option (Rat × List Bool)

def reachable (sense : Sense) (rest least most : Rat) : Bool :=
  match sense with
  | .atMost => least ≤ rest
  | .atLeast => rest ≤ most
  | .equal => least ≤ rest && rest ≤ most

def allReachable : List Sense → List Rat → List Rat → List Rat → Bool
  | s :: ss, r :: rs, l :: ls, m :: ms => reachable s r l m && allReachable ss rs ls ms
  | _, _, _, _ => true

def hopeless (best : Best) (ceiling : Rat) : Bool :=
  match best with
  | none => false
  | some (value, _) => ceiling ≤ value

/-- The state of a branch: what each row still lacks, the value so far, and a bound on the value of all completions. -/
structure Branch where
  rest : List Rat
  value : Rat
  ceiling : Rat
  deriving DecidableEq, Repr

namespace Branch

def decided (b : Branch) (o : Open) (chosen : Bool) : Branch :=
  if chosen then
    { rest := b.rest.zipWith (· - ·) o.column
      value := b.value + o.gain
      ceiling := if 0 ≤ o.reduced then b.ceiling else b.ceiling + o.reduced }
  else { b with ceiling := if 0 ≤ o.reduced then b.ceiling - o.reduced else b.ceiling }

end Branch

/-- The best point among `best` and the completions of a branch; `path` are its coordinates so far, backwards. -/
def searchFrom (senses : List Sense) : List Open → Branch → (path : List Bool) → Best → Best
  | [], b, path, best =>
    let zero := b.rest.map fun _ => (0 : Rat)
    if allReachable senses b.rest zero zero && !hopeless best b.value then some (b.value, path.reverse) else best
  | o :: os, b, path, best =>
    if !allReachable senses b.rest o.least o.most || hopeless best b.ceiling then best
    else
      let after := searchFrom senses os (b.decided o o.first) (o.first :: path) best
      searchFrom senses os (b.decided o !o.first) ((!o.first) :: path) after

namespace Problem

def column (p : Problem) (j : Nat) : List Rat := p.rows.map fun row => row.coefficients.getD j 0

def opened (p : Problem) (guess reduced : List Rat) (j : Nat) (later : List Open) : List Open :=
  let column := p.column j
  let (least, most) := match later with
    | [] => (column.map fun _ => (0 : Rat), column.map fun _ => (0 : Rat))
    | o :: _ => (o.least, o.most)
  { first := 1 ≤ 2 * guess.getD j 0
    gain := p.objective.getD j 0
    reduced := reduced.getD j 0
    column
    least := column.zipWith (fun a l => if 0 ≤ a then l else a + l) least
    most := column.zipWith (fun a m => if 0 ≤ a then a + m else m) most } :: later

def opens (p : Problem) (guess reduced : List Rat) : List Open :=
  (List.range p.size).foldr (p.opened guess reduced) []

/-- The best point of zeros and ones, found with the help of a guess and of multipliers. -/
def searchWhole (p : Problem) (guess multipliers : List Rat) : Outcome :=
  let reduced := p.reduced p.objective multipliers
  let root : Branch := ⟨p.rows.map Constraint.threshold, 0, p.bound p.objective multipliers⟩
  match searchFrom (p.rows.map Constraint.sense) (p.opens guess reduced) root [] none with
  | some (_, point) => .optimal (point.map fun chosen => if chosen then 1 else 0)
  | none => .infeasible

end Problem

def solve : Solver := fun mode p =>
  match mode, p.relax with
  | .fractional, .optimal x _ => .optimal x
  | .binary, .optimal x multipliers => p.searchWhole x multipliers
  | _, .infeasible => .infeasible
  | .fractional, .unknown => .undecided
  | .binary, .unknown => p.searchWhole [] (p.rows.map fun _ => 0)

end Lineup.Linear
