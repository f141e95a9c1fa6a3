import Lineup.Linear.Problem
/-!
# Dictionary — the relaxation of a problem, solved by pivoting

Every coordinate `x` of a relaxed problem has a complement `1 - x`, and every row a slack, and all of them are at least
zero.  A dictionary writes some of these variables, the basic ones, as affine functions of the others, the free ones,
and the objective too.  The first dictionary frees of each coordinate and its complement the one that the objective
wants small, so that no free variable could improve the objective; each pivot keeps this and mends a basic variable that
is negative where the free variables are zero.  When none is left the point is optimal; when a negative one cannot be
mended, its line shows that no point is feasible.  Ties fall to the variable with the smallest name, to keep pivoting
from cycling.

What comes out is only a proposal: a point and multipliers, to be checked against the problem.  What is said of the
answer rests on that check, and not on the pivots.
-/
namespace Lineup.Linear

/-- A basic variable as an affine function of the free ones. -/
structure Line where
  name : Nat
  constant : Rat
  coefficients : List Rat
  deriving DecidableEq, Repr

structure Dictionary where
  free : List Nat
  lines : List Line
  /-- What each free variable adds to the objective. -/
  costs : List Rat
  deriving DecidableEq, Repr

def Constraint.inequalities (c : Constraint) : List (List Rat × Rat) :=
  match c.sense with
  | .atMost => [(c.coefficients, c.threshold)]
  | .atLeast => [(c.coefficients.map (-·), -c.threshold)]
  | .equal => [(c.coefficients, c.threshold), (c.coefficients.map (-·), -c.threshold)]

namespace Dictionary

def coordinate (j : Nat) : Nat := 2 * j

def complement (j : Nat) : Nat := 2 * j + 1

def slack (size i : Nat) : Nat := 2 * size + i

/-- The line of an inequality's slack, where `up` tells which coordinates have a free complement. -/
def slackLine (name : Nat) (up : List Bool) (coefficients : List Rat) (threshold : Rat) : Line :=
  { name
    constant := (up.zip coefficients).foldl (fun rest (u, a) => if u then rest - a else rest) threshold
    coefficients := up.zipWith (fun u a => if u then a else -a) coefficients }

def start (p : Problem) : Dictionary :=
  let up := p.objective.map fun c => (0 < c : Bool)
  let boxes := up.zipIdx.map fun (u, j) =>
    { name := if u then coordinate j else complement j
      constant := 1
      coefficients := (List.replicate up.length (0 : Rat)).set j (-1) : Line }
  let slacks := (p.rows.flatMap Constraint.inequalities).zipIdx.map fun ((a, b), i) => slackLine (slack p.size i) up a b
  { free := up.zipIdx.map fun (u, j) => if u then complement j else coordinate j
    lines := boxes ++ slacks
    costs := p.objective.map fun c => if 0 < c then -c else c }

def firstLine (found : Option Line) (l : Line) : Option Line :=
  match found with
  | none => some l
  | some f => if l.name < f.name then some l else found

/-- The line to be mended: of those whose constant is negative, the one with the smallest name. -/
def leaving? (d : Dictionary) : Option Line :=
  d.lines.foldl (fun found l => if l.constant < 0 then firstLine found l else found) none

/-- A free variable that may enter: its place, its name and what it costs to raise the line by one. -/
structure Entry where
  place : Nat
  name : Nat
  price : Rat

/-- The cheaper of two entries, or of equally cheap ones the one with the smaller name. -/
def cheaper (found : Option Entry) (e : Entry) : Option Entry :=
  match found with
  | none => some e
  | some f => if e.price < f.price ∨ (e.price = f.price ∧ e.name < f.name) then some e else found

def entering? (d : Dictionary) (l : Line) : Option Entry :=
  (d.free.zip (d.costs.zip l.coefficients)).zipIdx.foldl
    (fun found ((name, cost, a), place) => if 0 < a then cheaper found ⟨place, name, -cost / a⟩ else found) none

/-- The line solved for the free variable at `place`, whose name is `name`. -/
def solved (l : Line) (place name : Nat) : Line :=
  let a := l.coefficients.getD place 1
  { name
    constant := -l.constant / a
    coefficients := (l.coefficients.map fun c => -c / a).set place (1 / a) }

def substitute (place : Nat) (line : Line) (coefficients : List Rat) : List Rat :=
  let a := coefficients.getD place 0
  if a = 0 then coefficients else (coefficients.set place 0).zipWith (fun c b => c + a * b) line.coefficients

/-- Exchanges the basic variable of a line with the free variable of an entry. -/
def pivot (d : Dictionary) (l : Line) (e : Entry) : Dictionary :=
  let entered := solved l e.place e.name
  { free := d.free.set e.place l.name
    lines := d.lines.map fun m =>
      if m.name = l.name then entered
      else { m with
        constant := m.constant + m.coefficients.getD e.place 0 * entered.constant
        coefficients := substitute e.place entered m.coefficients }
    costs := substitute e.place entered d.costs }

inductive Ending where
  | feasible (d : Dictionary)
  | stuck (d : Dictionary) (l : Line)
  | exhausted

def run : (fuel : Nat) → Dictionary → Ending
  | 0, _ => .exhausted
  | fuel + 1, d =>
    match d.leaving? with
    | none => .feasible d
    | some l =>
      match d.entering? l with
      | none => .stuck d l
      | some e => run fuel (d.pivot l e)

def valueOf (d : Dictionary) (name : Nat) : Rat :=
  ((d.lines.find? (·.name = name)).map Line.constant).getD 0

def coefficientOf (d : Dictionary) (coefficients : List Rat) (name : Nat) : Rat :=
  ((d.free.zip coefficients).lookup name).getD 0

end Dictionary

/-- A multiplier for each row, from the weights of the inequalities, the first of which is number `first`. -/
def rowMultipliers (weight : Nat → Rat) : (first : Nat) → List Constraint → List Rat
  | _, [] => []
  | first, row :: rows =>
    match row.sense with
    | .atMost => weight first :: rowMultipliers weight (first + 1) rows
    | .atLeast => -weight first :: rowMultipliers weight (first + 1) rows
    | .equal => (weight first - weight (first + 1)) :: rowMultipliers weight (first + 2) rows

inductive Proposal where
  /-- An optimal point, and multipliers whose bound is its value. -/
  | point (x multipliers : List Rat)
  /-- Multipliers that bound zero by something negative. -/
  | contradiction (multipliers : List Rat)
  | none

/-- Solves the relaxation of a problem.  There are no more dictionaries than sets of variables. -/
def Problem.propose (p : Problem) : Proposal :=
  let first := Dictionary.start p
  match Dictionary.run (Nat.pow 2 (first.free.length + first.lines.length)) first with
  | .feasible d =>
    .point ((List.range p.size).map fun j => d.valueOf (Dictionary.coordinate j))
      (rowMultipliers (fun i => -d.coefficientOf d.costs (Dictionary.slack p.size i)) 0 p.rows)
  | .stuck d l =>
    .contradiction (rowMultipliers (fun i =>
      let name := Dictionary.slack p.size i
      if l.name = name then 1 else -d.coefficientOf l.coefficients name) 0 p.rows)
  | .exhausted => .none

end Lineup.Linear
