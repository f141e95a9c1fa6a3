import Lineup.Program
/-!
# Engine — who solves a program, and what is made of the answer

An engine is asked once for a point of a program and answers with a status, the values of the variables and perhaps a
message.  Only an optimal answer with one finite value for each variable is taken; it becomes an assignment of values to
candidates.  Everything else is a failure, and no engine is asked twice.
-/
namespace Lineup

inductive Status where
  | optimal
  | infeasible
  | unbounded
  | notSolved
  deriving DecidableEq, Repr

namespace Status

def name : Status → String
  | .optimal => "Optimal"
  | .infeasible => "Infeasible"
  | .unbounded => "Unbounded"
  | .notSolved => "Not Solved"

def label : Status → String
  | .optimal => "optimal"
  | .infeasible => "infeasible"
  | .unbounded => "unbounded"
  | .notSolved => "not_solved"

end Status

structure Answer where
  status : Status
  values : List Float
  message : Option String
  deriving DecidableEq

namespace Answer

def optimal (values : List Float) : Answer := ⟨.optimal, values, none⟩

def failed (status : Status) (message : Option String) : Answer := ⟨status, [], message⟩

end Answer

/-- An engine whose answer depends on the program alone. -/
abbrev Engine := Program → Answer

/-- An engine that keeps a state from one program to the next. -/
structure StatefulEngine (σ : Type) where
  run : σ → Program → Answer × σ

def StatefulEngine.ofEngine (engine : Engine) : StatefulEngine Unit := ⟨fun _ p => (engine p, ())⟩

structure SolveFailure where
  status : Status
  detail : Option String
  deriving DecidableEq, Repr

def SolveFailure.message (f : SolveFailure) : String :=
  s!"solver finished with status {f.status.name}" ++
    match f.detail with
    | some detail => s!" ({detail})"
    | none => ""

structure Assignment where
  values : Std.TreeMap Nat Float
  objectiveValue : Float

namespace Assignment

def value? (a : Assignment) (id : Nat) : Option Float := a.values[id]?

def entries (a : Assignment) : List (Nat × Float) := a.values.toList

end Assignment

/-- Takes an answer as an assignment, or says why it is none.  Where two variables stand for one candidate, the later
one counts. -/
def Program.assignment (p : Program) (a : Answer) : Except SolveFailure Assignment :=
  if a.status ≠ .optimal then .error ⟨a.status, a.message⟩
  else if a.values.length ≠ p.ids.length then
    .error ⟨.notSolved, some s!"engine returned {a.values.length} values for {p.ids.length} variables"⟩
  else if !a.values.all Float.isFinite then .error ⟨.notSolved, some "engine returned a non-finite value"⟩
  else .ok ⟨.ofList (p.ids.zip a.values), p.objectiveValue a.values⟩

def Program.solve (p : Program) (engine : Engine) : Except SolveFailure Assignment := p.assignment (engine p)

end Lineup
