import Mathlib.Data.List.Forall2
import Lineup.Engine.Scripted
import Lineup.Proofs.Failures
/-!
# Session — selections one after another

An engine may keep a state from one selection to the next.  It is asked by the selections that come to a program, by
each of them once, and by no other; so the runs of an engine and the selections that it decides stand in one order, and
a selection that fails before the engine might as well not have been asked for.
-/
namespace Lineup

structure Call where
  table : Table
  request : Request

section

variable {σ : Type}

/-- One selection after another with one engine: what each of them comes to, and the state of the engine after the last.
-/
def selectEach (engine : StatefulEngine σ) (setup : Setup) : σ → List Call → List (Except SelectionError Report) × σ
  | state, [] => ([], state)
  | state, call :: calls =>
    let (outcome, next) := selectFrom engine state setup call.table call.request
    let (outcomes, last) := selectEach engine setup next calls
    (outcome :: outcomes, last)

structure Run where
  program : Program
  answer : Answer

/-- The engine with a log of its runs. -/
def StatefulEngine.logged (engine : StatefulEngine σ) : StatefulEngine (σ × List Run) :=
  ⟨fun (state, log) p =>
    let (answer, next) := engine.run state p
    (answer, next, log ++ [⟨p, answer⟩])⟩

def runsOf (engine : StatefulEngine σ) (setup : Setup) (state : σ) (calls : List Call) : List Run :=
  (selectEach engine.logged setup (state, []) calls).2.2

def StatefulEngine.answers (engine : StatefulEngine σ) : σ → List Program → List Answer
  | _, [] => []
  | state, p :: programs => (engine.run state p).1 :: engine.answers (engine.run state p).2 programs

/-- The engine had a say in what a selection came to: it is a report, or the failure of a solution. -/
def decided : Except SelectionError Report → Bool
  | .ok _ | .error (.solve _) => true
  | .error (.source _) | .error (.schema _) | .error (.expression _) | .error (.program _) => false

/-! ## One selection -/

theorem decided_of_prepare {setup : Setup} {table : Table} {request : Request} {e : SelectionError}
    (h : prepare setup table request = .error e) : decided (.error e) = false := by
  rcases prepare_eq_error.1 h with ⟨s, -, rfl⟩ | ⟨catalog, -, ⟨x, -, rfl⟩ | ⟨objective, -, ⟨x, -, rfl⟩ |
    ⟨bounds, -, candidates, -, x, -, rfl⟩⟩⟩
  all_goals rfl

theorem decided_finish (p : Prepared) (answer : Answer) : decided (p.finish answer) = true := by
  cases h : p.finish answer with
  | ok report => rfl
  | error e =>
    obtain ⟨failure, -, rfl⟩ := Prepared.finish_eq_error.1 h
    rfl

variable {engine : StatefulEngine σ} {setup : Setup} {state : σ} {call : Call} {calls : List Call}

theorem selectFrom_of_error {table : Table} {request : Request} {e : SelectionError}
    (h : prepare setup table request = .error e) : selectFrom engine state setup table request = (.error e, state) := by
  unfold selectFrom
  rw [h]

theorem selectFrom_of_ok {table : Table} {request : Request} {p : Prepared}
    (h : prepare setup table request = .ok p) : selectFrom engine state setup table request =
      (p.finish (engine.run state p.program).1, (engine.run state p.program).2) := by
  unfold selectFrom
  rw [h]

/-! ## One selection more -/

theorem selectEach_cons_of_error {e : SelectionError} (h : prepare setup call.table call.request = .error e) :
    selectEach engine setup state (call :: calls) =
      (.error e :: (selectEach engine setup state calls).1, (selectEach engine setup state calls).2) := by
  rw [selectEach, selectFrom_of_error h]

theorem selectEach_cons_of_ok {p : Prepared} (h : prepare setup call.table call.request = .ok p) :
    selectEach engine setup state (call :: calls) =
      (p.finish (engine.run state p.program).1 :: (selectEach engine setup (engine.run state p.program).2 calls).1,
        (selectEach engine setup (engine.run state p.program).2 calls).2) := by
  rw [selectEach, selectFrom_of_ok h]

theorem run_logged (engine : StatefulEngine σ) (state : σ) (log : List Run) (p : Program) :
    engine.logged.run (state, log) p =
      ((engine.run state p).1, (engine.run state p).2, log ++ [⟨p, (engine.run state p).1⟩]) := rfl

/-- **A log changes nothing, and what it holds already is kept.** -/
theorem selectEach_logged : ∀ (calls : List Call) (state : σ) (log : List Run),
    selectEach engine.logged setup (state, log) calls =
      ((selectEach engine setup state calls).1, (selectEach engine setup state calls).2,
        log ++ runsOf engine setup state calls)
  | [], state, log => by
    unfold runsOf
    rw [selectEach, selectEach, selectEach, List.append_nil]
  | call :: calls, state, log => by
    unfold runsOf
    cases h : prepare setup call.table call.request with
    | error e => simp only [selectEach_cons_of_error h, selectEach_logged calls state, List.nil_append]
    | ok p =>
      simp only [selectEach_cons_of_ok h, run_logged, selectEach_logged calls, List.nil_append, List.append_assoc]

theorem runsOf_cons_of_error {e : SelectionError} (h : prepare setup call.table call.request = .error e) :
    runsOf engine setup state (call :: calls) = runsOf engine setup state calls := by
  unfold runsOf
  rw [selectEach_cons_of_error h]

theorem runsOf_cons_of_ok {p : Prepared} (h : prepare setup call.table call.request = .ok p) :
    runsOf engine setup state (call :: calls) =
      ⟨p.program, (engine.run state p.program).1⟩ :: runsOf engine setup (engine.run state p.program).2 calls := by
  unfold runsOf
  rw [selectEach_cons_of_ok h, run_logged, selectEach_logged]
  rfl

/-! ## All selections -/

def decisions (engine : StatefulEngine σ) (setup : Setup) (state : σ) (calls : List Call) :
    List (Call × Except SelectionError Report) :=
  (calls.zip (selectEach engine setup state calls).1).filter fun x => decided x.2

theorem decisions_cons_of_error {e : SelectionError} (h : prepare setup call.table call.request = .error e) :
    decisions engine setup state (call :: calls) = decisions engine setup state calls := by
  unfold decisions
  rw [selectEach_cons_of_error h, List.zip_cons_cons, List.filter_cons, decided_of_prepare h]
  rfl

theorem decisions_cons_of_ok {p : Prepared} (h : prepare setup call.table call.request = .ok p) :
    decisions engine setup state (call :: calls) = (call, p.finish (engine.run state p.program).1) ::
      decisions engine setup (engine.run state p.program).2 calls := by
  unfold decisions
  rw [selectEach_cons_of_ok h, List.zip_cons_cons, List.filter_cons, decided_finish]
  rfl

theorem length_selectEach : ∀ (calls : List Call) (state : σ),
    (selectEach engine setup state calls).1.length = calls.length
  | [], _ => rfl
  | _ :: calls, _ => congrArg Nat.succ (length_selectEach calls _)

/-- **Each decision belongs to the run of its place.** -/
theorem forall₂_decisions : ∀ (calls : List Call) (state : σ),
    List.Forall₂ (fun decision run => ∃ p, prepare setup decision.1.table decision.1.request = .ok p ∧
        p.program = run.program ∧ decision.2 = p.finish run.answer)
      (decisions engine setup state calls) (runsOf engine setup state calls)
  | [], _ => List.Forall₂.nil
  | call :: calls, state => by
    cases h : prepare setup call.table call.request with
    | error e =>
      rw [decisions_cons_of_error h, runsOf_cons_of_error h]
      exact forall₂_decisions calls state
    | ok p =>
      rw [decisions_cons_of_ok h, runsOf_cons_of_ok h]
      exact List.Forall₂.cons ⟨p, h, rfl, rfl⟩ (forall₂_decisions calls _)

/-- **The answers are those of the engine, asked for the programs alone.** -/
theorem answers_runsOf : ∀ (calls : List Call) (state : σ),
    (runsOf engine setup state calls).map Run.answer =
      engine.answers state ((runsOf engine setup state calls).map Run.program)
  | [], _ => rfl
  | call :: calls, state => by
    cases h : prepare setup call.table call.request with
    | error e =>
      rw [runsOf_cons_of_error h]
      exact answers_runsOf calls state
    | ok p =>
      rw [runsOf_cons_of_ok h]
      exact congrArg (_ :: ·) (answers_runsOf calls _)

/-- **Selections that fail before the engine leave no trace.** -/
theorem selectEach_decisions : ∀ (calls : List Call) (state : σ),
    selectEach engine setup state ((decisions engine setup state calls).map Prod.fst) =
      ((decisions engine setup state calls).map Prod.snd, (selectEach engine setup state calls).2)
  | [], _ => rfl
  | call :: calls, state => by
    cases h : prepare setup call.table call.request with
    | error e =>
      rw [decisions_cons_of_error h, selectEach_cons_of_error h]
      exact selectEach_decisions calls state
    | ok p =>
      rw [decisions_cons_of_ok h, List.map_cons, selectEach_cons_of_ok h, selectEach_cons_of_ok h, selectEach_decisions]
      rfl

theorem length_decisions (calls : List Call) (state : σ) :
    (decisions engine setup state calls).length = (selectEach engine setup state calls).1.countP decided := by
  have hsnd : ((calls.zip (selectEach engine setup state calls).1).map Prod.snd) =
      (selectEach engine setup state calls).1 :=
    List.map_snd_zip (Nat.le_of_eq (length_selectEach calls state))
  unfold decisions
  rw [← List.countP_eq_length_filter]
  conv => rhs; rw [← hsnd]
  rw [List.countP_map]
  rfl

theorem answers_scripted (script : List Answer) : ∀ (programs : List Program) (calls : Nat),
    (Engine.scripted script).answers calls programs =
      (List.range' calls programs.length).map (Engine.scriptedAnswer script)
  | [], _ => rfl
  | _ :: programs, calls => congrArg (_ :: ·) (answers_scripted script programs (calls + 1))

theorem length_runsOf (calls : List Call) (state : σ) :
    (runsOf engine setup state calls).length = (selectEach engine setup state calls).1.countP decided := by
  rw [← (forall₂_decisions calls state).length_eq, length_decisions]

/-- **An engine is asked once by each selection that it decides, and by no other.**  A selection asks it once if it
comes to a report or to the failure of a solution, and never if it comes to another failure.  So after any selections
the engine has run as often as there were such, which a log tells without changing anything; the run in a place decides
the selection in that place, with the answer that the engine gives when it is asked for the programs alone, for a script
the answer in that place; and without the other selections everything is the same. -/
theorem engine_asked_once (engine : StatefulEngine σ) (setup : Setup) (state : σ) (calls : List Call) :
    (selectEach engine.logged setup (state, []) calls).1 = (selectEach engine setup state calls).1 ∧
    (selectEach engine.logged setup (state, []) calls).2.1 = (selectEach engine setup state calls).2 ∧
    (∀ (state : σ) (call : Call), (runsOf engine setup state [call]).length =
      if decided (selectFrom engine state setup call.table call.request).1 then 1 else 0) ∧
    (runsOf engine setup state calls).length = (selectEach engine setup state calls).1.countP decided ∧
    List.Forall₂ (fun decision run => ∃ p, prepare setup decision.1.table decision.1.request = .ok p ∧
        p.program = run.program ∧ decision.2 = p.finish run.answer)
      (decisions engine setup state calls) (runsOf engine setup state calls) ∧
    (runsOf engine setup state calls).map Run.answer =
      engine.answers state ((runsOf engine setup state calls).map Run.program) ∧
    (∀ script : List Answer, (runsOf (Engine.scripted script) setup 0 calls).map Run.answer =
      (List.range (runsOf (Engine.scripted script) setup 0 calls).length).map (Engine.scriptedAnswer script)) ∧
    selectEach engine setup state ((decisions engine setup state calls).map Prod.fst) =
      ((decisions engine setup state calls).map Prod.snd, (selectEach engine setup state calls).2) := by
  refine ⟨?_, ?_, fun state call => ?_, length_runsOf calls state, forall₂_decisions calls state,
    answers_runsOf calls state, fun script => ?_, selectEach_decisions calls state⟩
  · rw [selectEach_logged]
  · rw [selectEach_logged]
  · rw [length_runsOf, selectEach]
    exact List.countP_singleton
  · rw [answers_runsOf, answers_scripted, List.length_map, List.range_eq_range']

end

end Lineup
