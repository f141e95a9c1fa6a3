import Lineup.Engine.Exhaustive
import Lineup.Proofs.Among
/-!
# BoundOrder — the order of bounds shows in labels only

Bounds may come in any order, and more than once.  The metrics that they name are the same, so the same candidates take
part; the same points meet the rows, so the search of all teams ends with the same one; and the place of a bound in the
list reaches nothing but the label of its row.
-/
namespace Lineup

theorem screen_of_same_bounds {bounds bounds' : List Bound} (h : ∀ b, b ∈ bounds ↔ b ∈ bounds')
    (candidates : List Candidate) (objective : Objective) :
    screen candidates objective bounds = screen candidates objective bounds' :=
  screen_congr (fun metric => by simp only [List.mem_append, List.mem_map, h]) candidates

/-! ## Rows -/

theorem Bound.check_rowOver (b : Bound) (ordinal ordinal' : Nat) (candidates : List Candidate) (values : List Float) :
    (b.rowOver ordinal' candidates).check values =
      { (b.rowOver ordinal candidates).check values with label := (b.rowOver ordinal' candidates).label } := rfl

namespace Program

variable {candidates : List Candidate} {objective : Objective} {bounds bounds' : List Bound} {roster : Roster}
    {mode : Mode}

theorem feasible_over_iff {values : List Float} :
    Engine.feasible (Program.over candidates objective bounds roster mode) values = true ↔
      (∀ b ∈ bounds, (b.rowOver 0 candidates).holds values Engine.exhaustiveTolerance = true) ∧
        ∀ row ∈ roster.rows candidates.length, row.holds values Engine.exhaustiveTolerance = true := by
  unfold Engine.feasible Program.over
  rw [List.all_eq_true, List.forall_mem_append, List.forall_mem_map]
  refine and_congr_left fun _ =>
    ⟨fun hall b hb => ?_, fun hall (b, ordinal) hb => hall b (List.fst_mem_of_mem_zipIdx hb)⟩
  obtain ⟨ordinal, hordinal⟩ := List.mem_iff_getElem?.1 hb
  exact hall (b, ordinal) (List.mk_mem_zipIdx_iff_getElem?.2 hordinal)

/-- **The same points meet the rows of bounds in another order.** -/
theorem feasible_over_congr (h : ∀ b, b ∈ bounds ↔ b ∈ bounds') (values : List Float) :
    Engine.feasible (Program.over candidates objective bounds roster mode) values =
      Engine.feasible (Program.over candidates objective bounds' roster mode) values := by
  rw [Bool.eq_iff_iff, feasible_over_iff, feasible_over_iff]
  simp only [h]

end Program

/-! ## The search -/

namespace Engine

variable {p q : Program} (hids : p.ids = q.ids) (hobjective : p.objective = q.objective)
  (hfeasible : ∀ values, feasible p values = feasible q values)
include hids hobjective hfeasible

theorem better_congr : better p = better q := by
  funext best mask
  unfold better Program.objectiveValue
  dsimp only
  rw [hids, hobjective, hfeasible]

/-- **The search sees the rows of a program only through the points that meet them.** -/
theorem exhaustive_congr (hmode : p.mode = q.mode) : exhaustive p = exhaustive q := by
  unfold exhaustive bestBelow
  rw [hmode, hids, better_congr hids hobjective hfeasible]

end Engine

/-! ## Reports -/

namespace Prepared

theorem checks_of_finish {p : Prepared} {answer : Answer} {report : Report} (h : p.finish answer = .ok report) :
    report.checks = p.program.rows.map (·.check (p.program.indicator (report.team.map Ranked.id))) := by
  obtain ⟨-, -, -, rfl⟩ := finish_eq_ok.1 h
  exact p.checks_report answer.values

theorem finish_of_rows (p : Prepared) (rows : List Row) (answer : Answer) :
    ({ p with program := { p.program with rows } } : Prepared).finish answer = (p.finish answer).map fun report =>
      { report with checks := rows.map (·.check (p.program.indicator (report.team.map Ranked.id))) } := by
  have hassignment : ({ p.program with rows } : Program).assignment answer = p.program.assignment answer := rfl
  unfold finish
  dsimp only
  rw [hassignment]
  cases p.program.assignment answer with
  | error failure => rfl
  | ok assignment => rfl

section Among

variable {setup : Setup} {candidates : List Candidate} {objective : Objective} {bounds bounds' : List Bound}

theorem getElem?_rows_among {k : Nat} {b : Bound} (h : bounds[k]? = some b) :
    (among setup candidates objective bounds).program.rows[k]? =
      some (b.rowOver k (screen candidates objective bounds).eligible) :=
  Program.getElem?_rows_over h

theorem drop_rows_among :
    (among setup candidates objective bounds).program.rows.drop bounds.length =
      setup.roster.rows (screen candidates objective bounds).eligible.length :=
  Program.drop_rows_over ..

variable (h : ∀ b, b ∈ bounds ↔ b ∈ bounds')
include h

theorem among_of_same_bounds : among setup candidates objective bounds' =
    { among setup candidates objective bounds with
      program := { (among setup candidates objective bounds).program with
        rows := (among setup candidates objective bounds').program.rows } } := by
  unfold among
  rw [← screen_of_same_bounds h candidates]
  rfl

theorem exhaustive_of_same_bounds :
    Engine.exhaustive (among setup candidates objective bounds').program =
      Engine.exhaustive (among setup candidates objective bounds).program := by
  unfold among
  rw [← screen_of_same_bounds h candidates]
  exact Engine.exhaustive_congr rfl rfl (fun values => (Program.feasible_over_congr h values).symm) rfl

end Among

end Prepared

/-- **The order of bounds shows in labels only.**  For two lists with the same bounds, in any order and with any
repetition, the search of all teams comes to the same failure, or to two reports that differ in their checks alone; and
the checks of one bound, wherever it stands, differ in their labels alone, those that belong to no bound not at all. -/
theorem selectAmong_of_same_bounds {bounds bounds' : List Bound} (h : ∀ b, b ∈ bounds ↔ b ∈ bounds') (setup : Setup)
    (candidates : List Candidate) (objective : Objective) :
    (∃ e, selectAmong Engine.exhaustive setup candidates objective bounds = .error e ∧
      selectAmong Engine.exhaustive setup candidates objective bounds' = .error e) ∨
    ∃ report report', selectAmong Engine.exhaustive setup candidates objective bounds = .ok report ∧
      selectAmong Engine.exhaustive setup candidates objective bounds' = .ok report' ∧
      report' = { report with checks := report'.checks } ∧
      (∀ (k k' : Nat) (b : Bound), bounds[k]? = some b → bounds'[k']? = some b → ∃ check check',
        report.checks[k]? = some check ∧ report'.checks[k']? = some check' ∧
          check' = { check with label := check'.label }) ∧
      report'.checks.drop bounds'.length = report.checks.drop bounds.length := by
  have hscreen := screen_of_same_bounds h candidates objective
  unfold selectAmong
  rw [prepareAmong_eq, prepareAmong_eq, ← hscreen]
  cases Program.checkSize setup.roster (screen candidates objective bounds).eligible.length with
  | error e => exact Or.inl ⟨_, rfl, rfl⟩
  | ok u =>
    dsimp only [bind, Except.bind]
    rw [Prepared.exhaustive_of_same_bounds h]
    generalize Engine.exhaustive (Prepared.among setup candidates objective bounds).program = answer
    have hother := (Prepared.among setup candidates objective bounds).finish_of_rows
      (Prepared.among setup candidates objective bounds').program.rows answer
    rw [← Prepared.among_of_same_bounds h] at hother
    cases hfinish : (Prepared.among setup candidates objective bounds).finish answer with
    | error e =>
      rw [hfinish] at hother
      exact Or.inl ⟨e, rfl, hother⟩
    | ok report =>
      have hchecks := Prepared.checks_of_finish hfinish
      rw [hfinish] at hother
      dsimp only [Except.map] at hother
      -- both reports evaluate their rows at the point of one team
      generalize (Prepared.among setup candidates objective bounds).program.indicator (report.team.map Ranked.id) =
        point
        at hother hchecks
      refine Or.inr ⟨report, _, rfl, hother, rfl, fun k k' b hb hb' => ?_, ?_⟩
      · refine ⟨_, _, ?_, ?_, b.check_rowOver k k' (screen candidates objective bounds).eligible point⟩
        · rw [hchecks, List.getElem?_map, Prepared.getElem?_rows_among hb]
          rfl
        · rw [List.getElem?_map, Prepared.getElem?_rows_among hb', ← hscreen]
          rfl
      · rw [hchecks, ← List.map_drop, ← List.map_drop, Prepared.drop_rows_among, Prepared.drop_rows_among, hscreen]

/-- Of two bounds in either order, one of them also repeated. -/
theorem selectAmong_of_same_bounds_repeated : ∃ report report',
    selectAmong Engine.exhaustive ⟨.fixed 1, .binary⟩
      [⟨0, "Ada", .ofList [("a", 3.0)], .empty⟩, ⟨1, "Bob", .ofList [("a", 1.0)], .empty⟩] ⟨[⟨"a", 1.0⟩]⟩
      [⟨"a", .atMost, 2.0⟩, ⟨"a", .atLeast, 1.0⟩] = .ok report ∧
    selectAmong Engine.exhaustive ⟨.fixed 1, .binary⟩
      [⟨0, "Ada", .ofList [("a", 3.0)], .empty⟩, ⟨1, "Bob", .ofList [("a", 1.0)], .empty⟩] ⟨[⟨"a", 1.0⟩]⟩
      [⟨"a", .atLeast, 1.0⟩, ⟨"a", .atMost, 2.0⟩, ⟨"a", .atLeast, 1.0⟩] = .ok report' ∧
    report'.team = report.team ∧
    ∃ check check', report.checks[0]? = some check ∧ report'.checks[1]? = some check' ∧
      check' = { check with label := check'.label } := by
  generalize hcandidates : ([⟨0, "Ada", .ofList [("a", 3.0)], .empty⟩, ⟨1, "Bob", .ofList [("a", 1.0)], .empty⟩] :
    List Candidate) = candidates
  obtain ⟨report, h⟩ : ∃ report, selectAmong Engine.exhaustive ⟨.fixed 1, .binary⟩ candidates ⟨[⟨"a", 1.0⟩]⟩
      [⟨"a", .atMost, 2.0⟩, ⟨"a", .atLeast, 1.0⟩] = .ok report :=
    exists_eq_ok (by subst hcandidates; decide +kernel)
  have hsame : ∀ b : Bound, b ∈ ([⟨"a", .atMost, 2.0⟩, ⟨"a", .atLeast, 1.0⟩] : List Bound) ↔
      b ∈ ([⟨"a", .atLeast, 1.0⟩, ⟨"a", .atMost, 2.0⟩, ⟨"a", .atLeast, 1.0⟩] : List Bound) := by
    intro b
    simp only [List.mem_cons, List.not_mem_nil, or_false]
    tauto
  rcases selectAmong_of_same_bounds hsame ⟨.fixed 1, .binary⟩ candidates ⟨[⟨"a", 1.0⟩]⟩ with
    ⟨e, he, -⟩ | ⟨_, report', hreport, hreport', hrest, hchecks, -⟩
  · rw [h] at he
    cases he
  · rw [h] at hreport
    cases hreport
    exact ⟨report, report', h, hreport', by rw [hrest], hchecks 0 1 _ rfl rfl⟩

end Lineup
