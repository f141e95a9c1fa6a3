import Lineup.Proofs.Columns
import Lineup.Proofs.Stages
/-!
# Failures — which stage a failure comes from

A selection stops at the first stage that fails, whatever is wrong with the later ones.  Some failures that the types
allow cannot occur: after the catalog no column can be missing, a candidate that takes part has every value that its
program needs, and an engine that fails does not call its answer optimal.
-/
namespace Lineup

/-! ## Before the engine -/

theorem Table.exists_candidates {table : Table} {catalog : Catalog}
    (h : Catalog.ofColumns table.columns = .ok catalog) :
    ∃ candidates, table.candidates catalog = .ok candidates := by
  obtain ⟨nameIndex, hindex, -⟩ := Catalog.exists_nameIndex h
  unfold Table.candidates
  rw [hindex]
  exact ⟨_, rfl⟩

theorem Program.checkSize_eq_error {roster : Roster} {eligible : Nat} {e : ProgramError} :
    Program.checkSize roster eligible = .error e ↔ (roster = .fixed 0 ∧ e = .emptyTeam) ∨
      (∃ size, roster = .fixed size ∧ 0 < size ∧ eligible < size ∧ e = .tooFewCandidates size eligible) ∨
      (roster = .unbounded ∧ eligible = 0 ∧ e = .noCandidates) := by
  cases roster with
  | unbounded => by_cases h : eligible = 0 <;> simp [checkSize, h, eq_comm]
  | fixed size =>
    cases size with
    | zero => simp [checkSize, eq_comm]
    | succ size => by_cases h : eligible < size + 1 <;> simp [checkSize, h, eq_comm]

theorem Program.ofCandidates_eq_error {candidates : List Candidate} {objective : Objective} {bounds : List Bound}
    {roster : Roster} {mode : Mode} {e : ProgramError} (h : ∀ c ∈ candidates, c.Complete objective bounds) :
    Program.ofCandidates candidates objective bounds roster mode = .error e ↔
      Program.checkSize roster candidates.length = .error e := by
  cases hsize : Program.checkSize roster candidates.length with
  | error e' => rw [ofCandidates_of_checkSize hsize, Except.error.injEq, Except.error.injEq]
  | ok u =>
    have hover := (Program.ofCandidates_eq_ok (p := .over candidates objective bounds roster mode) h).2 ⟨hsize, rfl⟩
    rw [hover]
    simp

/-- **The first stage that fails before the engine.** -/
theorem prepare_eq_error {setup : Setup} {table : Table} {request : Request} {e : SelectionError} :
    prepare setup table request = .error e ↔
      (∃ s, Catalog.ofColumns table.columns = .error s ∧ e = .schema s) ∨
      ∃ catalog, Catalog.ofColumns table.columns = .ok catalog ∧
        ((∃ x, Objective.read catalog request.criteria = .error x ∧ e = .expression x) ∨
        ∃ objective, Objective.read catalog request.criteria = .ok objective ∧
          ((∃ x, request.readBounds catalog = .error x ∧ e = .expression x) ∨
          ∃ bounds, request.readBounds catalog = .ok bounds ∧
            ∃ candidates, table.candidates catalog = .ok candidates ∧
              ∃ x, Program.checkSize (setup.override request.roster request.mode).roster
                (screen candidates objective bounds).eligible.length = .error x ∧ e = .program x)) := by
  unfold prepare Table.catalog
  simp only [bind_eq_error, mapError_eq_error, mapError_eq_ok]
  refine or_congr_right (exists_congr fun catalog => and_congr_right fun hcatalog => or_congr_right
    (exists_congr fun objective => and_congr_right fun _ => or_congr_right (exists_congr fun bounds =>
      and_congr_right fun _ => ?_)))
  obtain ⟨candidates, hcandidates⟩ := Table.exists_candidates hcatalog
  simp only [hcandidates, Program.ofCandidates_eq_error fun c hc => (mem_eligible.1 hc).2.2]
  simp [pure, Except.pure]

/-! ## After the engine -/

/-- **Why an answer is refused**: for its status, or else for its length, or else for a value that is not finite. -/
theorem Program.assignment_eq_error {p : Program} {answer : Answer} {failure : SolveFailure} :
    p.assignment answer = .error failure ↔
      (answer.status ≠ .optimal ∧ failure = ⟨answer.status, answer.message⟩) ∨
      (answer.status = .optimal ∧ answer.values.length ≠ p.ids.length ∧ failure = ⟨.notSolved,
        some s!"engine returned {answer.values.length} values for {p.ids.length} variables"⟩) ∨
      (answer.status = .optimal ∧ answer.values.length = p.ids.length ∧ answer.values.all Float.isFinite = false ∧
        failure = ⟨.notSolved, some "engine returned a non-finite value"⟩) := by
  unfold Program.assignment
  constructor
  · intro h
    split at h
    · rename_i hstatus
      cases h
      exact Or.inl ⟨hstatus, rfl⟩
    · rename_i hstatus
      split at h
      · rename_i hlength
        cases h
        exact Or.inr (Or.inl ⟨Decidable.of_not_not hstatus, hlength, rfl⟩)
      · rename_i hlength
        split at h
        · rename_i hfinite
          cases h
          exact Or.inr (Or.inr ⟨Decidable.of_not_not hstatus, Decidable.of_not_not hlength,
            (Bool.not_eq_true' _).mp hfinite, rfl⟩)
        · cases h
  · rintro (⟨hstatus, rfl⟩ | ⟨hstatus, hlength, rfl⟩ | ⟨hstatus, hlength, hfinite, rfl⟩)
    · exact if_pos hstatus
    · rw [if_neg (not_not_intro hstatus), if_pos hlength]
    · rw [if_neg (not_not_intro hstatus), if_neg (not_not_intro hlength), hfinite]
      rfl

theorem Program.status_of_assignment {p : Program} {answer : Answer} {failure : SolveFailure}
    (h : p.assignment answer = .error failure) : failure.status ≠ .optimal := by
  rcases Program.assignment_eq_error.1 h with ⟨hstatus, rfl⟩ | ⟨-, -, rfl⟩ | ⟨-, -, -, rfl⟩
  · exact hstatus
  · exact nofun
  · exact nofun

theorem Prepared.finish_eq_error {p : Prepared} {answer : Answer} {e : SelectionError} :
    p.finish answer = .error e ↔ ∃ failure, p.program.assignment answer = .error failure ∧ e = .solve failure := by
  unfold finish
  simp only [bind_eq_error, mapError_eq_error, mapError_eq_ok]
  simp [pure, Except.pure]

theorem select_eq_error {engine : Engine} {setup : Setup} {table : Table} {request : Request} {e : SelectionError} :
    select engine setup table request = .error e ↔ prepare setup table request = .error e ∨
      ∃ p, prepare setup table request = .ok p ∧
        ∃ failure, p.program.assignment (engine p.program) = .error failure ∧ e = .solve failure := by
  unfold select
  simp only [bind_eq_error, Prepared.finish_eq_error]

/-! ## All failures -/

/-- What a request means to a table: a catalog, an objective and bounds read against it, and the candidates. -/
structure Request.Reads (request : Request) (table : Table) (catalog : Catalog) (objective : Objective)
    (bounds : List Bound) (candidates : List Candidate) : Prop where
  catalog_eq : Catalog.ofColumns table.columns = .ok catalog
  objective_eq : Objective.read catalog request.criteria = .ok objective
  bounds_eq : request.readBounds catalog = .ok bounds
  candidates_eq : table.candidates catalog = .ok candidates

theorem select_program_error {engine : Engine} {setup : Setup} {table : Table} {request : Request} {x : ProgramError} :
    select engine setup table request = .error (.program x) ↔ ∃ catalog objective bounds candidates,
      request.Reads table catalog objective bounds candidates ∧
        Program.checkSize (setup.override request.roster request.mode).roster
          (screen candidates objective bounds).eligible.length = .error x := by
  simp only [select_eq_error, prepare_eq_error, reduceCtorEq, and_false, exists_false, false_or, or_false,
    SelectionError.program.injEq]
  constructor
  · rintro ⟨catalog, hcatalog, objective, hobjective, bounds, hbounds, candidates, hcandidates, _, hsize, rfl⟩
    exact ⟨catalog, objective, bounds, candidates, ⟨hcatalog, hobjective, hbounds, hcandidates⟩, hsize⟩
  · rintro ⟨catalog, objective, bounds, candidates, ⟨hcatalog, hobjective, hbounds, hcandidates⟩, hsize⟩
    exact ⟨catalog, hcatalog, objective, hobjective, bounds, hbounds, candidates, hcandidates, x, hsize, rfl⟩

/-- **A selection fails at the first stage that fails.**  The errors of the catalog, of the criteria, of the bounds, of
the program and of the engine each say that all earlier stages have passed, whatever the later ones would come to.  A
program fails for the size of the team alone, and never for a missing value; a refused answer is not optimal. -/
theorem select_fails_at_first_stage (engine : Engine) (setup : Setup) (table : Table) (request : Request) :
    (∀ e, select engine setup table request = .error (.schema e) ↔ Catalog.ofColumns table.columns = .error e) ∧
    (∀ e, select engine setup table request = .error (.expression e) ↔
      ∃ catalog, Catalog.ofColumns table.columns = .ok catalog ∧ (Objective.read catalog request.criteria = .error e ∨
        ∃ objective, Objective.read catalog request.criteria = .ok objective ∧ request.readBounds catalog = .error e)) ∧
    (select engine setup table request = .error (.program .emptyTeam) ↔ ∃ catalog objective bounds candidates,
      request.Reads table catalog objective bounds candidates ∧
        (setup.override request.roster request.mode).roster = .fixed 0) ∧
    (∀ size eligible, select engine setup table request = .error (.program (.tooFewCandidates size eligible)) ↔
      ∃ catalog objective bounds candidates, request.Reads table catalog objective bounds candidates ∧
        (setup.override request.roster request.mode).roster = .fixed size ∧ 1 ≤ size ∧ eligible < size ∧
        eligible = (screen candidates objective bounds).eligible.length) ∧
    (select engine setup table request = .error (.program .noCandidates) ↔ ∃ catalog objective bounds candidates,
      request.Reads table catalog objective bounds candidates ∧
        (setup.override request.roster request.mode).roster = .unbounded ∧
        (screen candidates objective bounds).eligible = []) ∧
    (∀ id metric, select engine setup table request ≠ .error (.program (.missingValue id metric))) ∧
    (∀ failure, select engine setup table request = .error (.solve failure) ↔
      ∃ (p : Prepared) (catalog : Catalog) (bounds : List Bound) (candidates : List Candidate),
        p.Of setup table request catalog bounds candidates ∧
        p.program.assignment (engine p.program) = .error failure) ∧
    (∀ failure, select engine setup table request = .error (.solve failure) → failure.status ≠ .optimal) ∧
    ∀ e, select engine setup table request ≠ .error (.source e) := by
  have hsolve : ∀ failure, select engine setup table request = .error (.solve failure) ↔
      ∃ (p : Prepared) (catalog : Catalog) (bounds : List Bound) (candidates : List Candidate),
        p.Of setup table request catalog bounds candidates ∧
        p.program.assignment (engine p.program) = .error failure := by
    intro failure
    simp [select_eq_error, prepare_eq_error, prepare_eq_ok]
  refine ⟨fun e => ?_, fun e => ?_, ?_, fun size eligible => ?_, ?_, fun id metric => ?_, hsolve, fun failure h => ?_,
    fun e => ?_⟩
  · simp [select_eq_error, prepare_eq_error]
  · simp [select_eq_error, prepare_eq_error]
  · simp [select_program_error, Program.checkSize_eq_error]
  · simp only [select_program_error, Program.checkSize_eq_error]
    refine exists_congr fun catalog => exists_congr fun objective => exists_congr fun bounds =>
      exists_congr fun candidates => and_congr_right fun _ => ?_
    constructor
    · rintro (⟨-, h⟩ | ⟨size', hroster, hpos, hlt, h⟩ | ⟨-, -, h⟩)
      · cases h
      · cases h
        exact ⟨hroster, hpos, hlt, rfl⟩
      · cases h
    · rintro ⟨hroster, hpos, hlt, rfl⟩
      exact Or.inr (Or.inl ⟨size, hroster, hpos, hlt, rfl⟩)
  · simp [select_program_error, Program.checkSize_eq_error, List.length_eq_zero_iff]
  · simp [select_program_error, Program.checkSize_eq_error]
  · obtain ⟨p, catalog, bounds, candidates, -, hrefused⟩ := (hsolve failure).1 h
    exact Program.status_of_assignment hrefused
  · simp [select_eq_error, prepare_eq_error]

end Lineup
