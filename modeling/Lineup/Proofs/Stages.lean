import Lineup.Proofs.Formulation
import Lineup.Selection
/-!
# Stages — what stands behind a report

A selection succeeds exactly when all of its stages do.  `Prepared.Of` says what each of the stages before the engine
has come to; the engine's answer then either becomes an assignment, and with it a report, or is the reason for a
failure.
-/
namespace Lineup

/-! ## Before the engine -/

/-- **What a selection that is ready for an engine has come from**: a catalog, an objective and bounds read against it,
the candidates of the table, and their screening. -/
structure Prepared.Of (p : Prepared) (setup : Setup) (table : Table) (request : Request) (catalog : Catalog)
    (bounds : List Bound) (candidates : List Candidate) : Prop where
  setup_eq : p.setup = setup.override request.roster request.mode
  catalog_eq : table.catalog = .ok catalog
  objective_eq : Objective.read catalog request.criteria = .ok p.objective
  bounds_eq : request.readBounds catalog = .ok bounds
  candidates_eq : table.candidates catalog = .ok candidates
  screening_eq : p.screening = screen candidates p.objective bounds
  size_ok : Program.checkSize p.setup.roster p.screening.eligible.length = .ok ()
  program_eq : p.program = Program.over p.screening.eligible p.objective bounds p.setup.roster p.setup.mode

theorem prepare_eq_ok {setup : Setup} {table : Table} {request : Request} {p : Prepared} :
    prepare setup table request = .ok p ↔
      ∃ catalog bounds candidates, p.Of setup table request catalog bounds candidates := by
  have hcomplete : ∀ (candidates : List Candidate) (objective : Objective) (bounds : List Bound),
      ∀ c ∈ (screen candidates objective bounds).eligible, c.Complete objective bounds :=
    fun _ _ _ c hc => (mem_eligible.1 hc).2.2
  unfold prepare
  simp only [bind_eq_ok, mapError_eq_ok]
  constructor
  · rintro ⟨catalog, hcatalog, objective, hobjective, bounds, hbounds, candidates, hcandidates, program, hprogram, hp⟩
    cases hp
    obtain ⟨hsize, hover⟩ := (Program.ofCandidates_eq_ok (hcomplete _ _ _)).1 hprogram
    exact ⟨catalog, bounds, candidates, rfl, hcatalog, hobjective, hbounds, hcandidates, rfl, hsize, hover⟩
  · rintro ⟨catalog, bounds, candidates, h⟩
    obtain ⟨psetup, objective, screening, program⟩ := p
    obtain ⟨hsetup, hcatalog, hobjective, hbounds, hcandidates, hscreening, hsize, hprogram⟩ := h
    dsimp only at hsetup hobjective hscreening hsize hprogram
    subst hsetup hscreening
    exact ⟨catalog, hcatalog, objective, hobjective, bounds, hbounds, candidates, hcandidates, program,
      (Program.ofCandidates_eq_ok (hcomplete _ _ _)).2 ⟨hsize, hprogram⟩, rfl⟩

namespace Prepared.Of

variable {p : Prepared} {setup : Setup} {table : Table} {request : Request} {catalog : Catalog} {bounds : List Bound}
  {candidates : List Candidate}

theorem ids (h : p.Of setup table request catalog bounds candidates) :
    p.program.ids = p.screening.eligible.map Candidate.id := by
  rw [h.program_eq]
  rfl

theorem length_ids (h : p.Of setup table request catalog bounds candidates) :
    p.program.ids.length = p.screening.eligible.length := by
  rw [h.ids, List.length_map]

theorem size_le (h : p.Of setup table request catalog bounds candidates) {size : Nat}
    (hroster : p.setup.roster = .fixed size) : size ≤ p.program.ids.length := by
  rw [h.length_ids]
  exact (Program.checkSize_eq_ok.1 h.size_ok).size_le size hroster

theorem nodup_ids (h : p.Of setup table request catalog bounds candidates) : p.program.ids.Nodup := by
  rw [h.ids, h.screening_eq]
  exact Table.nodup_ids_eligible h.candidates_eq _ _

theorem length_ids_le (h : p.Of setup table request catalog bounds candidates) :
    p.program.ids.length ≤ table.records.length := by
  have hids := congrArg List.length (Table.ids_candidates h.candidates_eq)
  rw [List.length_map, List.length_range] at hids
  rw [h.length_ids, h.screening_eq, ← hids]
  exact List.length_filter_le _ _

end Prepared.Of

/-! ## After the engine -/

theorem Program.assignment_eq_ok {p : Program} {answer : Answer} {assignment : Assignment} :
    p.assignment answer = .ok assignment ↔ answer.status = .optimal ∧ answer.values.length = p.ids.length ∧
      answer.values.all Float.isFinite = true ∧
      assignment = ⟨.ofList (p.ids.zip answer.values), p.objectiveValue answer.values⟩ := by
  unfold Program.assignment
  constructor
  · intro h
    split at h
    · cases h
    · rename_i hstatus
      split at h
      · cases h
      · rename_i hlength
        split at h
        · cases h
        · rename_i hfinite
          cases h
          exact ⟨Decidable.of_not_not hstatus, Decidable.of_not_not hlength, by simpa using hfinite, rfl⟩
  · rintro ⟨hstatus, hlength, hfinite, rfl⟩
    rw [if_neg (fun h => h hstatus), if_neg (fun h => h hlength), hfinite]
    rfl

namespace Prepared

def team (p : Prepared) (values : List Float) : List Ranked :=
  rank p.screening.eligible ⟨.ofList (p.program.ids.zip values), p.program.objectiveValue values⟩ p.objective
    p.setup.mode p.setup.roster

def report (p : Prepared) (values : List Float) : Report :=
  Report.assemble p.program ⟨.ofList (p.program.ids.zip values), p.program.objectiveValue values⟩ (p.team values)
    p.screening.excluded

theorem checks_report (p : Prepared) (values : List Float) : (p.report values).checks =
    p.program.rows.map (·.check (p.program.indicator ((p.team values).map Ranked.id))) := rfl

/-- **A report needs an optimal answer with one finite value for each variable.** -/
theorem finish_eq_ok {p : Prepared} {answer : Answer} {report : Report} :
    p.finish answer = .ok report ↔ answer.status = .optimal ∧ answer.values.length = p.program.ids.length ∧
      answer.values.all Float.isFinite = true ∧ report = p.report answer.values := by
  unfold finish
  simp only [bind_eq_ok, mapError_eq_ok, Program.assignment_eq_ok]
  constructor
  · rintro ⟨assignment, ⟨hstatus, hlength, hfinite, rfl⟩, hr⟩
    cases hr
    exact ⟨hstatus, hlength, hfinite, rfl⟩
  · rintro ⟨hstatus, hlength, hfinite, rfl⟩
    exact ⟨_, ⟨hstatus, hlength, hfinite, rfl⟩, rfl⟩

end Prepared

theorem select_of_prepare {engine : Engine} {setup : Setup} {table : Table} {request : Request} {p : Prepared}
    (h : prepare setup table request = .ok p) :
    select engine setup table request = p.finish (engine p.program) := by
  unfold select
  rw [h]
  rfl

/-- **A report comes of a prepared selection and an answer that is an assignment.** -/
theorem select_eq_ok {engine : Engine} {setup : Setup} {table : Table} {request : Request} {report : Report} :
    select engine setup table request = .ok report ↔
      ∃ p, prepare setup table request = .ok p ∧ p.finish (engine p.program) = .ok report := by
  unfold select
  exact bind_eq_ok

end Lineup
