import Lineup.Proofs.Failures
/-!
# Among — a selection among candidates

Once a catalog, an objective and bounds have been read, a selection depends on the table for its candidates only.  What
is left are the stages from the screening on; of these only the size of the team stands between the candidates and a
program.
-/
namespace Lineup

def prepareAmong (setup : Setup) (candidates : List Candidate) (objective : Objective) (bounds : List Bound) :
    Except SelectionError Prepared := do
  let screening := screen candidates objective bounds
  let program ← (Program.ofCandidates screening.eligible objective bounds setup.roster setup.mode).mapError .program
  return ⟨setup, objective, screening, program⟩

def selectAmong (engine : Engine) (setup : Setup) (candidates : List Candidate) (objective : Objective)
    (bounds : List Bound) : Except SelectionError Report := do
  let prepared ← prepareAmong setup candidates objective bounds
  prepared.finish (engine prepared.program)

theorem prepare_eq_among (setup : Setup) (table : Table) (request : Request) :
    prepare setup table request = (do
      let catalog ← table.catalog
      let objective ← (Objective.read catalog request.criteria).mapError .expression
      let bounds ← (request.readBounds catalog).mapError .expression
      let candidates ← (table.candidates catalog).mapError .schema
      prepareAmong (setup.override request.roster request.mode) candidates objective bounds) := rfl

/-- **A selection reads, and then selects among the candidates.** -/
theorem select_eq_among (engine : Engine) (setup : Setup) (table : Table) (request : Request) :
    select engine setup table request = (do
      let catalog ← table.catalog
      let objective ← (Objective.read catalog request.criteria).mapError .expression
      let bounds ← (request.readBounds catalog).mapError .expression
      let candidates ← (table.candidates catalog).mapError .schema
      selectAmong engine (setup.override request.roster request.mode) candidates objective bounds) := by
  unfold select selectAmong
  rw [prepare_eq_among]
  simp only [bind_assoc]

def Prepared.among (setup : Setup) (candidates : List Candidate) (objective : Objective) (bounds : List Bound) :
    Prepared :=
  ⟨setup, objective, screen candidates objective bounds,
    .over (screen candidates objective bounds).eligible objective bounds setup.roster setup.mode⟩

/-- **Only the size of the team stands in the way of a program.** -/
theorem prepareAmong_eq (setup : Setup) (candidates : List Candidate) (objective : Objective) (bounds : List Bound) :
    prepareAmong setup candidates objective bounds =
      match Program.checkSize setup.roster (screen candidates objective bounds).eligible.length with
      | .error e => .error (.program e)
      | .ok () => .ok (.among setup candidates objective bounds) := by
  have hcomplete : ∀ c ∈ (screen candidates objective bounds).eligible, c.Complete objective bounds :=
    fun c hc => (mem_eligible.1 hc).2.2
  unfold prepareAmong
  dsimp only
  cases hsize : Program.checkSize setup.roster (screen candidates objective bounds).eligible.length with
  | error e =>
    rw [(Program.ofCandidates_eq_error hcomplete).2 hsize]
    rfl
  | ok u =>
    rw [(Program.ofCandidates_eq_ok hcomplete).2 ⟨hsize, rfl⟩]
    rfl

end Lineup
