import Lineup.Program
import Lineup.Proofs.Eligible
import Lineup.Proofs.Traversal
/-!
# Formulation — the program of complete candidates

Where every candidate has every metric that is named, no value is missing when a program is set up, so only a size that
no team can have stands in the way.  `Program.over` is the program that comes of it: the scores of the candidates in the
objective, their metrics in the rows.
-/
namespace Lineup

/-- The value of a metric that a candidate has, and 0 for another. -/
def Candidate.value (c : Candidate) (metric : String) : Float := (c.metric? metric).getD 0.0

theorem Candidate.required_eq_ok {c : Candidate} {metric : String} (h : (c.metric? metric).isSome = true) :
    c.required metric = .ok (c.value metric) := by
  unfold Candidate.required Candidate.value
  cases hv : c.metric? metric with
  | none => rw [hv] at h; cases h
  | some x => rfl

theorem Candidate.score_eq (c : Candidate) (objective : Objective) :
    c.score objective = objective.criteria.foldl (fun total k => total + k.weight * c.value k.metric) 0.0 := rfl

/-- **The coefficient of a complete candidate in the objective is its score.** -/
theorem Candidate.coefficient_eq_ok {c : Candidate} {objective : Objective} {bounds : List Bound}
    (h : c.Complete objective bounds) : c.coefficient objective = .ok (c.score objective) := by
  have hfold : ∀ (criteria : List Criterion) (total : Float), (∀ k ∈ criteria, (c.metric? k.metric).isSome = true) →
      criteria.foldlM (fun total k => return total + k.weight * (← c.required k.metric)) total =
        (.ok (criteria.foldl (fun total k => total + k.weight * c.value k.metric) total) :
          Except ProgramError Float) := by
    intro criteria
    induction criteria with
    | nil => intro total _; rfl
    | cons k criteria ih =>
      intro total hk
      rw [List.foldlM_cons, Candidate.required_eq_ok (hk k List.mem_cons_self)]
      exact ih _ fun k' hk' => hk k' (List.mem_cons_of_mem k hk')
  exact hfold objective.criteria 0.0 fun k hk => h.criterion hk

def Bound.rowOver (b : Bound) (ordinal : Nat) (candidates : List Candidate) : Row :=
  ⟨s!"{b.metric}_{b.sense.shortName}_{ordinal}", candidates.map fun c => c.value b.metric, b.sense, b.threshold⟩

theorem Bound.row_eq_ok {b : Bound} {candidates : List Candidate} (ordinal : Nat)
    (h : ∀ c ∈ candidates, (c.metric? b.metric).isSome = true) :
    b.row ordinal candidates = .ok (b.rowOver ordinal candidates) := by
  unfold Bound.row
  rw [mapM_eq_ok (g := fun c => c.value b.metric) candidates fun c hc => Candidate.required_eq_ok (h c hc)]
  rfl

def Roster.rows (roster : Roster) (count : Nat) : List Row :=
  match roster with
  | .fixed size => [Row.teamSize size count]
  | .unbounded => []

theorem Roster.mem_rows {roster : Roster} {count : Nat} {row : Row} :
    row ∈ roster.rows count ↔ ∃ size, roster = .fixed size ∧ row = Row.teamSize size count := by
  cases roster with
  | fixed size => simp [rows]
  | unbounded => simp [rows]

def Program.over (candidates : List Candidate) (objective : Objective) (bounds : List Bound) (roster : Roster)
    (mode : Mode) : Program :=
  ⟨mode, roster, candidates.map Candidate.id, candidates.map fun c => c.score objective,
    (bounds.zipIdx.map fun (b, ordinal) => b.rowOver ordinal candidates) ++ roster.rows candidates.length⟩

theorem Program.ofCandidates_of_checkSize {candidates : List Candidate} {objective : Objective} {bounds : List Bound}
    {roster : Roster} {mode : Mode} {e : ProgramError} (h : Program.checkSize roster candidates.length = .error e) :
    Program.ofCandidates candidates objective bounds roster mode = .error e := by
  unfold Program.ofCandidates
  rw [h]
  rfl

/-- **Complete candidates have a program unless the size of the team forbids it.** -/
theorem Program.ofCandidates_eq_ok {candidates : List Candidate} {objective : Objective} {bounds : List Bound}
    {roster : Roster} {mode : Mode} {p : Program} (h : ∀ c ∈ candidates, c.Complete objective bounds) :
    Program.ofCandidates candidates objective bounds roster mode = .ok p ↔
      Program.checkSize roster candidates.length = .ok () ∧
        p = Program.over candidates objective bounds roster mode := by
  have hobjective := mapM_eq_ok (g := fun c => c.score objective) candidates fun c hc =>
    Candidate.coefficient_eq_ok (h c hc)
  have hrows := mapM_eq_ok (f := fun (b, ordinal) => b.row ordinal candidates)
    (g := fun (b, ordinal) => b.rowOver ordinal candidates) bounds.zipIdx fun (b, ordinal) hb =>
      Bound.row_eq_ok ordinal fun c hc => (h c hc).bound (List.fst_mem_of_mem_zipIdx hb)
  cases hsize : Program.checkSize roster candidates.length with
  | error e =>
    rw [Program.ofCandidates_of_checkSize hsize]
    exact ⟨nofun, fun h => nomatch h.1⟩
  | ok u =>
    unfold Program.ofCandidates
    rw [hsize, hobjective, hrows]
    constructor
    · intro hp
      cases hp
      cases roster <;> exact ⟨rfl, rfl⟩
    · rintro ⟨-, rfl⟩
      cases roster <;> rfl

theorem Program.getElem?_rows_over {candidates : List Candidate} {objective : Objective} {bounds : List Bound}
    {roster : Roster} {mode : Mode} {k : Nat} {b : Bound} (h : bounds[k]? = some b) :
    (Program.over candidates objective bounds roster mode).rows[k]? = some (b.rowOver k candidates) := by
  have hk := (List.getElem?_eq_some_iff.1 h).1
  unfold Program.over
  dsimp only
  rw [List.getElem?_append_left (by rwa [List.length_map, List.length_zipIdx]), List.getElem?_map,
    List.getElem?_zipIdx, h]
  simp

theorem Program.drop_rows_over (candidates : List Candidate) (objective : Objective) (bounds : List Bound)
    (roster : Roster) (mode : Mode) :
    (Program.over candidates objective bounds roster mode).rows.drop bounds.length = roster.rows candidates.length :=
  List.drop_left' (by rw [List.length_map, List.length_zipIdx])

theorem Program.length_coefficients_over {candidates : List Candidate} {objective : Objective} {bounds : List Bound}
    {roster : Roster} {mode : Mode} {row : Row}
    (h : row ∈ (Program.over candidates objective bounds roster mode).rows) :
    row.coefficients.length = candidates.length := by
  rcases List.mem_append.1 h with hbound | hsize
  · obtain ⟨⟨b, ordinal⟩, -, rfl⟩ := List.mem_map.1 hbound
    exact List.length_map _
  · obtain ⟨size, -, rfl⟩ := Roster.mem_rows.1 hsize
    exact List.length_replicate

/-! ## The size of a team -/

structure Roster.Fits (roster : Roster) (count : Nat) : Prop where
  ne_zero : roster ≠ .fixed 0
  size_le : ∀ size, roster = .fixed size → size ≤ count
  pos : 0 < count

theorem Program.checkSize_eq_ok {roster : Roster} {count : Nat} :
    Program.checkSize roster count = .ok () ↔ roster.Fits count := by
  cases roster with
  | unbounded =>
    have hcheck : Program.checkSize .unbounded count = if count = 0 then .error .noCandidates else .ok () := rfl
    rw [hcheck]
    split
    · rename_i hzero
      exact ⟨nofun, fun hfits => absurd hzero (Nat.ne_of_gt hfits.pos)⟩
    · rename_i hzero
      exact ⟨fun _ => ⟨nofun, nofun, Nat.pos_of_ne_zero hzero⟩, fun _ => rfl⟩
  | fixed size =>
    cases size with
    | zero => exact ⟨nofun, fun hfits => absurd rfl hfits.ne_zero⟩
    | succ size =>
      have hcheck : Program.checkSize (.fixed (size + 1)) count =
          if count < size + 1 then .error (.tooFewCandidates (size + 1) count) else .ok () := rfl
      rw [hcheck]
      split
      · rename_i hfew
        exact ⟨nofun, fun hfits => absurd (hfits.size_le _ rfl) (Nat.not_le_of_lt hfew)⟩
      · rename_i hfew
        refine ⟨fun _ => ⟨nofun, fun size' hsize => ?_, by omega⟩, fun _ => rfl⟩
        cases hsize
        exact Nat.le_of_not_lt hfew

end Lineup
