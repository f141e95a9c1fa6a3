import Lineup.Proofs.Cells
import Lineup.Proofs.Number.Counting
import Lineup.Proofs.Reading
/-!
# Prepared — the numbers in a program

The rows of a program hold what was read: metrics of candidates, thresholds, and the ones and the size of a team.  So
they are finite, whatever the sums over them may come to.
-/
namespace Lineup

namespace Prepared.Of

variable {p : Prepared} {setup : Setup} {table : Table} {request : Request} {catalog : Catalog} {bounds : List Bound}
  {candidates : List Candidate}

theorem contains_metric (h : p.Of setup table request catalog bounds candidates) {metric : String}
    (hm : metric ∈ p.objective.metrics ++ bounds.map Bound.metric) : catalog.contains metric = true :=
  Request.contains_of_read h.objective_eq h.bounds_eq hm

theorem mem_candidates (h : p.Of setup table request catalog bounds candidates) {c : Candidate}
    (hc : c ∈ p.screening.eligible) : c ∈ candidates := by
  rw [h.screening_eq] at hc
  exact (mem_eligible.1 hc).1

/-- **A candidate that takes part has the number of its record under each metric that is named.** -/
theorem numberOf?_eq (h : p.Of setup table request catalog bounds candidates) {c : Candidate}
    (hc : c ∈ p.screening.eligible) {metric : String} (hm : metric ∈ p.objective.metrics ++ bounds.map Bound.metric) :
    table.numberOf? c.id metric = some (c.value metric) := by
  have hcomplete : (c.metric? metric).isSome = true := by
    rw [h.screening_eq] at hc
    exact (mem_eligible.1 hc).2.2 metric hm
  rw [← Candidate.metric?_eq h.catalog_eq h.candidates_eq (h.mem_candidates hc) (h.contains_metric hm)]
  unfold Candidate.value
  cases hv : c.metric? metric with
  | none => rw [hv] at hcomplete; cases hcomplete
  | some x => rfl

theorem isFinite_value (h : p.Of setup table request catalog bounds candidates) {c : Candidate}
    (hc : c ∈ p.screening.eligible) {metric : String} (hm : metric ∈ p.objective.metrics ++ bounds.map Bound.metric) :
    (c.value metric).isFinite = true :=
  isFinite_of_numberOf? (h.numberOf?_eq hc hm)

theorem rows_eq (h : p.Of setup table request catalog bounds candidates) :
    p.program.rows = (bounds.zipIdx.map fun (b, ordinal) => b.rowOver ordinal p.screening.eligible) ++
      p.setup.roster.rows p.screening.eligible.length := by
  rw [h.program_eq]
  rfl

theorem getElem?_rows (h : p.Of setup table request catalog bounds candidates) {k : Nat} {b : Bound}
    (hb : bounds[k]? = some b) : p.program.rows[k]? = some (b.rowOver k p.screening.eligible) := by
  rw [h.program_eq]
  exact Program.getElem?_rows_over hb

theorem mem_rows (h : p.Of setup table request catalog bounds candidates) {row : Row} :
    row ∈ p.program.rows ↔ (∃ b ∈ bounds, ∃ ordinal, (b, ordinal) ∈ bounds.zipIdx ∧
      row = b.rowOver ordinal p.screening.eligible) ∨
        ∃ size, p.setup.roster = .fixed size ∧ row = Row.teamSize size p.screening.eligible.length := by
  rw [h.rows_eq, List.mem_append, List.mem_map, Roster.mem_rows]
  refine or_congr_left ⟨?_, ?_⟩
  · rintro ⟨⟨b, ordinal⟩, hmem, rfl⟩
    exact ⟨b, List.fst_mem_of_mem_zipIdx hmem, ordinal, hmem, rfl⟩
  · rintro ⟨b, -, ordinal, hmem, rfl⟩
    exact ⟨(b, ordinal), hmem, rfl⟩

theorem isFinite_coefficient (h : p.Of setup table request catalog bounds candidates) {row : Row}
    (hrow : row ∈ p.program.rows) {a : Float} (ha : a ∈ row.coefficients) : a.isFinite = true := by
  rcases h.mem_rows.1 hrow with ⟨b, hb, ordinal, -, rfl⟩ | ⟨size, -, rfl⟩
  · obtain ⟨c, hc, rfl⟩ := List.mem_map.1 ha
    exact h.isFinite_value hc (List.mem_append_right _ (List.mem_map_of_mem hb))
  · rw [List.eq_of_mem_replicate ha]
    exact Number.isFinite_one

/-- The thresholds are finite; what is left is the size of the team, which the team must equal. -/
theorem isFinite_rhs_or_equal (h : p.Of setup table request catalog bounds candidates) {row : Row}
    (hrow : row ∈ p.program.rows) : row.rhs.isFinite = true ∨ row.sense = .equal := by
  rcases h.mem_rows.1 hrow with ⟨b, hb, ordinal, -, rfl⟩ | ⟨size, -, rfl⟩
  · exact Or.inl (Request.of_readBounds h.bounds_eq b hb).1
  · exact Or.inr rfl

theorem teamSize_mem_rows (h : p.Of setup table request catalog bounds candidates) {size : Nat}
    (hroster : p.setup.roster = .fixed size) : Row.teamSize size p.program.ids.length ∈ p.program.rows := by
  rw [h.length_ids]
  exact h.mem_rows.2 (Or.inr ⟨size, hroster, rfl⟩)

end Prepared.Of

end Lineup
