import Mathlib.Data.List.Basic
import Lineup.Screening
/-!
# Eligible — who takes part, and who is set aside

The candidates of a table have the numbers of their records as ids, so a list of them without repetition stays one when
some are set aside, and its ids stay in ascending order.  Screening splits the candidates in two; those that take part
have a name and a value for every metric that is named.
-/
namespace Lineup

theorem mem_referencedMetrics {objective : Objective} {bounds : List Bound} {metric : String} :
    metric ∈ referencedMetrics objective bounds ↔ metric ∈ objective.metrics ++ bounds.map Bound.metric := by
  unfold referencedMetrics
  rw [Std.TreeSet.mem_toList, Std.TreeSet.mem_ofList, List.contains_iff_mem]

theorem pairwise_referencedMetrics (objective : Objective) (bounds : List Bound) :
    (referencedMetrics objective bounds).Pairwise (· < ·) := by
  have hordered : (referencedMetrics objective bounds).Pairwise fun a b => compare a b = .lt :=
    Std.TreeSet.ordered_toList
  exact hordered.imp compareOfLessAndEq_eq_lt.1

namespace Candidate

def Complete (c : Candidate) (objective : Objective) (bounds : List Bound) : Prop :=
  ∀ metric ∈ objective.metrics ++ bounds.map Bound.metric, (c.metric? metric).isSome = true

theorem Complete.criterion {c : Candidate} {objective : Objective} {bounds : List Bound}
    (h : c.Complete objective bounds) {k : Criterion} (hk : k ∈ objective.criteria) :
    (c.metric? k.metric).isSome = true :=
  h _ (List.mem_append_left _ (List.mem_map_of_mem hk))

theorem Complete.bound {c : Candidate} {objective : Objective} {bounds : List Bound} (h : c.Complete objective bounds)
    {b : Bound} (hb : b ∈ bounds) : (c.metric? b.metric).isSome = true :=
  h _ (List.mem_append_right _ (List.mem_map_of_mem hb))

theorem lacks_isEmpty {c : Candidate} {objective : Objective} {bounds : List Bound} :
    (c.lacks (referencedMetrics objective bounds)).isEmpty = true ↔
      Text.allBlank c.name = false ∧ c.Complete objective bounds := by
  unfold lacks
  rw [List.isEmpty_iff, List.append_eq_nil_iff, List.filter_eq_nil_iff]
  constructor
  · rintro ⟨hname, hmetrics⟩
    refine ⟨?_, fun metric hm => ?_⟩
    · cases hb : Text.allBlank c.name with
      | false => rfl
      | true => rw [hb] at hname; cases hname
    · have := hmetrics metric (mem_referencedMetrics.2 hm)
      cases hv : c.metric? metric with
      | none => rw [hv] at this; exact absurd rfl this
      | some x => rfl
  · rintro ⟨hname, hcomplete⟩
    refine ⟨by rw [hname]; rfl, fun metric hm => ?_⟩
    have := hcomplete metric (mem_referencedMetrics.1 hm)
    cases hv : c.metric? metric with
    | none => rw [hv] at this; cases this
    | some x => simp

end Candidate

/-! ## The two sides of a screening -/

theorem mem_eligible {candidates : List Candidate} {objective : Objective} {bounds : List Bound} {c : Candidate} :
    c ∈ (screen candidates objective bounds).eligible ↔
      c ∈ candidates ∧ Text.allBlank c.name = false ∧ c.Complete objective bounds := by
  unfold screen
  rw [List.mem_filter, Candidate.lacks_isEmpty]

theorem ids_eligible (candidates : List Candidate) (objective : Objective) (bounds : List Bound) :
    (screen candidates objective bounds).eligible.map Candidate.id =
      (candidates.filter fun c => (c.lacks (referencedMetrics objective bounds)).isEmpty).map Candidate.id := rfl

theorem excluded_eq (candidates : List Candidate) (objective : Objective) (bounds : List Bound) :
    (screen candidates objective bounds).excluded =
      (candidates.filter fun c => !(c.lacks (referencedMetrics objective bounds)).isEmpty).map fun c =>
        ⟨c.id, c.name, c.lacks (referencedMetrics objective bounds)⟩ := by
  unfold screen
  dsimp only
  induction candidates with
  | nil => rfl
  | cons c candidates ih =>
    rw [List.filterMap_cons, List.filter_cons]
    by_cases h : (c.lacks (referencedMetrics objective bounds)).isEmpty = true
    · rw [if_pos h, h]
      exact ih
    · rw [if_neg h, Bool.eq_false_iff.2 h]
      exact congrArg (_ :: ·) ih

theorem ids_excluded (candidates : List Candidate) (objective : Objective) (bounds : List Bound) :
    (screen candidates objective bounds).excluded.map Exclusion.id =
      (candidates.filter fun c => !(c.lacks (referencedMetrics objective bounds)).isEmpty).map Candidate.id := by
  rw [excluded_eq, List.map_map]
  rfl

theorem length_screen (candidates : List Candidate) (objective : Objective) (bounds : List Bound) :
    (screen candidates objective bounds).eligible.length + (screen candidates objective bounds).excluded.length =
      candidates.length := by
  have h := congrArg List.length (ids_excluded candidates objective bounds)
  rw [List.length_map, List.length_map] at h
  rw [h]
  unfold screen
  dsimp only
  exact (List.length_eq_length_filter_add _).symm

section Congruence

variable {objective objective' : Objective} {bounds bounds' : List Bound}
  (h : ∀ metric, metric ∈ objective.metrics ++ bounds.map Bound.metric ↔
    metric ∈ objective'.metrics ++ bounds'.map Bound.metric)
include h

theorem referencedMetrics_congr : referencedMetrics objective bounds = referencedMetrics objective' bounds' := by
  refine (Std.TreeSet.Equiv.of_forall_mem_iff fun metric => ?_).toList_eq
  rw [Std.TreeSet.mem_ofList, Std.TreeSet.mem_ofList, List.contains_iff_mem, List.contains_iff_mem]
  exact h metric

/-- **Only which metrics are named counts.** -/
theorem screen_congr (candidates : List Candidate) :
    screen candidates objective bounds = screen candidates objective' bounds' := by
  unfold screen
  rw [referencedMetrics_congr h]

end Congruence

/-! ## The candidates of a table -/

theorem Table.candidates_eq_ok {table : Table} {catalog : Catalog} {candidates : List Candidate} :
    table.candidates catalog = .ok candidates ↔ ∃ nameIndex, table.columns.findIdx? Column.holdsNames = some nameIndex ∧
      candidates = table.records.zipIdx.map fun (cells, id) =>
        Candidate.ofRecord catalog table.columns nameIndex id cells := by
  unfold Table.candidates
  cases table.columns.findIdx? Column.holdsNames with
  | none => simp
  | some nameIndex => simp [eq_comm]

theorem Table.ids_candidates {table : Table} {catalog : Catalog} {candidates : List Candidate}
    (h : table.candidates catalog = .ok candidates) :
    candidates.map Candidate.id = List.range table.records.length := by
  obtain ⟨nameIndex, -, rfl⟩ := Table.candidates_eq_ok.1 h
  rw [List.map_map]
  exact (List.zipIdx_map_snd 0 table.records).trans List.range_eq_range'.symm

theorem Table.nodup_ids_eligible {table : Table} {catalog : Catalog} {candidates : List Candidate}
    (h : table.candidates catalog = .ok candidates) (objective : Objective) (bounds : List Bound) :
    ((screen candidates objective bounds).eligible.map Candidate.id).Nodup := by
  have hsub : ((screen candidates objective bounds).eligible.map Candidate.id).Sublist (candidates.map Candidate.id) :=
    List.filter_sublist.map _
  rw [Table.ids_candidates h] at hsub
  exact List.nodup_range.sublist hsub

theorem Table.getElem_candidates {table : Table} {catalog : Catalog} {candidates : List Candidate}
    (h : table.candidates catalog = .ok candidates) {c : Candidate} (hc : c ∈ candidates) :
    ∃ nameIndex cells, table.columns.findIdx? Column.holdsNames = some nameIndex ∧ table.records[c.id]? = some cells ∧
      c = Candidate.ofRecord catalog table.columns nameIndex c.id cells := by
  obtain ⟨nameIndex, hname, rfl⟩ := Table.candidates_eq_ok.1 h
  obtain ⟨⟨cells, id⟩, hmem, rfl⟩ := List.mem_map.1 hc
  exact ⟨nameIndex, cells, hname, List.mem_zipIdx_iff_getElem?.1 hmem, rfl⟩

end Lineup
