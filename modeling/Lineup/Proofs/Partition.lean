import Mathlib.Data.List.Forall2
import Lineup.Proofs.Eligible
import Lineup.Proofs.Text.Trimming
/-!
# Partition — every candidate goes to one side

Screening keeps the candidates that have a name and every value that is asked for, and says of each of the others all
that it lacks.  Only which metrics are named counts, not how often or where, and the candidates on one side do not
depend on those on the other.
-/
namespace Lineup

variable {c : Candidate} {objective : Objective} {bounds : List Bound}

namespace Candidate

structure Eligible (c : Candidate) (objective : Objective) (bounds : List Bound) : Prop where
  named : Text.trimmed c.name ≠ ""
  complete : c.Complete objective bounds

theorem lacks_isEmpty_iff_eligible :
    (c.lacks (referencedMetrics objective bounds)).isEmpty = true ↔ c.Eligible objective bounds := by
  rw [lacks_isEmpty, ← Bool.not_eq_true, ← Text.trimmed_eq_empty_iff]
  exact ⟨fun ⟨hnamed, hcomplete⟩ => ⟨hnamed, hcomplete⟩, fun h => ⟨h.named, h.complete⟩⟩

instance : Decidable (c.Eligible objective bounds) := decidable_of_iff _ lacks_isEmpty_iff_eligible

theorem decide_eligible :
    decide (c.Eligible objective bounds) = (c.lacks (referencedMetrics objective bounds)).isEmpty := by
  rw [Bool.eq_iff_iff, decide_eq_true_iff, lacks_isEmpty_iff_eligible]

end Candidate

/-- **Why a candidate was set aside.**  All that it lacks is listed, its name first and then the metrics, in ascending
order and each once. -/
structure Exclusion.Explains (e : Exclusion) (c : Candidate) (objective : Objective) (bounds : List Bound) : Prop where
  id_eq : e.id = c.id
  name_eq : e.name = c.name
  missing_ne_nil : e.missing ≠ []
  missing_eq : ∃ metrics : List String, e.missing = (if Text.trimmed c.name = "" then ["name"] else []) ++ metrics ∧
    metrics.Pairwise (· < ·) ∧ ∀ metric,
      metric ∈ metrics ↔ metric ∈ objective.metrics ++ bounds.map Bound.metric ∧ c.metric? metric = none

theorem Candidate.explains_lacks (h : ¬ c.Eligible objective bounds) :
    Exclusion.Explains ⟨c.id, c.name, c.lacks (referencedMetrics objective bounds)⟩ c objective bounds where
  id_eq := rfl
  name_eq := rfl
  missing_ne_nil hnil := h (lacks_isEmpty_iff_eligible.1 (List.isEmpty_iff.2 hnil))
  missing_eq := by
    refine ⟨(referencedMetrics objective bounds).filter fun metric => (c.metric? metric).isNone, ?_,
      (pairwise_referencedMetrics objective bounds).filter _, fun metric => ?_⟩
    · unfold lacks
      simp only [Text.trimmed_eq_empty_iff]
      rfl
    · rw [List.mem_filter, mem_referencedMetrics, Option.isNone_iff_eq_none]

theorem eligible_eq (candidates : List Candidate) :
    (screen candidates objective bounds).eligible = candidates.filter fun c => c.Eligible objective bounds :=
  List.filter_congr fun _ _ => Candidate.decide_eligible.symm

theorem excluded_explains (candidates : List Candidate) :
    List.Forall₂ (fun c e => Exclusion.Explains e c objective bounds)
      (candidates.filter fun c => ¬ c.Eligible objective bounds) (screen candidates objective bounds).excluded := by
  have hothers : (candidates.filter fun c => !(c.lacks (referencedMetrics objective bounds)).isEmpty) =
      candidates.filter fun c => ¬ c.Eligible objective bounds :=
    List.filter_congr fun c _ => by rw [decide_not, Candidate.decide_eligible]
  rw [excluded_eq, hothers, List.forall₂_map_right_iff, List.forall₂_same]
  exact fun c hc => c.explains_lacks (of_decide_eq_true (List.mem_filter.1 hc).2)

/-- **No candidate is lost, and none is counted twice.** -/
theorem perm_ids_screen (candidates : List Candidate) (objective : Objective) (bounds : List Bound) :
    ((screen candidates objective bounds).eligible.map Candidate.id ++
      (screen candidates objective bounds).excluded.map Exclusion.id).Perm (candidates.map Candidate.id) := by
  rw [ids_eligible, ids_excluded, ← List.map_append]
  exact (List.filter_append_perm _ candidates).map Candidate.id

inductive Interspersed {α : Type} (extra : α → Prop) : List α → List α → Prop
  | nil : Interspersed extra [] []
  | keep {xs ys : List α} (x : α) : Interspersed extra xs ys → Interspersed extra (x :: xs) (x :: ys)
  | insert {xs ys : List α} {y : α} : extra y → Interspersed extra xs ys → Interspersed extra xs (y :: ys)

theorem Interspersed.filter_eq {α : Type} {extra : α → Prop} {p : α → Bool} (hp : ∀ x, extra x → p x = false)
    {xs ys : List α} (h : Interspersed extra xs ys) : ys.filter p = xs.filter p := by
  induction h with
  | nil => rfl
  | keep x _ ih => rw [List.filter_cons, List.filter_cons, ih]
  | insert hextra _ ih => rw [List.filter_cons, hp _ hextra, if_neg Bool.false_ne_true, ih]

/-- **Screening splits the candidates in two.**  Those that take part are the ones with a name and every value, in their
order; each other one is explained, in the same order.  Nothing counts of the criteria and bounds but which metrics they
name, and candidates that are set aside anyway make no difference to who takes part. -/
theorem screen_partition (candidates : List Candidate) (objective : Objective) (bounds : List Bound) :
    (screen candidates objective bounds).eligible = (candidates.filter fun c => c.Eligible objective bounds) ∧
    List.Forall₂ (fun c e => Exclusion.Explains e c objective bounds)
      (candidates.filter fun c => ¬ c.Eligible objective bounds) (screen candidates objective bounds).excluded ∧
    ((screen candidates objective bounds).eligible.map Candidate.id ++
      (screen candidates objective bounds).excluded.map Exclusion.id).Perm (candidates.map Candidate.id) ∧
    (screen candidates objective bounds).eligible.length + (screen candidates objective bounds).excluded.length =
      candidates.length ∧
    (∀ (objective' : Objective) (bounds' : List Bound),
      (∀ metric, metric ∈ objective.metrics ++ bounds.map Bound.metric ↔
        metric ∈ objective'.metrics ++ bounds'.map Bound.metric) →
      screen candidates objective' bounds' = screen candidates objective bounds) ∧
    ∀ candidates', Interspersed (fun c => ¬ c.Eligible objective bounds) candidates candidates' →
      (screen candidates' objective bounds).eligible = (screen candidates objective bounds).eligible := by
  refine ⟨eligible_eq candidates, excluded_explains candidates, perm_ids_screen candidates objective bounds,
    length_screen candidates objective bounds, fun objective' bounds' h => (screen_congr h candidates).symm,
    fun candidates' h => ?_⟩
  rw [eligible_eq, eligible_eq]
  exact h.filter_eq fun c hc => decide_eq_false hc

/-- One of two candidates lacks its name and two values.  The metrics may be named in another order and more than once,
and a further candidate without a name may come before. -/
theorem screen_partition_of_gaps :
    let ada : Candidate := ⟨0, "Ada", .ofList [("a", 3.0), ("b", 1.0), ("c", 2.0)], .empty⟩
    let nobody : Candidate := ⟨0, " ", .ofList [("b", 2.0)], .empty⟩
    let screening := screen [ada, nobody] ⟨[⟨"c", 1.0⟩, ⟨"b", 1.0⟩]⟩ [⟨"a", .atMost, 5.0⟩]
    screening.excluded = [⟨0, " ", ["name", "a", "c"]⟩] ∧
    screen [ada, nobody] ⟨[⟨"a", 1.0⟩]⟩ [⟨"b", .atLeast, 0.0⟩, ⟨"c", .atLeast, 0.0⟩, ⟨"b", .equal, 1.0⟩] = screening ∧
    (screen [nobody, ada, nobody] ⟨[⟨"c", 1.0⟩, ⟨"b", 1.0⟩]⟩ [⟨"a", .atMost, 5.0⟩]).eligible = screening.eligible := by
  intro ada nobody screening
  obtain ⟨-, -, -, -, hcongr, hinserted⟩ :=
    screen_partition [ada, nobody] ⟨[⟨"c", 1.0⟩, ⟨"b", 1.0⟩]⟩ [⟨"a", .atMost, 5.0⟩]
  refine ⟨by decide +kernel, hcongr _ _ fun metric => ?_, hinserted _ ?_⟩
  · simp only [Objective.metrics, List.map_cons, List.map_nil, List.cons_append, List.nil_append, List.mem_cons,
      List.not_mem_nil, or_false]
    tauto
  · exact .insert (by decide +kernel) (.keep ada (.keep nobody .nil))

end Lineup
