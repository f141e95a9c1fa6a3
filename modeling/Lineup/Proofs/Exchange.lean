import Lineup.Proofs.Integral
import Lineup.Proofs.Optimum
/-!
# Exchange — what the first of the best teams cannot gain

Where no sum is rounded, the value of a team is the sum of the scores of its members.  Whoever joins or leaves the first
of the best teams, or takes a member's place, either lowers its value or comes later in the order of the masks.
-/
namespace Lineup

open Number

/-- The candidates of a program of integers stand in ascending order, each with a score. -/
structure Program.Scored (p : Program) (score : Nat → Float) : Prop where
  integral : p.Integral
  objective_eq : p.objective = p.ids.map score
  ascending : p.ids.Pairwise (· < ·)

/-! ## The value of a team -/

theorem perm_filter_mem {ids team : List Nat} (hids : ids.Nodup) (hteam : team.Nodup) (hsubset : team ⊆ ids) :
    (ids.filter (· ∈ team)).Perm team := by
  refine (List.perm_ext_iff_of_nodup (hids.filter _) hteam).2 fun id => ?_
  simp only [List.mem_filter, decide_eq_true_eq]
  exact ⟨fun h => h.2, fun h => ⟨hsubset h, h⟩⟩

theorem Linear.dot_select (weight : Nat → Rat) (team : List Nat) : ∀ ids : List Nat,
    Linear.dot (ids.map weight) (ids.map fun id => if id ∈ team then 1 else 0) =
      ((ids.filter (· ∈ team)).map weight).sum
  | [] => rfl
  | id :: ids => by
    rw [List.map_cons, List.map_cons, Linear.dot, Linear.dot_select weight team ids]
    by_cases h : id ∈ team
    · rw [if_pos h, List.filter_cons_of_pos (by simpa using h), List.map_cons, List.sum_cons, mul_one]
    · rw [if_neg h, List.filter_cons_of_neg (by simpa using h), mul_zero, zero_add]

theorem exact_indicator (p : Program) (team : List Nat) :
    (p.indicator team).map exact = p.ids.map fun id => if id ∈ team then 1 else 0 := by
  rw [Program.indicator_eq, List.map_map]
  refine List.map_congr_left fun id _ => ?_
  exact exact_ite (id ∈ team)

namespace Program.Scored

variable {p : Program} {score : Nat → Float} (h : p.Scored score) {team others : List Nat}
include h

theorem nodup_ids : p.ids.Nodup := h.ascending.imp fun hlt => Nat.ne_of_lt hlt

theorem value_indicator (hteam : team.Nodup) (hsubset : team ⊆ p.ids) :
    p.problem.value ((p.indicator team).map exact) = (team.map fun id => exact (score id)).sum := by
  have hperm := (perm_filter_mem h.nodup_ids hteam hsubset).map fun id => exact (score id)
  unfold Program.problem Linear.Problem.value
  rw [exact_indicator, h.objective_eq, List.map_map, ← hperm.sum_eq]
  exact Linear.dot_select (fun id => exact (score id)) team p.ids

/-! ## The mask of a team -/

/-- **A team that lacks a member of another, and agrees with it on all later candidates, has the lower mask.** -/
theorem mask_lt {i : Nat} (hi : i ∈ p.ids) (hin : i ∈ team) (hout : i ∉ others)
    (hlater : ∀ id, i < id → (id ∈ others ↔ id ∈ team)) : p.mask others < p.mask team := by
  obtain ⟨k, hk, rfl⟩ := List.mem_iff_getElem.1 hi
  refine Nat.lt_of_testBit k ?_ ?_ fun j hj => ?_
  · unfold Program.mask
    rw [Nat.testBit_ofBits_lt _ k hk]
    exact decide_eq_false hout
  · unfold Program.mask
    rw [Nat.testBit_ofBits_lt _ k hk]
    exact decide_eq_true hin
  · unfold Program.mask
    by_cases hjk : j < p.ids.length
    · have hlt := List.pairwise_iff_getElem.1 h.ascending k j hk hjk hj
      rw [Nat.testBit_ofBits_lt _ j hjk, Nat.testBit_ofBits_lt _ j hjk]
      exact decide_eq_decide.2 (hlater _ hlt)
    · rw [Nat.testBit_ofBits_ge _ j (by omega), Nat.testBit_ofBits_ge _ j (by omega)]

/-! ## Exchanges -/

/-- **No other team is worth more than the optimum, and none of its worth comes before it.** -/
theorem optimum_le (hoptimum : p.Optimum team) (hothers : others.Nodup) (hsubset : others ⊆ p.ids)
    (hfeasible : Engine.feasible p (p.indicator others) = true) :
    (others.map fun id => exact (score id)).sum ≤ (team.map fun id => exact (score id)).sum ∧
      ((others.map fun id => exact (score id)).sum = (team.map fun id => exact (score id)).sum →
        p.mask team ≤ p.mask others) := by
  have hbits : ∀ ids, (p.indicator ids).all isBit = true := fun ids => by
    rw [Engine.indicator_eq_pointOf]
    exact Engine.all_isBit_pointOf _ _
  have hfinite := fun ids => Program.isFinite_objectiveValue h.integral (hbits ids)
  rw [← h.value_indicator hoptimum.nodup hoptimum.subset, ← h.value_indicator hothers hsubset]
  constructor
  · have hbest := hoptimum.best others hsubset hfeasible
    rwa [lt_iff_exact (hfinite team) (hfinite others), not_lt, Program.exact_objectiveValue h.integral (hbits others),
      Program.exact_objectiveValue h.integral (hbits team)] at hbest
  · intro heq
    have hsame := Program.objectiveValue_eq h.integral (hbits others) (hbits team) heq
    exact hoptimum.first others hsubset hfeasible (by
      rw [hsame]
      exact beq_of_steps (notNaN_of_isFinite (hfinite team)) (notNaN_of_isFinite (hfinite team)) rfl)

section Members

variable {i j : Nat} (hoptimum : p.Optimum team)
include hoptimum

/-- **A member stands before whoever could take its place**, by its score or else by its id. -/
theorem exchange (hi : i ∈ team) (hj : j ∈ p.ids) (hout : j ∉ team)
    (hfeasible : Engine.feasible p (p.indicator (j :: team.erase i)) = true) :
    exact (score j) ≤ exact (score i) ∧ (exact (score j) = exact (score i) → i < j) := by
  have hne : i ≠ j := fun hij => hout (hij ▸ hi)
  have hother : j ∉ team.erase i := fun hmem => hout (List.erase_subset hmem)
  obtain ⟨hle, hfirst⟩ := h.optimum_le hoptimum (List.nodup_cons.2 ⟨hother, hoptimum.nodup.erase i⟩)
    (List.cons_subset.2 ⟨hj, fun id hid => hoptimum.subset (List.erase_subset hid)⟩) hfeasible
  rw [List.map_cons, List.sum_cons, ← List.sum_map_erase (fun id => exact (score id)) hi] at hle hfirst
  refine ⟨by linarith, fun heq => ?_⟩
  have hmask := hfirst (by rw [heq])
  by_contra hji
  -- an earlier candidate in a later one's place would give a lower mask
  refine Nat.not_lt_of_le hmask (h.mask_lt (hoptimum.subset hi) hi ?_ fun id hid => ?_)
  · rw [List.mem_cons, hoptimum.nodup.mem_erase_iff]
    rintro (hij | ⟨hself, -⟩)
    · exact hne hij
    · exact hself rfl
  · rw [List.mem_cons, hoptimum.nodup.mem_erase_iff]
    constructor
    · rintro (rfl | ⟨-, hmem⟩)
      · omega
      · exact hmem
    · exact fun hmem => Or.inr ⟨by omega, hmem⟩

/-- **A member that could be left out adds to the value.** -/
theorem pos_of_mem (hi : i ∈ team) (hfeasible : Engine.feasible p (p.indicator (team.erase i)) = true) :
    0 < exact (score i) := by
  obtain ⟨hle, hfirst⟩ := h.optimum_le hoptimum (hoptimum.nodup.erase i)
    (fun id hid => hoptimum.subset (List.erase_subset hid)) hfeasible
  rw [← List.sum_map_erase (fun id => exact (score id)) hi] at hle hfirst
  rcases lt_or_eq_of_le (show 0 ≤ exact (score i) by linarith) with hpos | hzero
  · exact hpos
  · have hmask := hfirst (by rw [← hzero, zero_add])
    refine absurd (h.mask_lt (hoptimum.subset hi) hi ?_ fun id hid => ?_) (Nat.not_lt_of_le hmask)
    · rw [hoptimum.nodup.mem_erase_iff]
      exact fun hmem => hmem.1 rfl
    · rw [hoptimum.nodup.mem_erase_iff]
      exact ⟨fun hmem => hmem.2, fun hmem => ⟨by omega, hmem⟩⟩

theorem nonpos_of_not_mem (hj : j ∈ p.ids) (hout : j ∉ team)
    (hfeasible : Engine.feasible p (p.indicator (j :: team)) = true) : exact (score j) ≤ 0 := by
  obtain ⟨hle, -⟩ := h.optimum_le hoptimum (List.nodup_cons.2 ⟨hout, hoptimum.nodup⟩)
    (List.cons_subset.2 ⟨hj, hoptimum.subset⟩) hfeasible
  rw [List.map_cons, List.sum_cons] at hle
  linarith

end Members

end Program.Scored

end Lineup
