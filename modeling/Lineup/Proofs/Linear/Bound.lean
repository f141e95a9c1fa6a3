import Lineup.Linear.Relaxation
import Mathlib.Algebra.Order.Ring.Rat
import Mathlib.Data.List.Basic
import Mathlib.Tactic.Linarith
import Mathlib.Tactic.Ring
/-!
# Bound — what multipliers say of every feasible point

Rows that a point meets may be added up with multipliers of the right signs.  What is left of the objective is at most
the sum of its positive coefficients, so the multipliers bound the value of the point, whoever proposed them.  A
relaxation that is decided is therefore decided rightly (`relax_exact`), and nothing need be known of the pivoting
behind it.
-/
namespace Lineup.Linear

theorem positiveSum_nonneg : ∀ coefficients : List Rat, 0 ≤ Problem.positiveSum coefficients
  | [] => le_refl 0
  | c :: coefficients => by
    have ih := positiveSum_nonneg coefficients
    unfold Problem.positiveSum at ih ⊢
    rw [List.foldr_cons]
    split_ifs <;> linarith

theorem dot_le_positiveSum : ∀ (coefficients : List Rat) {x : List Rat}, (∀ v ∈ x, 0 ≤ v ∧ v ≤ 1) →
    dot coefficients x ≤ Problem.positiveSum coefficients
  | [], x, _ => by
    unfold dot
    exact le_refl 0
  | c :: coefficients, [], _ => positiveSum_nonneg (c :: coefficients)
  | c :: coefficients, v :: x, h => by
    obtain ⟨⟨hlo, hhi⟩, hx⟩ := List.forall_mem_cons.1 h
    have ih := dot_le_positiveSum coefficients hx
    unfold Problem.positiveSum at ih ⊢
    rw [dot, List.foldr_cons]
    split_ifs with hc
    · have : c * v ≤ c * 1 := mul_le_mul_of_nonneg_left hhi hc
      linarith
    · have : c * v ≤ 0 := mul_nonpos_of_nonpos_of_nonneg (by linarith) hlo
      linarith

theorem dot_zipWith_sub (y : Rat) : ∀ {cs as : List Rat} (x : List Rat), as.length = cs.length →
    dot (cs.zipWith (fun c a => c - y * a) as) x = dot cs x - y * dot as x
  | [], [], x, _ => by simp [dot]
  | c :: cs, a :: as, [], _ => by simp [dot]
  | c :: cs, a :: as, v :: x, h => by
    rw [List.zipWith_cons_cons, dot, dot, dot, dot_zipWith_sub y x (Nat.succ.inj h)]
    ring

theorem dot_replicate_zero : ∀ (n : Nat) (x : List Rat), dot (List.replicate n 0) x = 0
  | 0, x => by simp [dot]
  | n + 1, [] => by simp [dot]
  | n + 1, v :: x => by
    rw [List.replicate_succ, dot, dot_replicate_zero n x, zero_mul, zero_add]

namespace Problem

variable {mode : Mode} {p : Problem} {x : List Rat}

/-! ## Feasible points -/

theorem allowed_iff_of_fractional {v : Rat} : allowed .fractional v = true ↔ 0 ≤ v ∧ v ≤ 1 := by
  unfold allowed
  rw [Bool.and_eq_true, decide_eq_true_iff, decide_eq_true_iff]

theorem allowed_iff_of_binary {v : Rat} : allowed .binary v = true ↔ v = 0 ∨ v = 1 := by
  unfold allowed
  rw [Bool.or_eq_true, decide_eq_true_iff, decide_eq_true_iff]

theorem allowed_fractional {v : Rat} (h : allowed mode v = true) : allowed .fractional v = true := by
  cases mode with
  | binary => rcases allowed_iff_of_binary.1 h with rfl | rfl <;> decide
  | fractional => exact h

theorem feasible_iff : p.feasible mode x = true ↔
    x.length = p.size ∧ x.all (allowed mode) = true ∧ p.rows.all (·.holds x) = true := by
  unfold feasible
  rw [Bool.and_eq_true, Bool.and_eq_true, decide_eq_true_iff, and_assoc]

theorem feasible_fractional (h : p.feasible mode x = true) : p.feasible .fractional x = true := by
  rw [feasible_iff] at h ⊢
  refine h.imp_right (And.imp_left fun hall => List.all_eq_true.2 fun v hv => ?_)
  exact allowed_fractional (List.all_eq_true.1 hall v hv)

theorem share_of_feasible (h : p.feasible mode x = true) : ∀ v ∈ x, 0 ≤ v ∧ v ≤ 1 := by
  obtain ⟨-, hall, -⟩ := feasible_iff.1 (feasible_fractional h)
  exact fun v hv => allowed_iff_of_fractional.1 (List.all_eq_true.1 hall v hv)

theorem value_le_of_feasible (h : p.feasible mode x = true) : p.value x ≤ positiveSum p.objective :=
  dot_le_positiveSum p.objective (share_of_feasible h)

/-! ## Multipliers -/

structure Sized (p : Problem) : Prop where
  objective : p.objective.length = p.size
  coefficients : ∀ row ∈ p.rows, row.coefficients.length = p.size

theorem signed_mul_le {row : Constraint} (h : row.holds x = true) (y : Rat) :
    signed row.sense y * dot row.coefficients x ≤ signed row.sense y * row.threshold := by
  unfold Constraint.holds at h
  unfold signed
  cases hsense : row.sense <;> rw [hsense] at h <;> dsimp only at h ⊢ <;> rw [decide_eq_true_iff] at h
  · split_ifs with hy
    · exact mul_le_mul_of_nonneg_left h hy
    · rw [zero_mul, zero_mul]
  · split_ifs with hy
    · exact mul_le_mul_of_nonpos_left h hy
    · rw [zero_mul, zero_mul]
  · rw [h]

theorem mem_weighted {multipliers : List Rat} {row : Constraint} {y : Rat} (h : (row, y) ∈ p.weighted multipliers) :
    row ∈ p.rows ∧ ∃ y', y = signed row.sense y' := by
  unfold weighted at h
  rw [← List.map_uncurry_zip_eq_zipWith] at h
  obtain ⟨⟨row', y'⟩, hmem, heq⟩ := List.mem_map.1 h
  cases heq
  exact ⟨(List.of_mem_zip hmem).1, y', rfl⟩

/-- One row after the other is taken off the objective and added to the constant. -/
theorem add_dot_le_foldl : ∀ (weighted : List (Constraint × Rat)) (total : Rat) (rest : List Rat),
    (∀ row y, (row, y) ∈ weighted → row.holds x = true ∧ row.coefficients.length = rest.length ∧
      ∃ y', y = signed row.sense y') →
    total + dot rest x ≤ weighted.foldl (fun total (row, y) => total + y * row.threshold) total +
      dot (weighted.foldl (fun rest (row, y) => rest.zipWith (fun c a => c - y * a) row.coefficients) rest) x
  | [], total, rest, _ => le_refl _
  | (row, y) :: weighted, total, rest, h => by
    obtain ⟨hrow, hlength, y, rfl⟩ := h row y List.mem_cons_self
    have hmet := signed_mul_le hrow y
    have hnext := add_dot_le_foldl weighted (total + signed row.sense y * row.threshold)
      (rest.zipWith (fun c a => c - signed row.sense y * a) row.coefficients) fun row' y' hmem => by
        rw [List.length_zipWith, hlength, Nat.min_self]
        exact h row' y' (List.mem_cons_of_mem _ hmem)
    rw [dot_zipWith_sub _ x hlength] at hnext
    rw [List.foldl_cons, List.foldl_cons]
    linarith

theorem dot_le_reduced (h : p.Sized) (hrows : p.rows.all (·.holds x) = true) {objective : List Rat}
    (hobjective : objective.length = p.size) (multipliers : List Rat) :
    dot objective x ≤ p.thresholdSum multipliers + dot (p.reduced objective multipliers) x := by
  have hfold := add_dot_le_foldl (p.weighted multipliers) 0 objective fun row y hmem => by
    obtain ⟨hrow, hsigned⟩ := mem_weighted hmem
    exact ⟨List.all_eq_true.1 hrows row hrow, (h.coefficients row hrow).trans hobjective.symm, hsigned⟩
  rwa [zero_add] at hfold

theorem length_reduced (h : p.Sized) {objective : List Rat} (hobjective : objective.length = p.size)
    (multipliers : List Rat) : (p.reduced objective multipliers).length = p.size := by
  unfold reduced
  refine List.foldlRecOn (p.weighted multipliers) _
    (motive := fun rest : List Rat => rest.length = p.size) hobjective ?_
  rintro rest hrest ⟨row, y⟩ hw
  dsimp only
  rw [List.length_zipWith, hrest, h.coefficients row (mem_weighted hw).1, Nat.min_self]

/-- **The bound of any multipliers holds for every feasible point.** -/
theorem dot_le_bound (h : p.Sized) (hx : p.feasible mode x = true) {objective : List Rat}
    (hobjective : objective.length = p.size) (multipliers : List Rat) :
    dot objective x ≤ p.bound objective multipliers := by
  obtain ⟨-, -, hrows⟩ := feasible_iff.1 hx
  have hreduced := dot_le_reduced h hrows hobjective multipliers
  have hpositive := dot_le_positiveSum (p.reduced objective multipliers) (share_of_feasible hx)
  unfold bound
  linarith

/-! ## The relaxed problem -/

theorem exact_of_certifies (h : p.Sized) {multipliers : List Rat} (hcertifies : p.certifies x multipliers = true) :
    (Outcome.optimal x).Exact .fractional p := by
  unfold certifies at hcertifies
  rw [Bool.and_eq_true, decide_eq_true_iff] at hcertifies
  exact ⟨hcertifies.1, fun y hy => hcertifies.2 ▸ dot_le_bound h hy h.objective multipliers⟩

theorem exact_of_refutes (h : p.Sized) {multipliers : List Rat} (hrefutes : p.refutes multipliers = true) :
    Outcome.infeasible.Exact mode p := by
  unfold refutes at hrefutes
  rw [decide_eq_true_iff] at hrefutes
  refine fun y => Bool.eq_false_iff.2 fun hy => ?_
  have hlength : p.nothing.length = p.size := List.length_replicate
  have hzero : dot p.nothing y = 0 := dot_replicate_zero p.size y
  have hbound := dot_le_bound h hy hlength multipliers
  linarith

/-- **A relaxation that is decided is decided rightly**: for shares the point is optimal, and without a point in shares
there is none of zeros and ones. -/
theorem relax_exact (h : p.Sized) :
    (∀ x multipliers, p.relax = .optimal x multipliers → (Outcome.optimal x).Exact .fractional p) ∧
      (p.relax = .infeasible → ∀ mode, Outcome.infeasible.Exact mode p) := by
  unfold relax
  cases p.propose with
  | point x multipliers =>
    dsimp only
    by_cases hcertifies : p.certifies x multipliers = true
    · rw [if_pos hcertifies]
      refine ⟨fun y multipliers' heq => ?_, nofun⟩
      cases heq
      exact exact_of_certifies h hcertifies
    · rw [if_neg hcertifies]
      exact ⟨nofun, nofun⟩
  | contradiction multipliers =>
    dsimp only
    by_cases hrefutes : p.refutes multipliers = true
    · rw [if_pos hrefutes]
      exact ⟨nofun, fun _ mode => exact_of_refutes h hrefutes⟩
    · rw [if_neg hrefutes]
      exact ⟨nofun, nofun⟩
  | none => exact ⟨nofun, nofun⟩

end Problem

end Lineup.Linear
