import Lineup.Engine.Exact
import Lineup.Engine.Exhaustive
import Lineup.Proofs.Linear.Bound
import Lineup.Proofs.Number.Integers
/-!
# Integral — programs whose sums are exact

Where all numbers of a program are integers that are not too large, no sum over zeros and ones is rounded.  Its rows and
its objective then say of such a point, in doubles and up to a slight tolerance, what the problem over the rationals
says.
-/
namespace Lineup

open Linear (Constraint Problem)
open Number

/-- Integers that are too small to be rounded in a sum, and one to hold it against. -/
structure Row.Integral (row : Row) : Prop where
  coefficients : ∃ ns, AreInts row.coefficients ns
  rhs : ∃ n : Int, IsInt row.rhs n ∧ n.natAbs < 2 ^ 53

/-- All numbers are integers, and no sum over zeros and ones is rounded. -/
structure Program.Integral (p : Program) : Prop where
  objective : ∃ ns, AreInts p.objective ns
  rows : ∀ row ∈ p.rows, row.Integral

def Row.constraint (row : Row) : Constraint := ⟨row.coefficients.map exact, row.sense, exact row.rhs⟩

def Program.problem (p : Program) : Problem := ⟨p.ids.length, p.objective.map exact, p.rows.map Row.constraint⟩

structure Program.Admits (p : Program) (values : List Float) : Prop where
  length_eq : values.length = p.ids.length
  bits : values.all isBit = true
  rows : ∀ row ∈ p.rows, row.holds values 0.0 = true

/-! ## Rows -/

section Rows

variable {row : Row} {values : List Float} {t : Float}

theorem Row.toConstraint?_eq (h : row.Integral) : row.toConstraint? = some row.constraint := by
  obtain ⟨ns, hns, -⟩ := h.coefficients
  obtain ⟨n, hn, -⟩ := h.rhs
  unfold toConstraint? constraint
  rw [mapM_toRat?_of_isFinite (isFinite_of_forall₂ hns), toRat?_of_isFinite hn.isFinite]
  rfl

theorem Sense.holds_iff {sense : Sense} {lhs rhs : Float} {l r : Int} (hl : IsInt lhs l) (hr : IsInt rhs r)
    (ht : IsSlight t) (hrange : r.natAbs < 2 ^ 53) {coefficients x : List Rat}
    (hdot : (l : Rat) = Linear.dot coefficients x) :
    sense.holds lhs rhs t = true ↔ (Constraint.mk coefficients sense (exact rhs)).holds x = true := by
  cases sense with
  | atMost =>
    change decide (lhs ≤ rhs + t) = true ↔ decide (Linear.dot coefficients x ≤ exact rhs) = true
    rw [decide_eq_true_iff, decide_eq_true_iff, le_add_slight_iff hl hr ht hrange, ← hdot, hr.exact_eq, Int.cast_le]
  | atLeast =>
    change decide (rhs - t ≤ lhs) = true ↔ decide (exact rhs ≤ Linear.dot coefficients x) = true
    rw [decide_eq_true_iff, decide_eq_true_iff, sub_slight_le_iff hl hr ht hrange, ← hdot, hr.exact_eq, Int.cast_le]
  | equal =>
    change decide ((lhs - rhs).abs ≤ t) = true ↔ decide (Linear.dot coefficients x = exact rhs) = true
    rw [decide_eq_true_iff, decide_eq_true_iff, abs_sub_le_slight_iff hl hr ht, ← hdot, hr.exact_eq, Int.cast_inj]

/-- **Rows of integers are evaluated exactly**, as long as the tolerance is too slight for integers. -/
theorem Row.holds_iff (h : row.Integral) (hbits : values.all isBit = true) (ht : IsSlight t) :
    row.holds values t = true ↔ row.constraint.holds (values.map exact) = true := by
  obtain ⟨ns, hns⟩ := h.coefficients
  obtain ⟨r, hr, hrange⟩ := h.rhs
  obtain ⟨l, -, hl, hdot⟩ := hns.dot hbits
  exact Sense.holds_iff hl hr ht hrange hdot

end Rows

theorem isSlight_zero : IsSlight 0.0 := by
  refine ⟨by decide, ?_⟩
  rw [steps_zero]
  exact Int.natCast_pos.2 unitSteps_pos

theorem isSlight_exhaustiveTolerance : IsSlight Engine.exhaustiveTolerance := by
  unfold IsSlight
  decide +kernel

/-! ## Points -/

theorem allowed_exact_iff {x : Float} (h : x.isFinite = true) :
    Problem.allowed .binary (exact x) = true ↔ isBit x = true := by
  have hint (n : Int) : exact x = n ↔ IsInt x n := ((and_iff_right h).symm.trans toRat?_eq_some.symm)
  rw [Problem.allowed_iff_of_binary, isBit_iff, ← hint, ← hint, Int.cast_zero, Int.cast_one]

namespace Program

variable {p : Program} {values : List Float}

theorem toProblem?_eq (h : p.Integral) : p.toProblem? = some p.problem := by
  obtain ⟨ns, hns, -⟩ := h.objective
  have hrows : ∀ rows : List Row, (∀ row ∈ rows, row.Integral) →
      rows.mapM Row.toConstraint? = some (rows.map Row.constraint) := by
    intro rows
    induction rows with
    | nil => intro _; rfl
    | cons row rows ih =>
      intro hall
      obtain ⟨hrow, hall⟩ := List.forall_mem_cons.1 hall
      rw [List.mapM_cons, Row.toConstraint?_eq hrow, ih hall]
      rfl
  unfold toProblem? problem
  rw [mapM_toRat?_of_isFinite (isFinite_of_forall₂ hns), hrows p.rows h.rows]
  rfl

theorem rows_hold_iff (h : p.Integral) (hbits : values.all isBit = true) {t : Float} (ht : IsSlight t) :
    (∀ row ∈ p.rows, row.holds values t = true) ↔ p.problem.rows.all (·.holds (values.map exact)) = true := by
  unfold problem
  rw [List.all_map, List.all_eq_true]
  exact forall_congr' fun row => imp_congr_right fun hrow => Row.holds_iff (h.rows row hrow) hbits ht

/-- **The points that a program of integers admits are the feasible points of its problem**, with zeros of either sign.
-/
theorem admits_iff (h : p.Integral) (hfinite : ∀ x ∈ values, x.isFinite = true) :
    p.Admits values ↔ p.problem.feasible .binary (values.map exact) = true := by
  have hall : (values.map exact).all (Problem.allowed .binary) = true ↔ values.all isBit = true := by
    rw [List.all_map, List.all_eq_true, List.all_eq_true]
    exact forall_congr' fun x => imp_congr_right fun hx => allowed_exact_iff (hfinite x hx)
  rw [Problem.feasible_iff, List.length_map, hall]
  constructor
  · rintro ⟨hlength, hbits, hrows⟩
    exact ⟨hlength, hbits, (rows_hold_iff h hbits isSlight_zero).1 hrows⟩
  · rintro ⟨hlength, hbits, hrows⟩
    exact ⟨hlength, hbits, (rows_hold_iff h hbits isSlight_zero).2 hrows⟩

theorem Admits.isFinite (h : p.Admits values) : ∀ x ∈ values, x.isFinite = true := fun x hx =>
  (steps_of_isBit (List.all_eq_true.1 h.bits x hx)).1

theorem isInt_objectiveValue (h : p.Integral) (hbits : values.all isBit = true) :
    ∃ n : Int, IsInt (p.objectiveValue values) n ∧ (n : Rat) = p.problem.value (values.map exact) := by
  obtain ⟨ns, hns⟩ := h.objective
  obtain ⟨n, -, hn, hdot⟩ := hns.dot hbits
  exact ⟨n, hn, hdot⟩

theorem isFinite_objectiveValue (h : p.Integral) (hbits : values.all isBit = true) :
    (p.objectiveValue values).isFinite = true := by
  obtain ⟨n, hn, -⟩ := isInt_objectiveValue h hbits
  exact hn.isFinite

theorem exact_objectiveValue (h : p.Integral) (hbits : values.all isBit = true) :
    exact (p.objectiveValue values) = p.problem.value (values.map exact) := by
  obtain ⟨n, hn, hvalue⟩ := isInt_objectiveValue h hbits
  rw [hn.exact_eq, hvalue]

theorem objectiveValue_eq (h : p.Integral) {others : List Float} (hbits : values.all isBit = true)
    (hothers : others.all isBit = true)
    (heq : p.problem.value (values.map exact) = p.problem.value (others.map exact)) :
    p.objectiveValue values = p.objectiveValue others := by
  have hfinite := isFinite_objectiveValue h hbits
  have hfinite' := isFinite_objectiveValue h hothers
  rw [← exact_objectiveValue h hbits, ← exact_objectiveValue h hothers, exact_eq_iff hfinite hfinite'] at heq
  exact eq_of_alike (alike_of_steps (notNaN_of_isFinite hfinite) (notNaN_of_isFinite hfinite') heq)
    (dot_ne_minusZero _ _) (dot_ne_minusZero _ _)

end Program

end Lineup
