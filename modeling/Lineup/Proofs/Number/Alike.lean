import Lineup.Proofs.Number.Counting
/-!
# Alike — doubles that are the same number

The two zeros are different doubles and the same number; all other doubles are alike only with themselves.  Sums,
differences, comparisons and, for finite doubles, products do not tell alike doubles apart.
-/
namespace Lineup.Number

open Float.Model (UnpackedFloat Format)
open Float.Model.UnpackedFloat

def Alike (x y : Float) : Prop := x.isNaN = y.isNaN ∧ (x.isNaN = false → steps x = steps y)

theorem Alike.refl (x : Float) : Alike x x := ⟨rfl, fun _ => rfl⟩

theorem Alike.symm {x y : Float} (h : Alike x y) : Alike y x := ⟨h.1.symm, fun hy => (h.2 (h.1.trans hy)).symm⟩

theorem alike_of_beq {x y : Float} (hy : y.isNaN = false) (h : (x == y) = true) : Alike x y :=
  ⟨(steps_of_beq hy h).1.trans hy.symm, fun _ => (steps_of_beq hy h).2⟩

theorem alike_of_steps {x y : Float} (hx : x.isNaN = false) (hy : y.isNaN = false) (h : steps x = steps y) :
    Alike x y :=
  ⟨hx.trans hy.symm, fun _ => h⟩

theorem isNaN_of_parts {x : Float} (h : x.isNaN = true) : x.toModel.unpack = .notANumber := by
  rw [isNaN_def] at h
  cases hu : x.toModel.unpack <;> rw [hu] at h <;> first | rfl | cases h

theorem parts_of_not_finite {x : Float} (hnan : x.isNaN = false) (h : x.isFinite = false) :
    ∃ s, x.toModel.unpack = .infinity s := by
  rw [isNaN_def] at hnan
  rw [isFinite_def] at h
  cases hu : x.toModel.unpack with
  | infinity s => exact ⟨s, rfl⟩
  | _ => rw [hu] at h hnan; first | (cases h; done) | cases hnan

theorem not_finite_of_isNaN {x : Float} (h : x.isNaN = true) : x.isFinite = false := by
  rw [isFinite_def, isNaN_of_parts h]
  rfl

namespace Alike

variable {x x' y y' : Float}

theorem isFinite_eq (h : Alike x y) : x.isFinite = y.isFinite := by
  cases hx : x.isNaN with
  | true => rw [not_finite_of_isNaN hx, not_finite_of_isNaN (h.1.symm.trans hx)]
  | false => rw [Bool.eq_iff_iff, isFinite_iff hx, isFinite_iff (h.1.symm.trans hx), h.2 hx]

theorem eq_of_not_finite (h : Alike x y) (hx : x.isFinite = false) : x = y := by
  apply eq_of_parts
  cases hnan : x.isNaN with
  | true => rw [isNaN_of_parts hnan, isNaN_of_parts (h.1.symm.trans hnan)]
  | false =>
    obtain ⟨s, hs⟩ := parts_of_not_finite hnan hx
    obtain ⟨t, ht⟩ := parts_of_not_finite (h.1.symm.trans hnan) (h.isFinite_eq.symm.trans hx)
    have hsteps := h.2 hnan
    have hpos := farthest_pos
    unfold steps at hsteps
    rw [hs, ht] at hsteps
    rw [hs, ht]
    cases s <;> cases t <;> first
      | rfl
      | (simp only [stepsOf, Sign.apply] at hsteps; omega)

end Alike

theorem add_of_not_finite {x y : Float} (hx : x.isFinite = false) (hy : y.isFinite = true) : x + y = x := by
  have hadd : UnpackedFloat.add Format.binary64 x.toModel.unpack y.toModel.unpack = x.toModel.unpack := by
    rw [isFinite_def] at hx hy
    cases hu : x.toModel.unpack <;> cases hv : y.toModel.unpack <;> rw [hu] at hx <;> rw [hv] at hy <;>
      first | rfl | (cases hx; done) | cases hy
  refine eq_of_parts ?_
  change (Float.Model.pack (UnpackedFloat.add Format.binary64 x.toModel.unpack y.toModel.unpack)).unpack = _
  rw [hadd, pack_unpack]

namespace Alike

variable {x x' y y' : Float}

theorem add (hx : Alike x x') (hy : Alike y y') : Alike (x + y) (x' + y') := by
  cases hfx : x.isFinite with
  | true =>
    have hfx' := hx.isFinite_eq.symm.trans hfx
    cases hfy : y.isFinite with
    | true =>
      have hfy' := hy.isFinite_eq.symm.trans hfy
      obtain ⟨hnan, hsum⟩ := steps_add hfx hfy
      obtain ⟨hnan', hsum'⟩ := steps_add hfx' hfy'
      refine alike_of_steps hnan hnan' ?_
      rw [hsum, hsum', hx.2 (notNaN_of_isFinite hfx), hy.2 (notNaN_of_isFinite hfy)]
    | false =>
      rw [add_comm x, add_comm x', add_of_not_finite hfy hfx, add_of_not_finite (hy.isFinite_eq.symm.trans hfy) hfx']
      exact hy
  | false =>
    cases hfy : y.isFinite with
    | true =>
      rw [add_of_not_finite hfx hfy, add_of_not_finite (hx.isFinite_eq.symm.trans hfx) (hy.isFinite_eq.symm.trans hfy)]
      exact hx
    | false =>
      rw [hx.eq_of_not_finite hfx, hy.eq_of_not_finite hfy]
      exact Alike.refl _

theorem sub_right (hx : Alike x x') (y : Float) : Alike (x - y) (x' - y) := by
  rw [sub_eq_add_neg, sub_eq_add_neg]
  exact hx.add (Alike.refl _)

theorem abs (hx : Alike x x') : Alike x.abs x'.abs := by
  refine ⟨by rw [isNaN_abs, isNaN_abs, hx.1], fun h => ?_⟩
  rw [isNaN_abs] at h
  rw [steps_abs, steps_abs, hx.2 h]

theorem mul_left {a : Float} (ha : a.isFinite = true) (hx : Alike x x') (hfin : x.isFinite = true) :
    Alike (a * x) (a * x') := by
  obtain ⟨hnan, hmul⟩ := steps_mul ha hfin
  obtain ⟨hnan', hmul'⟩ := steps_mul ha (hx.isFinite_eq.symm.trans hfin)
  refine alike_of_steps hnan hnan' (Int.eq_of_mul_eq_mul_right (Int.natCast_ne_zero.2 unitSteps_pos.ne') ?_)
  rw [hmul, hmul', hx.2 (notNaN_of_isFinite hfin)]

theorem le_of_le (hx : Alike x x') (hy : Alike y y') (h : x ≤ y) : x' ≤ y' := by
  obtain ⟨hnx, hny⟩ := notNaN_of_le h
  rw [le_iff (hx.1.symm.trans hnx) (hy.1.symm.trans hny), ← hx.2 hnx, ← hy.2 hny]
  exact steps_le_of_le h

theorem lt_of_lt (hx : Alike x x') (hnx : x.isNaN = false) (hy : y.isNaN = false) (h : x < y) : x' < y := by
  rw [lt_iff (hx.1.symm.trans hnx) hy, ← hx.2 hnx]
  exact (lt_iff hnx hy).1 h

end Alike

/-! ## Bits -/

/-- The bit of a value: 1 for a value equal to 1, and 0 without a sign for another. -/
def bit (x : Float) : Float := if x == 1.0 then 1.0 else 0.0

theorem alike_bit {x : Float} (h : isBit x = true) : Alike x (bit x) := by
  unfold bit
  split
  · rename_i hone
    exact alike_of_beq (notNaN_of_isFinite isFinite_one) hone
  · rename_i hone
    unfold isBit at h
    rw [Bool.or_eq_true] at h
    exact alike_of_beq (notNaN_of_isFinite isFinite_zero) (h.resolve_right hone)

/-! ## Choices -/

section Choice

variable (c : Prop) [Decidable c]

theorem isBit_ite : isBit (if c then 1.0 else 0.0) = true := by
  split <;> rfl

theorem isFinite_ite : (if c then 1.0 else 0.0 : Float).isFinite = true := by
  split <;> rfl

theorem beq_one_ite : ((if c then 1.0 else 0.0 : Float) == 1.0) = decide c := by
  by_cases h : c
  · rw [if_pos h, decide_eq_true h]
    rfl
  · rw [if_neg h, decide_eq_false h]
    rfl

theorem bit_ite : bit (if c then 1.0 else 0.0) = if c then 1.0 else 0.0 := by
  unfold bit
  rw [beq_one_ite]
  exact if_congr decide_eq_true_iff rfl rfl

end Choice

end Lineup.Number
