import Lineup.Proofs.Number.Alike
/-!
# Zeros — sums that never come to -0

Alike doubles are equal unless one of them is `-0`, and a sum is `-0` only when both of its terms are.  So a sum that
starts from `0` does not depend on the signs of zeros: what is added to it times 1 counts as it is, and what is added
times 0 might as well be left out.
-/
namespace Lineup.Number

open Float.Model (UnpackedFloat Format)
open Float.Model.UnpackedFloat

theorem eq_minusZero_iff {x : Float} : x = -0.0 ↔ x.toModel.unpack = .zero .negative := by
  constructor
  · intro h
    subst h
    rfl
  · intro h
    exact eq_of_parts (h.trans rfl)

theorem parts_of_steps {u v : UnpackedFloat} (hcu : Canonical u) (hcv : Canonical v) (hu : u.isFinite = true)
    (hv : v.isFinite = true) (h : stepsOf u = stepsOf v) : u = v ∨ ∃ s t, u = .zero s ∧ v = .zero t := by
  cases u with
  | notANumber => cases hu
  | infinity s => cases hu
  | zero s =>
    cases v with
    | notANumber => cases hv
    | infinity t => cases hv
    | zero t => exact Or.inr ⟨s, t, rfl, rfl⟩
    | finite t m e hm =>
      have hb := finite_bounds hcv
      cases t <;> simp only [stepsOf, Sign.apply] at h <;> omega
  | finite s m e hm =>
    have hb := finite_bounds hcu
    cases v with
    | notANumber => cases hv
    | infinity t => cases hv
    | zero t => cases s <;> simp only [stepsOf, Sign.apply] at h <;> omega
    | finite t m' e' hm' =>
      have hcmp := compare_finite_parts hcu hcv
      rw [h, Int.compare_eq_eq.2 rfl] at hcmp
      have hparts : s = t ∧ e = e' ∧ m = m' := by
        cases s <;> cases t <;> simp_all [UnpackedFloat.compare, Ordering.then_eq_eq]
      obtain ⟨rfl, rfl, rfl⟩ := hparts
      exact Or.inl rfl

/-- **Alike doubles are equal unless one of them is `-0`.** -/
theorem eq_of_alike {x y : Float} (h : Alike x y) (hx : x ≠ -0.0) (hy : y ≠ -0.0) : x = y := by
  rw [Ne, eq_minusZero_iff] at hx hy
  cases hfin : x.isFinite with
  | false => exact h.eq_of_not_finite hfin
  | true =>
    have hfin' := h.isFinite_eq.symm.trans hfin
    refine eq_of_parts ?_
    rcases parts_of_steps (canonical x) (canonical y) hfin hfin' (h.2 (notNaN_of_isFinite hfin))
      with heq | ⟨s, t, hs, ht⟩
    · exact heq
    · cases s with
      | negative => exact absurd hs hx
      | positive =>
        cases t with
        | negative => exact absurd ht hy
        | positive => rw [hs, ht]

theorem settle_ne_zero {n : Int} (h : n ≠ 0) : settle 0 n ≠ 0 := by
  have hone : settle 0 1 = 1 := settle_of_eq_mul 0 (a := 1) (k := 0) .positive (by decide) (by omega) (by omega)
  rcases Int.lt_or_gt_of_ne h with hneg | hpos
  · have hle := settle_mono 0 (show n ≤ -1 by omega)
    rw [settle_neg, hone] at hle
    omega
  · have hle := settle_mono 0 (show 1 ≤ n by omega)
    omega

theorem normalize_ne_minusZero (n : Int) {e : Int} (he : -1074 ≤ e) :
    (Float.Model.pack (UnpackedFloat.normalize Format.binary64 n e .positive)).unpack ≠ .zero .negative := by
  intro h
  by_cases hn : n = 0
  · subst hn
    cases (unpack_pack (u := .zero .positive) trivial).symm.trans h
  · have hsteps := (packsTo_normalize n he .positive).2
    rw [h] at hsteps
    exact settle_ne_zero (Int.mul_ne_zero hn (Int.natCast_ne_zero.2 (Nat.two_pow_pos _).ne')) hsteps.symm

/-- **A sum is `-0` only when both of its terms are.** -/
theorem add_ne_minusZero {x : Float} (hx : x ≠ -0.0) (y : Float) : x + y ≠ -0.0 := by
  rw [Ne, eq_minusZero_iff] at hx ⊢
  intro hsum
  obtain ⟨hfx, hfy⟩ : x.isFinite = true ∧ y.isFinite = true := isFinite_of_add (by rw [isFinite_def, hsum]; rfl)
  have hcx := canonical x
  have hcy := canonical y
  change (Float.Model.pack (UnpackedFloat.add Format.binary64 x.toModel.unpack y.toModel.unpack)).unpack = _ at hsum
  rw [isFinite_def] at hfx hfy
  generalize x.toModel.unpack = u at *
  generalize y.toModel.unpack = v at *
  cases u with
  | notANumber => cases hfx
  | infinity s => cases hfx
  | zero s =>
    cases s with
    | negative => exact hx rfl
    | positive =>
      cases v with
      | notANumber => cases hfy
      | infinity t => cases hfy
      | zero t => cases t <;> cases (unpack_pack (u := .zero .positive) trivial).symm.trans hsum
      | finite t m e hm => cases (unpack_pack hcy).symm.trans hsum
  | finite s m e hm =>
    cases v with
    | notANumber => cases hfy
    | infinity t => cases hfy
    | zero t => cases (unpack_pack hcx).symm.trans hsum
    | finite t m' e' hm' => exact normalize_ne_minusZero _ (Int.le_min.2 ⟨hcx.2.1, hcy.2.1⟩) hsum

theorem foldl_add_ne_minusZero {α : Type} (f : α → Float) : ∀ (xs : List α) {total : Float}, total ≠ -0.0 →
    xs.foldl (fun total x => total + f x) total ≠ -0.0
  | [], _, h => h
  | _ :: xs, _, h => foldl_add_ne_minusZero f xs (add_ne_minusZero h _)

theorem zero_ne_minusZero : (0.0 : Float) ≠ -0.0 := by decide

theorem dot_ne_minusZero (coefficients values : List Float) : dot coefficients values ≠ -0.0 :=
  foldl_add_ne_minusZero (fun ax : Float × Float => ax.1 * ax.2) _ zero_ne_minusZero

theorem ofNat_ne_minusZero (n : Nat) : Float.ofNat n ≠ -0.0 := by
  intro h
  by_cases hn : n = 0
  · subst hn
    exact absurd h (by decide)
  · have hsteps := (steps_ofNat n).2
    have hzero : steps (-0.0) = 0 := rfl
    rw [h, hzero] at hsteps
    exact settle_ne_zero (Int.natCast_ne_zero.2 (Nat.mul_ne_zero hn unitSteps_pos.ne')) hsteps.symm

theorem sum_bits {values : List Float} (h : values.all isBit = true) :
    values.foldl (fun total x => total + 1.0 * x) 0.0 = Float.ofNat (min (values.countP (· == 1.0)) (2 ^ 53)) := by
  obtain ⟨hfin, hsum⟩ := steps_sum_bits_from_zero h
  obtain ⟨hnan, hwhole⟩ := steps_ofNat (min (values.countP (· == 1.0)) (2 ^ 53))
  rw [settle_whole (Nat.min_le_right _ _)] at hwhole
  exact eq_of_alike (alike_of_steps (notNaN_of_isFinite hfin) hnan (hsum.trans hwhole.symm))
    (foldl_add_ne_minusZero (1.0 * ·) values zero_ne_minusZero) (ofNat_ne_minusZero _)

/-! ## Sums over those that count -/

theorem settle_mul_pow (j : Nat) (n : Int) : settle j (n * (2 ^ j : Nat)) = settle 0 n * (2 ^ j : Nat) := by
  have hnat : ∀ a : Nat, settle j ((a : Int) * (2 ^ j : Nat)) = settle 0 a * (2 ^ j : Nat) := by
    intro a
    have hnearest := nearest_mul_pow 0 a j
    rw [Nat.zero_add] at hnearest
    rw [← Nat.cast_mul, settle_ofNat, settle_ofNat, hnearest, ← Nat.cast_mul, Nat.pow_zero, Nat.mul_one,
      Nat.mul_min_mul_right]
  rcases Int.natAbs_eq n with h | h
  · rw [h]
    exact hnat _
  · rw [h, Int.neg_mul, settle_neg, settle_neg, hnat, Int.neg_mul]

theorem alike_mul_one {a : Float} (ha : a.isFinite = true) : Alike (a * 1.0) a := by
  obtain ⟨hnan, hmul⟩ := steps_mul ha isFinite_one
  refine alike_of_steps hnan (notNaN_of_isFinite ha)
    (Int.eq_of_mul_eq_mul_right (Int.natCast_ne_zero.2 unitSteps_pos.ne') ?_)
  rw [hmul, steps_one, unitSteps, settle_mul_pow, settle_steps ha]

theorem alike_mul_zero {a : Float} (ha : a.isFinite = true) : Alike (a * 0.0) 0.0 := by
  obtain ⟨hnan, hmul⟩ := steps_mul ha isFinite_zero
  refine alike_of_steps hnan (notNaN_of_isFinite isFinite_zero) ?_
  rw [steps_zero, Int.mul_zero, settle_zero] at hmul
  rw [steps_zero]
  exact (Int.mul_eq_zero.1 hmul).resolve_right (Int.natCast_ne_zero.2 unitSteps_pos.ne')

theorem alike_add_zero (x : Float) : Alike (x + 0.0) x := by
  cases hx : x.isFinite with
  | false =>
    rw [add_of_not_finite hx isFinite_zero]
    exact Alike.refl x
  | true =>
    obtain ⟨hnan, hsum⟩ := steps_add hx isFinite_zero
    refine alike_of_steps hnan (notNaN_of_isFinite hx) ?_
    rw [hsum, steps_zero, Int.add_zero, settle_steps hx]

section Total

variable {total a : Float} (htotal : total ≠ -0.0) (ha : a.isFinite = true)
include htotal ha

theorem add_mul_one : total + a * 1.0 = total + a :=
  eq_of_alike ((Alike.refl total).add (alike_mul_one ha)) (add_ne_minusZero htotal _) (add_ne_minusZero htotal _)

theorem add_mul_zero : total + a * 0.0 = total := by
  have hzero : total + a * 0.0 = total + 0.0 :=
    eq_of_alike ((Alike.refl total).add (alike_mul_zero ha)) (add_ne_minusZero htotal _) (add_ne_minusZero htotal _)
  rw [hzero]
  exact eq_of_alike (alike_add_zero total) (add_ne_minusZero htotal _) htotal

end Total

/-- **A sum of products with ones and zeros is the sum over the ones**, to the last bit. -/
theorem dot_select {α : Type} (f : α → Float) (chosen : α → Bool) (xs : List α) (h : ∀ x ∈ xs, (f x).isFinite = true) :
    dot (xs.map f) (xs.map fun x => if chosen x then 1.0 else 0.0) = ((xs.filter chosen).map f).foldl (· + ·) 0.0 := by
  have hfold : ∀ (xs : List α) (total : Float), (∀ x ∈ xs, (f x).isFinite = true) → total ≠ -0.0 →
      ((xs.map f).zip (xs.map fun x => if chosen x then 1.0 else 0.0)).foldl
        (fun total ax => total + ax.1 * ax.2) total =
        ((xs.filter chosen).map f).foldl (· + ·) total := by
    intro xs
    induction xs with
    | nil =>
      intro total _ _
      rfl
    | cons x xs ih =>
      intro total hfin htotal
      have hx := hfin x List.mem_cons_self
      have hxs := fun y hy => hfin y (List.mem_cons_of_mem x hy)
      rw [List.map_cons, List.map_cons, List.zip_cons_cons, List.foldl_cons, List.filter_cons]
      by_cases hc : chosen x = true
      · rw [if_pos hc, if_pos hc, add_mul_one htotal hx, List.map_cons, List.foldl_cons]
        exact ih _ hxs (add_ne_minusZero htotal _)
      · rw [if_neg hc, if_neg hc, add_mul_zero htotal hx]
        exact ih _ hxs htotal
  exact hfold xs 0.0 h zero_ne_minusZero

end Lineup.Number
