import Lineup.Engine
import Lineup.Proofs.Number.Arithmetic
/-!
# Counting — whole numbers as doubles, and sums of zeros and ones

A double is exactly a whole number up to `2 ^ 53`; there a sum of ones comes to rest, since the next double is two
further on.  So the sum tells how many ones there are, unless it is held against `2 ^ 53` itself or the number after it,
which is read as `2 ^ 53`.
-/
namespace Lineup.Number

open Float.Model (UnpackedFloat Format)
open Float.Model.UnpackedFloat

/-! ## Zero and one -/

theorem isFinite_zero : (0.0 : Float).isFinite = true := rfl

theorem isFinite_one : (1.0 : Float).isFinite = true := rfl

theorem steps_zero : steps 0.0 = 0 := rfl

theorem steps_one : steps 1.0 = unitSteps := by decide +kernel

/-! ## Whole numbers -/

theorem unitSteps_mul_self : unitSteps * unitSteps = 2 ^ 2148 := by
  unfold unitSteps
  exact two_pow_mul (a := 1074) (b := 1074) rfl

theorem two_pow_mul_unitSteps_le {k : Nat} (h : k ≤ 1024) : 2 ^ k * unitSteps ≤ farthest := by
  unfold unitSteps farthest
  rw [← Nat.pow_add]
  exact two_pow_le (by omega)

theorem settle_unitSteps_mul {a k : Nat} (ha : a < 2 ^ 53) (hk : k ≤ 53) :
    settle 0 (a * 2 ^ k * unitSteps : Nat) = (a * 2 ^ k * unitSteps : Nat) := by
  have h : a * 2 ^ k * unitSteps = a * 2 ^ (k + 1074) := by
    unfold unitSteps
    rw [Nat.mul_assoc, ← Nat.pow_add]
  rw [h]
  exact settle_of_eq_mul 0 .positive ha (Nat.zero_le _) (by omega)

theorem settle_whole {n : Nat} (h : n ≤ 2 ^ 53) : settle 0 (n * unitSteps : Nat) = (n * unitSteps : Nat) := by
  rcases Nat.lt_or_eq_of_le h with hlt | heq
  · simpa only [pow_zero, mul_one] using settle_unitSteps_mul (k := 0) hlt (by omega)
  · have := settle_unitSteps_mul (a := 1) (k := 53) (by decide) (Nat.le_refl _)
    rwa [Nat.one_mul, ← heq] at this

/-- The number after `2 ^ 53` is halfway to the next double, and goes back. -/
theorem settle_stuck : settle 0 ((2 ^ 53 + 1) * unitSteps : Nat) = (2 ^ 53 * unitSteps : Nat) := by
  have hn : nearest 0 ((2 ^ 53 + 1) * unitSteps) = 2 ^ 53 * unitSteps := by
    unfold unitSteps
    rw [nearest_zero_mul_pow, show nearest 0 (2 ^ 53 + 1) = 2 ^ 53 by decide]
  rw [settle_ofNat, hn, Nat.pow_zero, Nat.mul_one, Nat.min_eq_left (two_pow_mul_unitSteps_le (by omega))]

theorem steps_mul_one {x : Float} {n : Nat} (hx : x.isFinite = true) (hn : n < 2 ^ 53)
    (h : steps x = (n * unitSteps : Nat)) : (x * 1.0).isNaN = false ∧ steps (x * 1.0) = (n * unitSteps : Nat) := by
  obtain ⟨hnan, hmul⟩ := steps_mul hx isFinite_one
  refine ⟨hnan, Int.eq_of_mul_eq_mul_right (Int.natCast_ne_zero.2 unitSteps_pos.ne') ?_⟩
  rw [hmul, h, steps_one, ← Nat.cast_mul, Nat.mul_assoc, unitSteps_mul_self]
  exact settle_of_eq_mul 1074 .positive hn (by omega) (by omega)

section OfNat

variable {n : Nat}

theorem steps_toFloat (h : n < 2 ^ 53) :
    (n.toUInt64).toFloat.isFinite = true ∧ steps (n.toUInt64).toFloat = (n * unitSteps : Nat) := by
  have hn64 : (n.toUInt64).toNat = n := by
    rw [Nat.toUInt64_eq, UInt64.toNat_ofNat']
    exact Nat.mod_eq_of_lt (by omega)
  have hnormal := packsTo_normalize ((n.toUInt64).toNat : Int) (e := 0) (by omega) .positive
  have hnan : (n.toUInt64).toFloat.isNaN = false := hnormal.1
  have hsteps : steps (n.toUInt64).toFloat = (n * unitSteps : Nat) := by
    refine Eq.trans hnormal.2 ?_
    rw [hn64, ← Nat.cast_mul, show ((0 : Int) + 1074).toNat = 1074 by rfl]
    exact settle_whole (Nat.le_of_lt h)
  refine ⟨(isFinite_iff hnan).2 ?_, hsteps⟩
  rw [hsteps, Int.natAbs_natCast]
  exact Nat.lt_of_lt_of_le (Nat.mul_lt_mul_of_pos_right h unitSteps_pos) (two_pow_mul_unitSteps_le (by omega))

theorem ofScientific_of_lt (h : n < 2 ^ 53) : Float.ofScientific n false 0 = (n.toUInt64).toFloat * 1.0 := by
  have hpower : Float.exactlyRepresentablePowersOfTen[0]? = some 1.0 := rfl
  obtain ⟨hlt, hten⟩ := Array.getElem?_eq_some_iff.1 hpower
  unfold Float.ofScientific
  rw [dif_pos ⟨h, by decide⟩]
  exact congrArg (fun p => (n.toUInt64).toFloat * p) hten

theorem ofScientific_of_le (h : 2 ^ 53 ≤ n) : Float.ofScientific n false 0 =
    .ofModel (.pack (roundWithAccuracy Format.binary64 .positive (n <<< 53) (-53) .exact)) := by
  have hbits : (0 : Int) ≤ 2 ^ Format.binary64.exponentBits := by positivity
  unfold Float.ofScientific
  rw [dif_neg (fun hc => Nat.not_lt_of_le h hc.1)]
  change Float.ofModel (.pack (UnpackedFloat.ofScientific Format.binary64 n 0)) = _
  unfold UnpackedFloat.ofScientific
  rw [dif_neg (by omega), if_neg (by decide), if_neg (by omega), if_pos (by decide), ← Nat.mul_one (n <<< 53)]
  rfl

theorem steps_ofNat (n : Nat) :
    (Float.ofNat n).isNaN = false ∧ steps (Float.ofNat n) = settle 0 (n * unitSteps : Nat) := by
  unfold Float.ofNat
  change (Float.ofScientific n false 0).isNaN = false ∧ steps (Float.ofScientific n false 0) = _
  by_cases h : n < 2 ^ 53
  · obtain ⟨hfin, hsteps⟩ := steps_toFloat h
    rw [ofScientific_of_lt h, settle_whole (Nat.le_of_lt h)]
    exact steps_mul_one hfin h hsteps
  · have hlead : 2 ^ 52 ≤ n <<< 53 := by
      rw [Nat.shiftLeft_eq]
      omega
    have hround := packsTo_round_zero .positive (m := n <<< 53) (e := -53) (by omega) (Or.inl hlead) (by omega)
    have hpow : n <<< 53 * 2 ^ ((-53 : Int) + 1074).toNat = n * unitSteps := by
      unfold unitSteps
      rw [Nat.shiftLeft_eq, show ((-53 : Int) + 1074).toNat = 1021 by rfl, Nat.mul_assoc,
        two_pow_mul (a := 53) (b := 1021) rfl]
    rw [hpow, Sign.apply] at hround
    rw [ofScientific_of_le (Nat.le_of_not_lt h)]
    exact hround.steps_eq

end OfNat

theorem isFinite_ofNat {n : Nat} (h : n < 2 ^ 64) : (Float.ofNat n).isFinite = true := by
  obtain ⟨hnan, hsteps⟩ := steps_ofNat n
  have hpos := unitSteps_pos
  have hbound : n * unitSteps ≤ 2 ^ 11 * 2 ^ 53 * unitSteps := Nat.mul_le_mul_right _ (by omega)
  have hhi := settle_mono 0 (Int.ofNat_le.2 hbound)
  have hlo := settle_mono 0 (Int.natCast_nonneg (n * unitSteps))
  rw [settle_unitSteps_mul (a := 2 ^ 11) (by decide) (by omega)] at hhi
  rw [settle_zero] at hlo
  have hfar : 2 ^ 65 * unitSteps ≤ farthest := two_pow_mul_unitSteps_le (by omega)
  rw [isFinite_iff hnan, hsteps]
  generalize settle 0 (n * unitSteps : Nat) = whole at hlo hhi
  generalize unitSteps = unit at hpos hhi hfar
  omega

/-! ## Sums of zeros and ones -/

/-- A double that is equal to 0 or to 1 as a number: a zero may carry either sign. -/
def isBit (x : Float) : Bool := x == 0.0 || x == 1.0

theorem beq_def {x y : Float} : (x == y) = true ↔ x.toModel.unpack.compare y.toModel.unpack = some .eq := by
  change (x.toModel.unpack.compare y.toModel.unpack == some .eq) = true ↔ _
  rw [beq_iff_eq]

theorem steps_of_beq {x y : Float} (hy : y.isNaN = false) (h : (x == y) = true) :
    x.isNaN = false ∧ steps x = steps y := by
  rw [beq_def] at h
  have hx : x.isNaN = false := by
    rw [isNaN_def]
    cases hu : x.toModel.unpack <;> rw [hu] at h <;> first | rfl | cases h
  rw [compare_parts (canonical x) (canonical y) hx hy, Option.some_inj, Int.compare_eq_eq] at h
  exact ⟨hx, h⟩

theorem beq_of_steps {x y : Float} (hx : x.isNaN = false) (hy : y.isNaN = false) (h : steps x = steps y) :
    (x == y) = true := by
  rw [beq_def, compare_parts (canonical x) (canonical y) hx hy, Option.some_inj, Int.compare_eq_eq]
  exact h

theorem steps_of_isBit {x : Float} (h : isBit x = true) :
    x.isFinite = true ∧ (steps x = 0 ∨ steps x = unitSteps) ∧ ((x == 1.0) = true ↔ steps x = unitSteps) := by
  have h₀ := notNaN_of_isFinite isFinite_zero
  have h₁ := notNaN_of_isFinite isFinite_one
  have hunit : unitSteps < farthest := by
    have := two_pow_mul_unitSteps_le (k := 1) (by omega)
    have := unitSteps_pos
    omega
  have hpos := unitSteps_pos
  unfold isBit at h
  rw [Bool.or_eq_true] at h
  have hparts : x.isNaN = false ∧ (steps x = 0 ∨ steps x = unitSteps) := by
    rcases h with h | h
    · exact ⟨(steps_of_beq h₀ h).1, Or.inl ((steps_of_beq h₀ h).2.trans steps_zero)⟩
    · exact ⟨(steps_of_beq h₁ h).1, Or.inr ((steps_of_beq h₁ h).2.trans steps_one)⟩
  refine ⟨(isFinite_iff hparts.1).2 (by omega), hparts.2, fun h' => ?_, fun h' => ?_⟩
  · exact (steps_of_beq h₁ h').2.trans steps_one
  · exact beq_of_steps hparts.1 h₁ (h'.trans steps_one.symm)

theorem steps_one_mul_bit {x : Float} (h : isBit x = true) : (1.0 * x).isFinite = true ∧ steps (1.0 * x) = steps x := by
  obtain ⟨hfin, hx, -⟩ := steps_of_isBit h
  obtain ⟨hnan, hmul⟩ := steps_mul isFinite_one hfin
  have hpos := unitSteps_pos
  have hsettle : settle 1074 (steps 1.0 * steps x) = steps x * unitSteps := by
    rw [steps_one]
    rcases hx with hx | hx
    · rw [hx, Int.mul_zero, Int.zero_mul, settle_zero]
    · have hunit := settle_of_eq_mul 1074 (a := 1) (k := 2148) .positive (by decide) (by omega) (by omega)
      rw [Nat.one_mul] at hunit
      rw [hx, ← Nat.cast_mul, unitSteps_mul_self]
      exact hunit
  have hsteps : steps (1.0 * x) = steps x :=
    Int.eq_of_mul_eq_mul_right (Int.natCast_ne_zero.2 unitSteps_pos.ne') (hmul.trans hsettle)
  refine ⟨(isFinite_iff hnan).2 ?_, hsteps⟩
  rw [hsteps]
  exact natAbs_steps_lt hfin

theorem settle_count (k : Nat) (bit : Nat) (hbit : bit ≤ 1) :
    settle 0 ((min k (2 ^ 53) * unitSteps : Nat) + (bit * unitSteps : Nat)) =
      (min (k + bit) (2 ^ 53) * unitSteps : Nat) := by
  rw [← Nat.cast_add, ← Nat.add_mul]
  by_cases h : min k (2 ^ 53) + bit ≤ 2 ^ 53
  · rw [settle_whole h]
    congr 2
    omega
  · rw [show min k (2 ^ 53) + bit = 2 ^ 53 + 1 by omega, settle_stuck, Nat.min_eq_right (by omega)]

theorem countP_cons_of_isBit {x : Float} (h : isBit x = true) (values : List Float) :
    ∃ one ≤ 1, steps x = (one * unitSteps : Nat) ∧
      (x :: values).countP (· == 1.0) = one + values.countP (· == 1.0) := by
  obtain ⟨-, hx, hone⟩ := steps_of_isBit h
  have hpos := unitSteps_pos
  rcases hx with hx | hx
  · refine ⟨0, by omega, by rw [hx, Nat.zero_mul]; rfl, ?_⟩
    rw [List.countP_cons_of_neg (p := (· == (1.0 : Float))) (fun hc => by rw [hone] at hc; omega), Nat.zero_add]
  · refine ⟨1, Nat.le_refl 1, by rw [hx, Nat.one_mul], ?_⟩
    rw [List.countP_cons_of_pos (p := (· == (1.0 : Float))) (hone.2 hx), Nat.add_comm]

/-- **A sum of zeros and ones counts the ones**, up to `2 ^ 53`. -/
theorem steps_sum_bits : ∀ (values : List Float) (total : Float) (k : Nat), values.all isBit = true →
    total.isFinite = true → steps total = (min k (2 ^ 53) * unitSteps : Nat) →
    (values.foldl (fun total x => total + 1.0 * x) total).isFinite = true ∧
      steps (values.foldl (fun total x => total + 1.0 * x) total) =
        (min (k + values.countP (· == 1.0)) (2 ^ 53) * unitSteps : Nat)
  | [], total, k, _, hfin, h => by
    rw [List.foldl_nil, List.countP_nil, Nat.add_zero]
    exact ⟨hfin, h⟩
  | x :: values, total, k, hbits, hfin, h => by
    rw [List.all_cons, Bool.and_eq_true] at hbits
    obtain ⟨hfin₁, hsteps₁⟩ := steps_one_mul_bit hbits.1
    obtain ⟨hnan, hsum⟩ := steps_add hfin hfin₁
    obtain ⟨one, hone, hx, hcons⟩ := countP_cons_of_isBit hbits.1 values
    rw [h, hsteps₁, hx, settle_count k one hone] at hsum
    have hfin' : (total + 1.0 * x).isFinite = true := by
      rw [isFinite_iff hnan, hsum, Int.natAbs_natCast]
      have hle := Nat.mul_le_mul_right unitSteps (Nat.min_le_right (k + one) (2 ^ 53))
      have htwo : 2 ^ 53 * unitSteps < 2 ^ 54 * unitSteps := Nat.mul_lt_mul_of_pos_right (by decide) unitSteps_pos
      exact Nat.lt_of_le_of_lt hle (Nat.lt_of_lt_of_le htwo (two_pow_mul_unitSteps_le (by omega)))
    rw [List.foldl_cons, hcons, ← Nat.add_assoc]
    exact steps_sum_bits values _ _ hbits.2 hfin' hsum

theorem steps_sum_bits_from_zero {values : List Float} (h : values.all isBit = true) :
    (values.foldl (fun total x => total + 1.0 * x) 0.0).isFinite = true ∧
      steps (values.foldl (fun total x => total + 1.0 * x) 0.0) =
        (min (values.countP (· == 1.0)) (2 ^ 53) * unitSteps : Nat) := by
  have hsum := steps_sum_bits values 0.0 0 h isFinite_zero (by rw [Nat.zero_min, Nat.zero_mul]; exact steps_zero)
  rwa [Nat.zero_add] at hsum

theorem settle_sub {a b : Nat} (ha : a ≤ 2 ^ 53) (hb : b ≤ 2 ^ 53) :
    settle 0 ((a * unitSteps : Nat) - (b * unitSteps : Nat)) = (a * unitSteps : Nat) - (b * unitSteps : Nat) := by
  have hexact : ∀ {a b : Nat}, a ≤ 2 ^ 53 → b ≤ a →
      settle 0 ((a * unitSteps : Nat) - (b * unitSteps : Nat)) = (a * unitSteps : Nat) - (b * unitSteps : Nat) := by
    intro a b ha hba
    rw [← Nat.cast_sub (Nat.mul_le_mul_right _ hba), ← Nat.sub_mul]
    exact settle_whole (by omega)
  rcases Nat.le_total b a with h | h
  · exact hexact ha h
  · rw [← Int.neg_sub, settle_neg, hexact hb h]

theorem le_settle_of_lt {n : Nat} (h : 2 ^ 53 + 1 < n) :
    ((2 ^ 53 + 2) * unitSteps : Nat) ≤ settle 0 (n * unitSteps : Nat) := by
  have hnext := settle_unitSteps_mul (a := 2 ^ 52 + 1) (k := 1) (by decide) (by omega)
  rw [show (2 ^ 52 + 1) * 2 ^ 1 = 2 ^ 53 + 2 by omega] at hnext
  rw [← hnext]
  exact settle_mono 0 (Int.ofNat_le.2 (Nat.mul_le_mul_right _ h))

theorem unitSteps_lt_settle {d : Int} (h : (2 * unitSteps : Nat) ≤ d) : unitSteps < settle 0 d := by
  have htwo := settle_unitSteps_mul (a := 1) (k := 1) (by decide) (by omega)
  rw [show 1 * 2 ^ 1 = 2 by omega] at htwo
  have hle := settle_mono 0 h
  have hpos := unitSteps_pos
  rw [htwo] at hle
  generalize settle 0 d = settled at hle
  generalize unitSteps = unit at hle hpos
  omega

/-- A double that is less than 1 away from a whole number counts it, as long as the count or the number is not at rest.
-/
theorem eq_of_near {x t : Float} {k n : Nat} (hx : x.isFinite = true)
    (hsteps : steps x = (min k (2 ^ 53) * unitSteps : Nat))
    (hn : (k ≤ 2 ^ 53 ∧ n ≤ 2 ^ 53) ∨ (n ≠ 2 ^ 53 ∧ n ≠ 2 ^ 53 + 1)) (ht : steps t < unitSteps)
    (hnear : (x - Float.ofNat n).abs ≤ t) : k = n := by
  obtain ⟨hnan, hwhole⟩ := steps_ofNat n
  have hdiff : (steps (x - Float.ofNat n)).natAbs < unitSteps := by
    have := steps_le_of_le hnear
    rw [steps_abs] at this
    omega
  have hfin : (Float.ofNat n).isFinite = true := by
    have hnan' := (notNaN_of_le hnear).1
    rw [isNaN_abs] at hnan'
    have hsub : (x - Float.ofNat n).isFinite = true := by
      have hfar := two_pow_mul_unitSteps_le (k := 0) (by omega)
      exact (isFinite_iff hnan').2 (by omega)
    rw [sub_eq_add_neg] at hsub
    rw [← isFinite_neg]
    exact (isFinite_of_add hsub).2
  rw [(steps_sub hx hfin).2, hsteps, hwhole] at hdiff
  by_cases hsmall : n ≤ 2 ^ 53
  · -- both sides are exact, and so is their difference
    rw [settle_whole hsmall, settle_sub (Nat.min_le_right _ _) hsmall] at hdiff
    have hless : ((min k (2 ^ 53) : Nat) - (n : Int)).natAbs < 1 := by
      rw [← natAbs_mul_lt _ 1 unitSteps_pos, Int.sub_mul, ← Nat.cast_mul, ← Nat.cast_mul, Nat.one_mul]
      exact hdiff
    omega
  · have hbig := le_settle_of_lt (n := n) (by omega)
    have hle := Nat.mul_le_mul_right unitSteps (Nat.min_le_right k (2 ^ 53))
    have hapart : (2 * unitSteps : Nat) ≤ settle 0 (n * unitSteps : Nat) - (min k (2 ^ 53) * unitSteps : Nat) := by
      generalize settle 0 (n * unitSteps : Nat) = whole at hbig
      generalize min k (2 ^ 53) * unitSteps = count at hle
      generalize unitSteps = unit at hbig hle
      omega
    have hfar := unitSteps_lt_settle hapart
    rw [← Int.natAbs_neg, ← settle_neg, Int.neg_sub] at hdiff
    omega

end Lineup.Number
