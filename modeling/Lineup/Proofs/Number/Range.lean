import Lineup.Number.Exact
import Lineup.Proofs.Number.Arithmetic
/-!
# Range — which sums and products are finite

Finite doubles may have a sum or a product that is not: one whose exact value is too large to be rounded to a double.
Nothing that is not finite becomes finite again by adding or multiplying, so a sum from left to right is finite exactly
when none of its steps leaves the range.
-/
namespace Lineup.Number

open Float.Model (UnpackedFloat Format)
open Float.Model.UnpackedFloat

/-! ## Exact values -/

/-- The exact value of a finite double, and 0 for any other. -/
def exact (x : Float) : Rat := (toRat? x).getD 0

theorem Parts.toRat_mul_two_pow {N : Nat} (p : Parts) (h : -(N : Int) ≤ p.exponent) :
    p.toRat * 2 ^ N =
      (if p.negative then -1 else 1) * ((p.significand * 2 ^ (p.exponent + N).toNat : Nat) : Rat) := by
  have hsize : (if 0 ≤ p.exponent then ((p.significand * Nat.pow 2 p.exponent.toNat : Nat) : Rat)
      else (p.significand : Rat) / (Nat.pow 2 (-p.exponent).toNat : Rat)) * 2 ^ N =
        ((p.significand * 2 ^ (p.exponent + N).toNat : Nat) : Rat) := by
    split
    · rename_i hpos
      rw [show (p.exponent + N).toNat = p.exponent.toNat + N by omega, pow_add, ← mul_assoc, Nat.cast_mul _ (2 ^ N),
        Nat.cast_pow]
      rfl
    · rename_i hneg
      have hsplit : N = (-p.exponent).toNat + (p.exponent + N).toNat := by omega
      have hne : (2 : Rat) ^ (-p.exponent).toNat ≠ 0 := pow_ne_zero _ two_ne_zero
      have hpow : ((Nat.pow 2 (-p.exponent).toNat : Nat) : Rat) = 2 ^ (-p.exponent).toNat := Nat.cast_pow 2 _
      rw [hpow]
      conv =>
        lhs
        rw [hsplit, pow_add]
      rw [Nat.cast_mul, Nat.cast_pow, Nat.cast_ofNat, ← mul_assoc, div_mul_cancel₀ _ hne]
  unfold Parts.toRat
  dsimp only
  rw [← hsize]
  split <;> ring

theorem cast_unitSteps : (unitSteps : Rat) = 2 ^ 1074 := by
  unfold unitSteps
  exact Nat.cast_pow 2 1074

theorem cast_unitSteps_pos : (0 : Rat) < unitSteps := Nat.cast_pos.2 unitSteps_pos

theorem exact_mul_unitSteps {x : Float} (h : x.isFinite = true) : exact x * unitSteps = (steps x : Rat) := by
  have hc := canonical x
  rw [isFinite_def] at h
  rw [cast_unitSteps]
  unfold exact toRat? parts? steps
  cases hu : x.toModel.unpack with
  | infinity s => rw [hu] at h; cases h
  | notANumber => rw [hu] at h; cases h
  | zero s =>
    dsimp only
    rw [Option.map_some, Option.getD_some, Parts.toRat_mul_two_pow _ (show -((1074 : Nat) : Int) ≤ 0 by omega),
      Nat.zero_mul, Nat.cast_zero, mul_zero]
    exact Int.cast_zero.symm
  | finite s m e hm =>
    rw [hu] at hc
    dsimp only
    rw [Option.map_some, Option.getD_some, Parts.toRat_mul_two_pow _ hc.2.1]
    cases s
    · simp only [isNegative, stepsOf, Sign.apply, if_true, Int.cast_neg, Int.cast_natCast]
      exact neg_one_mul _
    · simp only [isNegative, stepsOf, Sign.apply, Bool.false_eq_true, if_false, Int.cast_natCast]
      exact one_mul _

/-! ## The range -/

/-- Numbers of a smaller magnitude are rounded to finite doubles, all others are not. -/
def rangeLimit : Rat := 2 ^ 1024 - 2 ^ 970

theorem rangeLimit_mul_unitSteps : rangeLimit * unitSteps = ((2 ^ 2098 - 2 ^ 2044 : Nat) : Rat) := by
  have hle : 2 ^ 2044 ≤ 2 ^ 2098 := two_pow_le (a := 2044) (b := 2098) (by omega)
  have hcast : ∀ n : Nat, ((2 ^ n : Nat) : Rat) = 2 ^ n := fun n => Nat.cast_pow 2 n
  unfold rangeLimit
  rw [cast_unitSteps, sub_mul, ← pow_add, ← pow_add, Nat.cast_sub hle, hcast, hcast]

/-- **A sum is finite when its exact value is in range.** -/
theorem isFinite_add_exact {x y : Float} (hx : x.isFinite = true) (hy : y.isFinite = true) :
    (x + y).isFinite = true ↔ |exact x + exact y| < rangeLimit := by
  rw [isFinite_add_iff hx hy, ← mul_lt_mul_iff_left₀ cast_unitSteps_pos, rangeLimit_mul_unitSteps,
    ← abs_of_pos cast_unitSteps_pos, ← abs_mul, add_mul, exact_mul_unitSteps hx,
    exact_mul_unitSteps hy, ← Int.cast_add, ← Int.cast_abs, Int.abs_eq_natAbs, Int.cast_natCast, Nat.cast_lt]

theorem isFinite_mul_exact {x y : Float} (hx : x.isFinite = true) (hy : y.isFinite = true) :
    (x * y).isFinite = true ↔ |exact x * exact y| < rangeLimit := by
  have hscale : exact x * exact y * (unitSteps * unitSteps) = ((steps x * steps y : Int) : Rat) := by
    rw [mul_mul_mul_comm, exact_mul_unitSteps hx, exact_mul_unitSteps hy, Int.cast_mul]
  have hpos : (0 : Rat) < unitSteps * unitSteps := mul_pos cast_unitSteps_pos cast_unitSteps_pos
  rw [isFinite_mul_iff hx hy, ← mul_lt_mul_iff_left₀ hpos, ← mul_assoc rangeLimit, rangeLimit_mul_unitSteps,
    ← abs_of_pos hpos, ← abs_mul, hscale, ← Nat.cast_mul, ← Int.cast_abs, Int.abs_eq_natAbs, Int.cast_natCast,
    Nat.cast_lt]

theorem isFinite_of_mul {x y : Float} (h : (x * y).isFinite = true) : x.isFinite = true ∧ y.isFinite = true := by
  have hmul : (UnpackedFloat.mul Format.binary64 x.toModel.unpack y.toModel.unpack).isFinite = true :=
    isFinite_of_pack h
  rw [isFinite_def, isFinite_def]
  cases hu : x.toModel.unpack <;> cases hv : y.toModel.unpack <;> rw [hu, hv] at hmul <;> first
    | exact ⟨rfl, rfl⟩
    | cases hmul

/-! ## Sums from left to right -/

def SumInRange : (total : Float) → List Float → Prop
  | _, [] => True
  | total, x :: xs => |exact total + exact x| < rangeLimit ∧ SumInRange (total + x) xs

instance SumInRange.decidable : (total : Float) → (xs : List Float) → Decidable (SumInRange total xs)
  | _, [] => .isTrue trivial
  | total, x :: xs =>
    have := SumInRange.decidable (total + x) xs
    inferInstanceAs (Decidable (|exact total + exact x| < rangeLimit ∧ SumInRange (total + x) xs))

theorem isFinite_of_foldl_add : ∀ {xs : List Float} {total : Float}, (xs.foldl (· + ·) total).isFinite = true →
    total.isFinite = true
  | [], _, h => h
  | _ :: _, _, h => (isFinite_of_add (isFinite_of_foldl_add h)).1

/-- **A sum is finite when all of its terms are and no partial sum leaves the range.** -/
theorem isFinite_foldl_add_iff : ∀ {xs : List Float} {total : Float}, total.isFinite = true →
    ((xs.foldl (· + ·) total).isFinite = true ↔ (∀ x ∈ xs, x.isFinite = true) ∧ SumInRange total xs)
  | [], total, h => ⟨fun _ => ⟨fun _ hx => absurd hx List.not_mem_nil, trivial⟩, fun _ => h⟩
  | x :: xs, total, h => by
    rw [List.foldl_cons]
    constructor
    · intro hsum
      have hnext := isFinite_of_foldl_add hsum
      have hx := (isFinite_of_add hnext).2
      obtain ⟨hall, hrange⟩ := (isFinite_foldl_add_iff hnext).1 hsum
      exact ⟨List.forall_mem_cons.2 ⟨hx, hall⟩, (isFinite_add_exact h hx).1 hnext, hrange⟩
    · rintro ⟨hall, hfirst, hrange⟩
      obtain ⟨hx, hall⟩ := List.forall_mem_cons.1 hall
      exact (isFinite_foldl_add_iff ((isFinite_add_exact h hx).2 hfirst)).2 ⟨hall, hrange⟩

end Lineup.Number
