import Lineup.Number.Exact
import Lineup.Proofs.Number.Zeros
/-!
# Order — the total order of doubles, in steps

Under the sign, the fields of a double make up a number that grows with its steps.  So the total order of doubles is
that of their steps; only the two zeros, which it tells apart, have the same.
-/
namespace Lineup.Number

open Float.Model (UnpackedFloat Format)
open Float.Model.UnpackedFloat

/-- The steps behind an exponent field and a mantissa field, the two fields taken as one number. -/
def fieldSteps (n : Nat) : Nat := if n / 2 ^ 52 = 0 then n else (2 ^ 52 + n % 2 ^ 52) * 2 ^ (n / 2 ^ 52 - 1)

theorem fieldSteps_lt_two_pow (n : Nat) : fieldSteps n < 2 ^ 52 * 2 ^ (n / 2 ^ 52) := by
  have hmod := Nat.mod_lt n (Nat.two_pow_pos 52)
  unfold fieldSteps
  split
  · rename_i h
    rw [h]
    omega
  · rename_i h
    obtain ⟨e, he⟩ := Nat.exists_eq_succ_of_ne_zero h
    rw [he, Nat.succ_sub_one, Nat.pow_succ 2 e, ← Nat.mul_assoc, Nat.mul_right_comm]
    exact Nat.mul_lt_mul_of_pos_right (by omega) (Nat.two_pow_pos e)

theorem two_pow_le_fieldSteps {n e : Nat} (h : e + 1 ≤ n / 2 ^ 52) : 2 ^ 52 * 2 ^ e ≤ fieldSteps n := by
  unfold fieldSteps
  rw [if_neg (by omega)]
  exact Nat.mul_le_mul (by omega) (two_pow_le (by omega))

theorem fieldSteps_strictMono : StrictMono fieldSteps := by
  intro n m h
  have hle : n / 2 ^ 52 ≤ m / 2 ^ 52 := Nat.div_le_div_right (Nat.le_of_lt h)
  rcases Nat.lt_or_eq_of_le hle with hlt | heq
  · exact Nat.lt_of_lt_of_le (fieldSteps_lt_two_pow n) (two_pow_le_fieldSteps hlt)
  · -- under one exponent the mantissas are in the order of the numbers
    have hn := Nat.div_add_mod n (2 ^ 52)
    have hm := Nat.div_add_mod m (2 ^ 52)
    unfold fieldSteps
    rw [heq]
    split_ifs
    · exact h
    · exact Nat.mul_lt_mul_of_pos_right (by omega) (Nat.two_pow_pos _)

theorem stepsOf_ofFields (s : Sign) {n : Nat} (h : n ≤ 2047 * 2 ^ 52) :
    stepsOf (ofFields s (n / 2 ^ 52) (n % 2 ^ 52)) = s.apply (fieldSteps n : Nat) := by
  unfold ofFields fieldSteps
  by_cases h2047 : n / 2 ^ 52 = 2047
  · have hmod : n % 2 ^ 52 = 0 := by omega
    rw [h2047, hmod, if_pos rfl, if_pos rfl, if_neg (by decide), Nat.add_zero, stepsOf,
      farthest_eq_mul (a := 52) (b := 2046) rfl]
  rw [if_neg h2047]
  by_cases h0 : n / 2 ^ 52 = 0
  · have hmod : n % 2 ^ 52 = n := by omega
    rw [if_pos h0, if_pos h0, hmod]
    by_cases hn : n = 0
    · rw [dif_pos hn, hn]
      cases s <;> rfl
    · rw [dif_neg hn, stepsOf]
      simp
  · have hexp : ((n / 2 ^ 52 : Nat) - 1075 + 1074 : Int).toNat = n / 2 ^ 52 - 1 := by omega
    rw [if_neg h0, if_neg h0, stepsOf, hexp]

def bitsOf (x : Float) : Nat := x.toBits.toNat % 2 ^ 63

theorem parts_eq (x : Float) : x.toModel.unpack =
    ofFields (if x.toBits.toNat < 2 ^ 63 then .positive else .negative) (bitsOf x / 2 ^ 52) (bitsOf x % 2 ^ 52) := by
  have hlt := x.toBits.toBitVec.isLt
  change UnpackedFloat.unpack Format.binary64 x.toBits.toBitVec = _
  rw [unpack_eq_ofFields]
  unfold bitsOf
  rw [show x.toBits.toNat = x.toBits.toBitVec.toNat from rfl]
  generalize x.toBits.toBitVec = b at *
  have hsign : @unpackSign Format.binary64 b = 0#1 ↔ b.toNat < 2 ^ 63 := by
    unfold unpackSign
    rw [← BitVec.toNat_inj, BitVec.toNat_cast, BitVec.extractLsb_toNat, Nat.shiftRight_eq_div_pow]
    change b.toNat / 2 ^ 63 % 2 ^ 1 = 0 ↔ _
    omega
  have hexponent : (@unpackExponent Format.binary64 b).toNat = b.toNat % 2 ^ 63 / 2 ^ 52 := by
    unfold unpackExponent
    rw [BitVec.toNat_cast, BitVec.extractLsb_toNat, Nat.shiftRight_eq_div_pow]
    change b.toNat / 2 ^ 52 % 2 ^ 11 = _
    omega
  have hmantissa : (@unpackMantissa Format.binary64 b).toNat = b.toNat % 2 ^ 63 % 2 ^ 52 := by
    unfold unpackMantissa
    rw [BitVec.toNat_cast, BitVec.extractLsb_toNat, Nat.shiftRight_zero]
    change b.toNat % 2 ^ 52 = _
    omega
  rw [hexponent, hmantissa]
  unfold Sign.ofBitVec
  exact congrArg (ofFields · _ _) (if_congr hsign rfl rfl)

section NotNaN

variable {x y : Float} (hx : x.isNaN = false) (hy : y.isNaN = false)
include hx

theorem bitsOf_le : bitsOf x ≤ 2047 * 2 ^ 52 := by
  by_contra hlarge
  have hlt : bitsOf x < 2 ^ 63 := Nat.mod_lt _ (Nat.two_pow_pos 63)
  rw [isNaN_def, parts_eq, ofFields, if_pos (by omega), if_neg (by omega)] at hx
  cases hx

theorem steps_eq_fieldSteps :
    steps x = if x.toBits.toNat < 2 ^ 63 then (fieldSteps (bitsOf x) : Int) else -fieldSteps (bitsOf x) := by
  unfold steps
  rw [parts_eq, stepsOf_ofFields _ (bitsOf_le hx)]
  split <;> rfl

theorem key_eq : key x = if x.toBits.toNat < 2 ^ 63 then (bitsOf x : Int) else -bitsOf x - 1 := by
  have hlt := x.toBits.toNat_lt
  unfold key bitsOf
  rw [if_neg (by rw [hx]; exact Bool.false_ne_true)]
  dsimp only
  split_ifs <;> omega

include hy

/-- **The total order is that of the steps**, but for the sign of a zero. -/
theorem key_lt_iff (hzero : x ≠ -0.0) (hzero' : y ≠ -0.0) : key x < key y ↔ steps x < steps y := by
  have hpos : ∀ {z : Float}, z.isNaN = false → z ≠ -0.0 → ¬ z.toBits.toNat < 2 ^ 63 → 0 < fieldSteps (bitsOf z) := by
    intro z hz hz0 hsign
    by_contra hnone
    have hbits : bitsOf z = 0 := by
      by_contra hbits
      exact hnone (Nat.zero_lt_of_lt (fieldSteps_strictMono (Nat.pos_of_ne_zero hbits)))
    refine hz0 (eq_minusZero_iff.2 ?_)
    rw [parts_eq, if_neg hsign, hbits]
    rfl
  have hlt := fieldSteps_strictMono.lt_iff_lt (a := bitsOf x) (b := bitsOf y)
  have hgt := fieldSteps_strictMono.lt_iff_lt (a := bitsOf y) (b := bitsOf x)
  have hposx := hpos hx hzero
  have hposy := hpos hy hzero'
  rw [key_eq hx, key_eq hy, steps_eq_fieldSteps hx, steps_eq_fieldSteps hy]
  split_ifs with hsx hsy hsy
  · omega
  · have := hposy hsy
    omega
  · have := hposx hsx
    omega
  · omega

theorem key_lt_of_steps_lt (h : steps x < steps y) : key x < key y := by
  have hlt := fieldSteps_strictMono.lt_iff_lt (a := bitsOf x) (b := bitsOf y)
  have hgt := fieldSteps_strictMono.lt_iff_lt (a := bitsOf y) (b := bitsOf x)
  rw [steps_eq_fieldSteps hx, steps_eq_fieldSteps hy] at h
  rw [key_eq hx, key_eq hy]
  split_ifs at h ⊢ <;> omega

end NotNaN

theorem order_eq_compare {x y : Float} (hx : x.isNaN = false) (hy : y.isNaN = false) (hzero : x ≠ -0.0)
    (hzero' : y ≠ -0.0) : order x y = compare (steps x) (steps y) := by
  have hlt := key_lt_iff hx hy hzero hzero'
  have hgt := key_lt_iff hy hx hzero' hzero
  unfold order
  rw [Int.compare_eq_ite_lt, Int.compare_eq_ite_lt, if_congr hlt rfl rfl, if_congr hgt rfl rfl]

end Lineup.Number
