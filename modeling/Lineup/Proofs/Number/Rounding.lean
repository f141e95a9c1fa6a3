import Lineup.Proofs.Number.Canonical
import Lineup.Proofs.Number.Nearest
/-!
# Rounding — the core model's rounding, as rounding of whole numbers

The core library rounds a significand by shifting its bits out one at a time, keeping the last one and whether any
before it was set.  Here that is `halfEven`, and a rounded result, counted in steps of the least positive double, is
`nearest` of the exact one.
-/
namespace Lineup.Number

open Float.Model (UnpackedFloat Format totalExponent)
open Float.Model.UnpackedFloat

/-- What the bits that were shifted out of a significand say of the remainder. -/
def Tracks (em : ExtendedMantissa) (m k : Nat) : Prop :=
  em.mantissa = m / 2 ^ k ∧ (em.roundBit = true ↔ 2 ^ k ≤ 2 * (m % 2 ^ k)) ∧
    (em.stickyBit = true ↔ m % 2 ^ k ≠ 0 ∧ 2 * (m % 2 ^ k) ≠ 2 ^ k)

theorem tracks_zero (m : Nat) : Tracks (ExtendedMantissa.ofMantissaAndAccuracy m .exact) m 0 := by
  refine ⟨?_, ?_, ?_⟩ <;> simp [ExtendedMantissa.ofMantissaAndAccuracy, Nat.mod_one]

theorem Tracks.shiftRightOne {em : ExtendedMantissa} {m k : Nat} (h : Tracks em m k) :
    Tracks em.shiftRightOne m (k + 1) := by
  obtain ⟨hq, hr, hs⟩ := h
  have hp : 0 < 2 ^ k := Nat.two_pow_pos k
  have hpow : 2 ^ (k + 1) = 2 ^ k * 2 := Nat.pow_succ 2 k
  have hmod : m % 2 ^ (k + 1) = m % 2 ^ k + 2 ^ k * (m / 2 ^ k % 2) := by rw [hpow, Nat.mod_mul]
  have hlt := Nat.mod_lt m hp
  refine ⟨?_, ?_, ?_⟩
  · change em.mantissa / 2 = _
    rw [hq, hpow, Nat.div_div_eq_div_mul]
  · change (em.mantissa % 2 != 0) = true ↔ _
    rw [hq, hmod, hpow, bne_iff_ne]
    rcases Nat.mod_two_eq_zero_or_one (m / 2 ^ k) with h | h <;> rw [h] <;> omega
  · change (em.roundBit || em.stickyBit) = true ↔ _
    rw [Bool.or_eq_true, hr, hs, hmod, hpow]
    rcases Nat.mod_two_eq_zero_or_one (m / 2 ^ k) with h | h <;> rw [h] <;> omega

theorem tracks_shift (m : Nat) : ∀ k : Nat,
    Tracks (ExtendedMantissa.ofMantissaAndAccuracy m .exact >>> k) m k
  | 0 => tracks_zero m
  | k + 1 => (tracks_shift m k).shiftRightOne

theorem Tracks.roundedMantissa {em : ExtendedMantissa} {m k : Nat} (h : Tracks em m k) :
    em.roundedMantissa = halfEven m k := by
  obtain ⟨q, r, s⟩ := em
  obtain ⟨hq, hr, hs⟩ := h
  simp only at hq hr hs
  subst hq
  unfold halfEven
  cases r <;> cases s <;> simp only [Bool.false_eq_true, false_iff, true_iff] at hr hs <;>
    simp only [ExtendedMantissa.roundedMantissa, ExtendedMantissa.accuracy, Accuracy.roundToNearestEven] <;>
    split_ifs <;> omega

/-- Fewer than 53 bits are room for a carry into the next power of two. -/
def carried (s : Sign) (r : Nat) (e : Int) : UnpackedFloat :=
  if h : r = 0 then .zero s
  else if r < 2 ^ 53 then .finite s r e (Nat.pos_of_ne_zero h)
  else .finite s (2 ^ 52) (e + 1) (by decide)

theorem targetExponent_binary64 (m : Nat) (e : Int) :
    Format.binary64.targetExponent (totalExponent m e) = max (m.log2 + e - 52) (-1074) := by
  change max ((m.log2 : Int) + 1 + e - 53) (-1074) = _
  omega

theorem targetShift (m : Nat) (e : Int) :
    (Format.binary64.targetExponent (totalExponent m e) - e).toNat = lostBits (-1074 - e).toNat m := by
  rw [targetExponent_binary64, lostBits]
  omega

theorem shiftToTargetExponent_eq (m : Nat) (e : Int) :
    shiftToTargetExponent Format.binary64 m e .exact =
      (ExtendedMantissa.ofMantissaAndAccuracy m .exact >>> lostBits (-1074 - e).toNat m,
        e + lostBits (-1074 - e).toNat m) := by
  unfold shiftToTargetExponent shiftToExponent
  simp only [targetShift]

theorem halfEven_lostBits_le (grid m : Nat) : halfEven m (lostBits grid m) ≤ 2 ^ 53 := by
  have hm : m < 2 ^ (53 + lostBits grid m) :=
    Nat.lt_of_lt_of_le Nat.lt_log2_self (Nat.pow_le_pow_right (by decide) (by unfold lostBits; omega))
  have := halfEven_mono (lostBits grid m) (Nat.le_of_lt hm)
  rwa [Nat.pow_add, halfEven_mul_pow] at this

def ofSignificand (s : Sign) (m : Nat) (e : Int) : UnpackedFloat :=
  if h : m = 0 then .zero s else .finite s m e (Nat.pos_of_ne_zero h)

theorem shiftCarry (s : Sign) {r : Nat} {e : Int} (hr : r ≤ 2 ^ 53) (he : -1074 ≤ e) :
    ofSignificand s (shiftToTargetExponent Format.binary64 r e .exact).1.mantissa
      (shiftToTargetExponent Format.binary64 r e .exact).2 = carried s r e := by
  have hgrid : (-1074 - e).toNat = 0 := by omega
  rw [shiftToTargetExponent_eq, hgrid]
  dsimp only
  rw [(tracks_shift r _).1]
  unfold carried ofSignificand
  by_cases hlt : r < 2 ^ 53
  · have hlost : lostBits 0 r = 0 := by
      by_cases h0 : r = 0
      · subst h0
        rfl
      · have := (Nat.log2_lt h0).2 hlt
        unfold lostBits
        omega
    rw [hlost, Nat.pow_zero, Nat.div_one, Nat.cast_zero, Int.add_zero]
    exact dite_congr rfl (fun _ => rfl) fun _ => (if_pos hlt).symm
  · obtain rfl : r = 2 ^ 53 := by omega
    have hlost : lostBits 0 (2 ^ 53) = 1 := by
      unfold lostBits
      rw [Nat.log2_two_pow]
      rfl
    rw [hlost, dif_neg (by decide), dif_neg (by decide), if_neg hlt]
    rfl

/-- **The core model's rounding.** -/
theorem roundWithAccuracy_eq (s : Sign) (m : Nat) (e : Int) :
    roundWithAccuracy Format.binary64 s m e .exact =
      carried s (halfEven m (lostBits (-1074 - e).toNat m)) (e + lostBits (-1074 - e).toNat m) := by
  have hlost : -1074 - e ≤ lostBits (-1074 - e).toNat m := by
    unfold lostBits
    omega
  rw [← shiftCarry s (halfEven_lostBits_le _ m) (by omega), ← (tracks_shift m _).roundedMantissa]
  unfold roundWithAccuracy
  rw [shiftToTargetExponent_eq m e]
  rfl

end Lineup.Number
