import Lineup.Proofs.Number.Rounding
/-!
# Steps — doubles as whole numbers of steps

Every finite double is a whole number of steps of the least positive one, and an infinity is given the first number of
steps that is out of reach.  Steps turn the arithmetic of doubles into that of integers: a sum has the steps of the
exact sum, settled on the nearest double, and settling keeps the order.
-/
namespace Lineup.Number

open Float.Model (UnpackedFloat Format totalExponent)
open Float.Model.UnpackedFloat

/-- The steps of an infinity: one unit of the last place beyond the largest double. -/
def farthest : Nat := 2 ^ 2098

def unitSteps : Nat := 2 ^ 1074

theorem unitSteps_pos : 0 < unitSteps := by
  unfold unitSteps
  positivity

theorem two_pow_mul {a b c : Nat} (h : a + b = c) : 2 ^ a * 2 ^ b = 2 ^ c := by
  rw [← Nat.pow_add, h]

theorem two_pow_le {a b : Nat} (h : a ≤ b) : 2 ^ a ≤ 2 ^ b := Nat.pow_le_pow_right (by decide) h

theorem farthest_mul_pow (k : Nat) : farthest * 2 ^ k = 2 ^ (2098 + k) := by
  unfold farthest
  exact two_pow_mul (a := 2098) (b := k) rfl

theorem farthest_pos : 0 < farthest := by
  unfold farthest
  positivity

theorem farthest_eq_mul {a b : Nat} (h : a + b = 2098) : farthest = 2 ^ a * 2 ^ b := by
  unfold farthest
  exact (two_pow_mul h).symm

def stepsOf : UnpackedFloat → Int
  | .infinity s => s.apply farthest
  | .finite s m e _ => s.apply (m * 2 ^ (e + 1074).toNat : Nat)
  | .zero _ => 0
  | .notANumber => 0

/-- The double nearest to a number of steps, in steps.  Over a grid, steps are split into `2 ^ grid` parts each, and the
number counts parts. -/
def settle (grid : Nat) (n : Int) : Int := n.sign * (min (nearest grid n.natAbs) (farthest * 2 ^ grid) : Nat)

theorem nearest_zero (grid : Nat) : nearest grid 0 = 0 := by simp [nearest, halfEven]

theorem settle_zero (grid : Nat) : settle grid 0 = 0 := by
  unfold settle
  rw [Int.sign_zero, Int.zero_mul]

theorem sign_apply (s : Sign) (n : Nat) (h : n ≠ 0) : (s.apply (n : Int)).sign = s.apply 1 := by
  cases s
  · change (-(n : Int)).sign = -1
    rw [Int.sign_eq_neg_one_iff_neg]; omega
  · change (n : Int).sign = 1
    rw [Int.sign_eq_one_iff_pos]; omega

theorem natAbs_apply (s : Sign) (n : Nat) : (s.apply (n : Int)).natAbs = n := by
  cases s <;> simp [Sign.apply]

theorem apply_mul (s : Sign) (a b : Int) : s.apply (a * b) = s.apply a * b := by
  cases s <;> simp [Sign.apply]

theorem settle_apply (grid : Nat) (s : Sign) (n : Nat) :
    settle grid (s.apply n) = s.apply (min (nearest grid n) (farthest * 2 ^ grid) : Nat) := by
  unfold settle
  by_cases h : n = 0
  · subst h
    have hzero : s.apply ((0 : Nat) : Int) = 0 := by cases s <;> rfl
    rw [nearest_zero, Nat.zero_min, hzero, Int.sign_zero, Int.zero_mul]
  · rw [sign_apply s n h, natAbs_apply, ← apply_mul, Int.one_mul]

theorem settle_neg (grid : Nat) (n : Int) : settle grid (-n) = -settle grid n := by
  unfold settle
  rw [Int.sign_neg, Int.natAbs_neg, Int.neg_mul]

theorem settle_ofNat (grid n : Nat) : settle grid n = (min (nearest grid n) (farthest * 2 ^ grid) : Nat) :=
  settle_apply grid .positive n

theorem settle_mono (grid : Nat) {n m : Int} (h : n ≤ m) : settle grid n ≤ settle grid m := by
  have hup : ∀ a b : Nat, a ≤ b → settle grid a ≤ settle grid b := fun a b hab => by
    rw [settle_ofNat, settle_ofNat]
    have := nearest_mono grid hab
    omega
  have hnonneg : ∀ a : Nat, 0 ≤ settle grid a := fun a => by rw [settle_ofNat]; omega
  rcases Int.le_total 0 n with hn | hn <;> rcases Int.le_total 0 m with hm | hm
  · obtain ⟨a, rfl⟩ := Int.eq_ofNat_of_zero_le hn
    obtain ⟨b, rfl⟩ := Int.eq_ofNat_of_zero_le hm
    exact hup a b (by omega)
  · obtain rfl : n = m := by omega
    exact Int.le_refl _
  · obtain ⟨a, ha⟩ := Int.eq_ofNat_of_zero_le (show 0 ≤ -n by omega)
    obtain ⟨b, rfl⟩ := Int.eq_ofNat_of_zero_le hm
    have h1 := hnonneg a
    rw [← ha, settle_neg] at h1
    have h2 := hnonneg b
    omega
  · obtain ⟨a, ha⟩ := Int.eq_ofNat_of_zero_le (show 0 ≤ -n by omega)
    obtain ⟨b, hb⟩ := Int.eq_ofNat_of_zero_le (show 0 ≤ -m by omega)
    have h1 := hup b a (by omega)
    rw [← ha, ← hb, settle_neg, settle_neg] at h1
    omega

theorem natAbs_settle_lt_iff (grid : Nat) (n : Int) :
    (settle grid n).natAbs < farthest * 2 ^ grid ↔ n.natAbs < (2 ^ 2098 - 2 ^ 2044) * 2 ^ grid := by
  have habs : (settle grid n).natAbs = min (nearest grid n.natAbs) (farthest * 2 ^ grid) := by
    rcases Int.natAbs_eq n with h | h
    · rw [h, Int.natAbs_natCast, settle_ofNat, Int.natAbs_natCast]
    · rw [h, settle_neg, Int.natAbs_neg, Int.natAbs_neg, Int.natAbs_natCast, settle_ofNat, Int.natAbs_natCast]
  have hbound : (2 ^ 2098 - 2 ^ 2044) * 2 ^ grid = 2 ^ (2098 + grid) - 2 ^ (2098 + grid - 54) := by
    rw [Nat.sub_mul, ← Nat.pow_add, ← Nat.pow_add]
    congr 2
    omega
  rw [habs, farthest_mul_pow, hbound, ← nearest_lt_two_pow_iff grid (by omega)]
  omega

theorem settle_of_eq_mul (grid : Nat) {a k : Nat} (s : Sign) (ha : a < 2 ^ 53) (hk : grid ≤ k)
    (hfar : k ≤ 2045 + grid) :
    settle grid (s.apply (a * 2 ^ k : Nat)) = s.apply (a * 2 ^ k : Nat) := by
  have hle : a * 2 ^ k ≤ farthest * 2 ^ grid := by
    have h1 : a * 2 ^ k ≤ 2 ^ 53 * 2 ^ (2045 + grid) :=
      Nat.mul_le_mul (Nat.le_of_lt ha) (Nat.pow_le_pow_right (by decide) hfar)
    have h2 : 2 ^ 53 * 2 ^ (2045 + grid) = farthest * 2 ^ grid := by
      rw [farthest_mul_pow, ← Nat.pow_add]
      congr 1
      omega
    omega
  rw [settle_apply, nearest_of_eq_mul grid ha hk, Nat.min_eq_left hle]

theorem settle_stepsOf {u : UnpackedFloat} (h : Canonical u) (hf : u.isFinite = true) :
    settle 0 (stepsOf u) = stepsOf u ∧ (stepsOf u).natAbs < farthest := by
  cases u with
  | infinity s => cases hf
  | notANumber => cases hf
  | zero s => exact ⟨settle_zero 0, farthest_pos⟩
  | finite s m e hm =>
    obtain ⟨hm53, hlo, hhi, -⟩ := h
    refine ⟨settle_of_eq_mul 0 s hm53 (Nat.zero_le _) (by omega), ?_⟩
    have hexp : 2 ^ (e + 1074).toNat ≤ 2 ^ 2045 := two_pow_le (show (e + 1074).toNat ≤ 2045 by omega)
    rw [stepsOf, natAbs_apply, farthest_eq_mul (a := 53) (b := 2045) rfl]
    calc m * 2 ^ (e + 1074).toNat ≤ m * 2 ^ 2045 := Nat.mul_le_mul_left _ hexp
      _ < 2 ^ 53 * 2 ^ 2045 := Nat.mul_lt_mul_of_pos_right hm53 (by positivity)

/-! ## Rounded results -/

def PacksTo (u : UnpackedFloat) (n : Int) : Prop :=
  (Float.Model.pack u).unpack.isNaN = false ∧ stepsOf (Float.Model.pack u).unpack = n

theorem packsTo_of_canonical {u : UnpackedFloat} (h : Canonical u) (hf : u.isFinite = true) :
    PacksTo u (stepsOf u) := by
  unfold PacksTo
  rw [unpack_pack h]
  refine ⟨?_, rfl⟩
  cases u with
  | notANumber => cases hf
  | infinity s => cases hf
  | zero s => rfl
  | finite s m e hm => rfl

theorem packsTo_zero (s : Sign) : PacksTo (.zero s) 0 := packsTo_of_canonical (u := .zero s) trivial rfl

theorem packsTo_finite {s : Sign} {m n : Nat} {e : Int} {hm : 0 < m} (h : Canonical (.finite s m e hm))
    (hn : m * 2 ^ (e + 1074).toNat = n) : PacksTo (.finite s m e hm) (s.apply (min n farthest : Nat)) := by
  have hlt := (settle_stepsOf h rfl).2
  rw [stepsOf, natAbs_apply, hn] at hlt
  rw [Nat.min_eq_left (Nat.le_of_lt hlt), ← hn]
  exact packsTo_of_canonical h rfl

theorem packsTo_infinity (s : Sign) {m n : Nat} {e : Int} (hm : 0 < m) (he : 972 ≤ e) (hlead : 2 ^ 52 ≤ m)
    (hn : m * 2 ^ (e + 1074).toNat = n) : PacksTo (.finite s m e hm) (s.apply (min n farthest : Nat)) := by
  have hfar : farthest ≤ m * 2 ^ (e + 1074).toNat := by
    rw [farthest_eq_mul (a := 52) (b := 2046) rfl]
    exact Nat.mul_le_mul hlead (two_pow_le (a := 2046) (by omega))
  unfold PacksTo
  rw [unpack_pack_of_large s m e hm he, ← hn, Nat.min_eq_right hfar]
  exact ⟨rfl, rfl⟩

theorem packsTo_carried (s : Sign) {r : Nat} {e : Int} (hr : r ≤ 2 ^ 53) (he : -1074 ≤ e)
    (hlead : 2 ^ 52 ≤ r ∨ e = -1074) :
    PacksTo (carried s r e) (s.apply (min (r * 2 ^ (e + 1074).toNat) farthest : Nat)) := by
  unfold carried
  by_cases h0 : r = 0
  · subst h0
    have hzero : s.apply ((0 : Nat) : Int) = 0 := by cases s <;> rfl
    rw [dif_pos rfl, Nat.zero_mul, Nat.zero_min, hzero]
    exact packsTo_zero s
  rw [dif_neg h0]
  by_cases hlt : r < 2 ^ 53
  · rw [if_pos hlt]
    by_cases hlarge : e ≤ 971
    · exact packsTo_finite ⟨hlt, he, hlarge, hlead⟩ rfl
    · exact packsTo_infinity s _ (by omega) (hlead.resolve_right (by omega)) rfl
  · rw [if_neg hlt]
    obtain rfl : r = 2 ^ 53 := by omega
    have hcarry : 2 ^ 52 * 2 ^ (e + 1 + 1074).toNat = 2 ^ 53 * 2 ^ (e + 1074).toNat := by
      rw [show (e + 1 + 1074).toNat = (e + 1074).toNat + 1 by omega, Nat.pow_succ]
      omega
    by_cases hlarge : e + 1 ≤ 971
    · exact packsTo_finite ⟨by decide, by omega, hlarge, Or.inl (Nat.le_refl _)⟩ hcarry
    · exact packsTo_infinity s _ (by omega) (Nat.le_refl _) hcarry

section Rounded

variable {m k : Nat} {e : Int}

theorem le_halfEven_of_lead (hm : m ≠ 0) (hlead : 2 ^ 52 ≤ m ∨ e ≤ -1074) (hk : lostBits (-1074 - e).toNat m = k) :
    2 ^ 52 ≤ halfEven m k ∨ e + k = -1074 := by
  by_cases hmin : e + k = -1074
  · exact Or.inr hmin
  · left
    have hlog : k = m.log2 - 52 ∧ 52 ≤ m.log2 := by
      unfold lostBits at hk
      rcases hlead with h | h
      · have := (Nat.le_log2 hm).2 h
        omega
      · omega
    have hle : 2 ^ 52 * 2 ^ k ≤ m := by
      rw [← Nat.pow_add, show 52 + k = m.log2 by omega]
      exact Nat.log2_self_le hm
    exact Nat.le_of_mul_le_mul_right (le_halfEven_mul hle) (Nat.two_pow_pos k)

theorem halfEven_eq_nearest {grid : Nat} (hgrid : 0 ≤ e + 1074 + grid) (hk : lostBits (-1074 - e).toNat m = k) :
    halfEven m k * 2 ^ (e + k + 1074).toNat * 2 ^ grid = nearest grid (m * 2 ^ (e + 1074 + grid).toNat) := by
  by_cases he : e ≤ -1074
  · -- the grid lies above the significand's own steps
    obtain ⟨j, hj⟩ : ∃ j, grid = (-1074 - e).toNat + j := ⟨grid - (-1074 - e).toNat, by omega⟩
    have hlost : -1074 - e ≤ k := by
      rw [← hk]
      unfold lostBits
      omega
    have h1 : (e + 1074 + grid).toNat = j := by omega
    have h2 : (e + k + 1074).toNat + grid = k + j := by omega
    rw [h1, hj, nearest_mul_pow, Nat.mul_assoc, ← Nat.pow_add, ← hj, h2]
    unfold nearest
    rw [hk, Nat.pow_add, Nat.mul_assoc]
  · have hz : (-1074 - e).toNat = 0 := by omega
    have h1 : (e + 1074 + grid).toNat = (e + 1074).toNat + grid := by omega
    have h2 : (e + k + 1074).toNat = k + (e + 1074).toNat := by omega
    have hn := nearest_mul_pow 0 (m * 2 ^ (e + 1074).toNat) grid
    rw [Nat.zero_add, Nat.mul_assoc, ← Nat.pow_add, nearest_zero_mul_pow] at hn
    rw [h1, h2, hn]
    unfold nearest
    rw [← hz, hk, Nat.pow_add, ← Nat.mul_assoc]

/-- **A rounded result has the steps of the exact one, settled**, whatever parts the steps are split into for it. -/
theorem packsTo_round (s : Sign) (grid : Nat) (hm : m ≠ 0) (hlead : 2 ^ 52 ≤ m ∨ e ≤ -1074)
    (hgrid : 0 ≤ e + 1074 + grid) :
    ∃ n, PacksTo (roundWithAccuracy Format.binary64 s m e .exact) n ∧
      n * 2 ^ grid = settle grid (s.apply (m * 2 ^ (e + 1074 + grid).toNat : Nat)) := by
  rw [roundWithAccuracy_eq]
  generalize hk : lostBits (-1074 - e).toNat m = k
  have hke : -1074 ≤ e + k := by
    rw [← hk]
    unfold lostBits
    omega
  have hr : halfEven m k ≤ 2 ^ 53 := by
    rw [← hk]
    exact halfEven_lostBits_le _ m
  refine ⟨_, packsTo_carried s hr hke (le_halfEven_of_lead hm hlead hk), ?_⟩
  rw [settle_apply, ← halfEven_eq_nearest hgrid hk, Nat.mul_min_mul_right, Nat.cast_mul, apply_mul]
  push_cast
  rfl

theorem packsTo_round_zero (s : Sign) (hm : m ≠ 0) (hlead : 2 ^ 52 ≤ m ∨ e ≤ -1074) (he : -1074 ≤ e) :
    PacksTo (roundWithAccuracy Format.binary64 s m e .exact) (settle 0 (s.apply (m * 2 ^ (e + 1074).toNat : Nat))) := by
  obtain ⟨n, hn, hsettle⟩ := packsTo_round s 0 hm hlead (by omega)
  rw [pow_zero, mul_one, show e + 1074 + ((0 : Nat) : Int) = e + 1074 by omega] at hsettle
  rw [← hsettle]
  exact hn

end Rounded

end Lineup.Number
