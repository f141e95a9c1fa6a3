import Mathlib.Tactic.Linarith
/-!
# Nearest — rounding whole numbers to 53 leading bits

Doubles are counted in steps of the least positive double, so that a sum of doubles is a sum of whole numbers and only
its rounding is left to study.  `nearest grid n` keeps the 53 leading bits of `n`, and none below bit `grid`; it goes to
the nearest number of that kind, a half to the even one.  Rounding keeps the order, leaves numbers of 53 bits alone, and
reaches a power of two from half a unit below it on.
-/
namespace Lineup.Number

/-- `n / 2 ^ k` to the nearest whole number, a half to the even one. -/
def halfEven (n k : Nat) : Nat :=
  if 2 * (n % 2 ^ k) < 2 ^ k then n / 2 ^ k
  else if 2 ^ k < 2 * (n % 2 ^ k) then n / 2 ^ k + 1
  else n / 2 ^ k + n / 2 ^ k % 2

/-- How many of its low bits a number loses, `grid` at the least. -/
def lostBits (grid n : Nat) : Nat := max grid (n.log2 - 52)

def nearest (grid n : Nat) : Nat := halfEven n (lostBits grid n) * 2 ^ lostBits grid n

theorem le_halfEven (n k : Nat) : n / 2 ^ k ≤ halfEven n k := by
  unfold halfEven
  split_ifs <;> omega

theorem halfEven_le (n k : Nat) : halfEven n k ≤ n / 2 ^ k + 1 := by
  unfold halfEven
  split_ifs <;> omega

theorem halfEven_mono {n m : Nat} (k : Nat) (h : n ≤ m) : halfEven n k ≤ halfEven m k := by
  have hq : n / 2 ^ k ≤ m / 2 ^ k := Nat.div_le_div_right h
  rcases Nat.lt_or_eq_of_le hq with hlt | heq
  · exact (halfEven_le n k).trans (Nat.le_trans hlt (le_halfEven m k))
  · -- under one quotient the remainders are in the order of the numbers
    have hn := Nat.div_add_mod n (2 ^ k)
    have hm := Nat.div_add_mod m (2 ^ k)
    rw [heq] at hn
    have hr : n % 2 ^ k ≤ m % 2 ^ k := by omega
    unfold halfEven
    rw [heq]
    split_ifs <;> omega

theorem halfEven_mul_pow (a k : Nat) : halfEven (a * 2 ^ k) k = a := by
  have hp : 0 < 2 ^ k := Nat.two_pow_pos k
  unfold halfEven
  rw [Nat.mul_mod_left, Nat.mul_div_cancel a hp, if_pos (by omega)]

theorem halfEven_mul_le {n a k : Nat} (h : n ≤ a * 2 ^ k) : halfEven n k * 2 ^ k ≤ a * 2 ^ k := by
  have := halfEven_mono k h
  rw [halfEven_mul_pow] at this
  exact Nat.mul_le_mul_right _ this

theorem le_halfEven_mul {n a k : Nat} (h : a * 2 ^ k ≤ n) : a * 2 ^ k ≤ halfEven n k * 2 ^ k := by
  have := halfEven_mono k h
  rw [halfEven_mul_pow] at this
  exact Nat.mul_le_mul_right _ this

theorem log2_mono {n m : Nat} (h : n ≤ m) : n.log2 ≤ m.log2 := by
  by_cases hn : n = 0
  · subst hn; exact Nat.zero_le _
  · exact (Nat.le_log2 (by omega)).2 (Nat.le_trans (Nat.log2_self_le hn) h)

theorem nearest_mono (grid : Nat) {n m : Nat} (h : n ≤ m) : nearest grid n ≤ nearest grid m := by
  have hlog := log2_mono h
  by_cases hk : lostBits grid n = lostBits grid m
  · unfold nearest
    rw [hk]
    exact Nat.mul_le_mul_right _ (halfEven_mono _ h)
  · -- `2 ^ m.log2` lies between the two, and is a multiple of either unit
    have hbits : grid ≤ n.log2 - 52 ∨ n.log2 - 52 ≤ grid := Nat.le_total _ _
    have hlt : n.log2 < m.log2 := by unfold lostBits at hk; omega
    have hkn : lostBits grid n ≤ m.log2 := by unfold lostBits at hk ⊢; omega
    have hkm : lostBits grid m ≤ m.log2 := by unfold lostBits at hk ⊢; omega
    have hm : m ≠ 0 := by rintro rfl; simp at hlt
    have hpow : ∀ k, k ≤ m.log2 → 2 ^ (m.log2 - k) * 2 ^ k = 2 ^ m.log2 := fun k hk' => by
      rw [← Nat.pow_add, Nat.sub_add_cancel hk']
    have h1 : n ≤ 2 ^ (m.log2 - lostBits grid n) * 2 ^ lostBits grid n := by
      rw [hpow _ hkn]
      exact Nat.le_of_lt (Nat.lt_of_lt_of_le Nat.lt_log2_self (Nat.pow_le_pow_right (by decide) hlt))
    have h2 : 2 ^ (m.log2 - lostBits grid m) * 2 ^ lostBits grid m ≤ m := by
      rw [hpow _ hkm]
      exact Nat.log2_self_le hm
    have h3 := halfEven_mul_le h1
    have h4 := le_halfEven_mul h2
    rw [hpow _ hkn] at h3
    rw [hpow _ hkm] at h4
    exact h3.trans h4

/-- **A number of 53 bits over the grid is left alone.** -/
theorem nearest_of_eq_mul (grid : Nat) {a k : Nat} (ha : a < 2 ^ 53) (hk : grid ≤ k) :
    nearest grid (a * 2 ^ k) = a * 2 ^ k := by
  by_cases h0 : a = 0
  · subst h0; simp [nearest, halfEven]
  · have hlog : (a * 2 ^ k).log2 < 53 + k := by
      rw [Nat.log2_lt (Nat.mul_ne_zero h0 (Nat.two_pow_pos k).ne'), Nat.pow_add]
      exact Nat.mul_lt_mul_of_pos_right ha (Nat.two_pow_pos k)
    have hle : lostBits grid (a * 2 ^ k) ≤ k := by unfold lostBits; omega
    have hsplit : a * 2 ^ k =
        a * 2 ^ (k - lostBits grid (a * 2 ^ k)) * 2 ^ lostBits grid (a * 2 ^ k) := by
      rw [Nat.mul_assoc, ← Nat.pow_add, Nat.sub_add_cancel hle]
    unfold nearest
    conv => lhs; arg 1; arg 1; rw [hsplit]
    rw [halfEven_mul_pow]
    exact hsplit.symm

theorem nearest_two_pow {grid j : Nat} (h : grid ≤ j) : nearest grid (2 ^ j) = 2 ^ j := by
  have := nearest_of_eq_mul grid (a := 1) (by decide) h
  simpa using this

theorem halfEven_mul_pow_add (n j k : Nat) : halfEven (n * 2 ^ j) (k + j) = halfEven n k := by
  have hp : 0 < 2 ^ j := Nat.two_pow_pos j
  have hdiv : n * 2 ^ j / 2 ^ (k + j) = n / 2 ^ k := by rw [Nat.pow_add, Nat.mul_div_mul_right _ _ hp]
  have hmod : n * 2 ^ j % 2 ^ (k + j) = n % 2 ^ k * 2 ^ j := by rw [Nat.pow_add, Nat.mul_mod_mul_right]
  have hlt : 2 * (n % 2 ^ k * 2 ^ j) < 2 ^ (k + j) ↔ 2 * (n % 2 ^ k) < 2 ^ k := by
    rw [Nat.pow_add, ← Nat.mul_assoc, Nat.mul_lt_mul_right hp]
  have hgt : 2 ^ (k + j) < 2 * (n % 2 ^ k * 2 ^ j) ↔ 2 ^ k < 2 * (n % 2 ^ k) := by
    rw [Nat.pow_add, ← Nat.mul_assoc, Nat.mul_lt_mul_right hp]
  unfold halfEven
  simp only [hdiv, hmod, hlt, hgt]

theorem log2_mul_pow {n : Nat} (hn : n ≠ 0) (j : Nat) : (n * 2 ^ j).log2 = n.log2 + j := by
  have hp : 0 < 2 ^ j := Nat.two_pow_pos j
  refine (Nat.log2_eq_iff (Nat.mul_ne_zero hn hp.ne')).2 ⟨?_, ?_⟩
  · rw [Nat.pow_add]
    exact Nat.mul_le_mul_right _ (Nat.log2_self_le hn)
  · rw [show n.log2 + j + 1 = n.log2 + 1 + j by omega, Nat.pow_add]
    exact Nat.mul_lt_mul_of_pos_right Nat.lt_log2_self hp

theorem nearest_mul_pow_of_lost {grid grid' n j : Nat} (h : lostBits grid' (n * 2 ^ j) = lostBits grid n + j) :
    nearest grid' (n * 2 ^ j) = nearest grid n * 2 ^ j := by
  unfold nearest
  rw [h, halfEven_mul_pow_add, Nat.pow_add, Nat.mul_assoc]

theorem nearest_mul_pow (grid n j : Nat) : nearest (grid + j) (n * 2 ^ j) = nearest grid n * 2 ^ j := by
  by_cases hn : n = 0
  · subst hn
    simp [nearest, halfEven]
  · apply nearest_mul_pow_of_lost
    unfold lostBits
    rw [log2_mul_pow hn]
    omega

theorem nearest_zero_mul_pow (n j : Nat) : nearest 0 (n * 2 ^ j) = nearest 0 n * 2 ^ j := by
  by_cases hn : n < 2 ^ 53
  · have h0 : nearest 0 n = n := by simpa using nearest_of_eq_mul 0 (k := 0) hn (Nat.le_refl 0)
    rw [nearest_of_eq_mul 0 hn (Nat.zero_le j), h0]
  · have hn0 : n ≠ 0 := by omega
    have hlog : 53 ≤ n.log2 := (Nat.le_log2 hn0).2 (by omega)
    apply nearest_mul_pow_of_lost
    unfold lostBits
    rw [log2_mul_pow hn0]
    omega

/-! ## Below a power of two -/

section Binade

variable {grid i n : Nat}

theorem two_pow_add_54 (i : Nat) : 2 ^ (i + 54) = 2 ^ 53 * 2 ^ (i + 1) := by
  rw [← Nat.pow_add]
  congr 1
  omega

theorem lostBits_of_binade (hgrid : grid ≤ i) (hlo : 2 ^ (i + 53) ≤ n) (hhi : n < 2 ^ (i + 54)) :
    lostBits grid n = i + 1 := by
  have hn : n ≠ 0 := by
    have := Nat.two_pow_pos (i + 53)
    omega
  have hlog : n.log2 = i + 53 := (Nat.log2_eq_iff hn).2 ⟨hlo, hhi⟩
  unfold lostBits
  omega

theorem nearest_half_below (hgrid : grid ≤ i) : nearest grid (2 ^ (i + 54) - 2 ^ i) = 2 ^ (i + 54) := by
  have hp : 0 < 2 ^ i := Nat.two_pow_pos i
  have hunit : 2 ^ (i + 1) = 2 * 2 ^ i := by rw [Nat.pow_succ, Nat.mul_comm]
  have hlow : 2 ^ (i + 53) = 2 ^ 52 * 2 ^ (i + 1) := by
    rw [← Nat.pow_add]
    congr 1
    omega
  have hsplit : 2 ^ (i + 54) - 2 ^ i = 2 ^ i + 2 ^ (i + 1) * (2 ^ 53 - 1) := by
    rw [two_pow_add_54, hunit]
    omega
  have hlost : lostBits grid (2 ^ (i + 54) - 2 ^ i) = i + 1 := by
    refine lostBits_of_binade hgrid ?_ ?_
    · rw [two_pow_add_54, hlow]
      omega
    · have := Nat.two_pow_pos (i + 54)
      omega
  have hmod : (2 ^ (i + 54) - 2 ^ i) % 2 ^ (i + 1) = 2 ^ i := by
    rw [hsplit, Nat.add_mul_mod_self_left, Nat.mod_eq_of_lt (by omega)]
  have hdiv : (2 ^ (i + 54) - 2 ^ i) / 2 ^ (i + 1) = 2 ^ 53 - 1 := by
    rw [hsplit, Nat.add_mul_div_left _ _ (by omega), Nat.div_eq_of_lt (by omega), Nat.zero_add]
  unfold nearest
  rw [hlost]
  unfold halfEven
  rw [hmod, hdiv, if_neg (by omega), if_neg (by omega), two_pow_add_54]
  rfl

theorem halfEven_of_lt (h : n < 2 ^ (i + 54) - 2 ^ i) : halfEven n (i + 1) ≤ 2 ^ 53 - 1 := by
  have hdm := Nat.div_add_mod n (2 ^ (i + 1))
  have hr := Nat.mod_lt n (Nat.two_pow_pos (i + 1))
  have hunit : 2 ^ (i + 1) = 2 * 2 ^ i := by rw [Nat.pow_succ, Nat.mul_comm]
  rw [two_pow_add_54] at h
  unfold halfEven
  rw [hunit] at h hdm hr ⊢
  generalize 2 ^ i = u at *
  generalize n / (2 * u) = q at *
  generalize n % (2 * u) = r at *
  have hq : q ≤ 2 ^ 53 - 1 := by
    by_contra hq
    have : 2 * u * 2 ^ 53 ≤ 2 * u * q := Nat.mul_le_mul_left _ (by omega)
    omega
  by_cases hlast : q = 2 ^ 53 - 1
  · subst hlast
    rw [if_pos (by omega)]
  · split_ifs <;> omega

theorem nearest_of_lt (hgrid : grid ≤ i) (h : n < 2 ^ (i + 54) - 2 ^ i) : nearest grid n < 2 ^ (i + 54) := by
  by_cases hlow : n ≤ 2 ^ (i + 53)
  · have hle := nearest_mono grid hlow
    rw [nearest_two_pow (by omega)] at hle
    exact Nat.lt_of_le_of_lt hle (Nat.pow_lt_pow_right (by decide) (by omega))
  · have hhalf := halfEven_of_lt h
    have hlost := lostBits_of_binade hgrid (Nat.le_of_not_le hlow) (Nat.lt_of_lt_of_le h (Nat.sub_le _ _))
    unfold nearest
    rw [hlost, two_pow_add_54]
    exact Nat.mul_lt_mul_of_pos_right (by omega) (Nat.two_pow_pos _)

end Binade

/-- **The numbers from half a unit below a power of two on are rounded to the power or above it.** -/
theorem nearest_lt_two_pow_iff (grid : Nat) {n j : Nat} (hj : grid + 54 ≤ j) :
    nearest grid n < 2 ^ j ↔ n < 2 ^ j - 2 ^ (j - 54) := by
  obtain ⟨i, rfl⟩ : ∃ i, j = i + 54 := ⟨j - 54, by omega⟩
  have hgrid : grid ≤ i := by omega
  rw [Nat.add_sub_cancel]
  refine ⟨fun h => ?_, nearest_of_lt hgrid⟩
  by_contra hge
  have := nearest_mono grid (Nat.le_of_not_lt hge)
  rw [nearest_half_below hgrid] at this
  exact Nat.not_lt_of_le this h

end Lineup.Number
