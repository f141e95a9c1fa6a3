import Lineup.Proofs.Number.Steps
/-!
# Arithmetic — sums, products and comparisons of doubles, in steps

Each operation on doubles is read off on steps: comparisons compare them, a sum and a difference settle theirs, a
product settles the product of steps in parts of a step.  None of it needs to know how a double is stored.
-/
namespace Lineup.Number

open Float.Model (UnpackedFloat Format totalExponent)
open Float.Model.UnpackedFloat

/-- How many steps of the least positive double lie between zero and a double, below zero with a minus sign. -/
def steps (x : Float) : Int := stepsOf x.toModel.unpack

theorem isNaN_def (x : Float) : x.isNaN = x.toModel.unpack.isNaN := rfl

theorem isFinite_def (x : Float) : x.isFinite = x.toModel.unpack.isFinite := rfl

theorem PacksTo.steps_eq {u : UnpackedFloat} {n : Int} (h : PacksTo u n) :
    (Float.ofModel (.pack u)).isNaN = false ∧ steps (.ofModel (.pack u)) = n := h

theorem canonical (x : Float) : Canonical x.toModel.unpack := canonical_unpack x.toModel

theorem eq_of_parts {x y : Float} (h : x.toModel.unpack = y.toModel.unpack) : x = y := by
  cases x; cases y
  exact congrArg Float.ofModel (eq_of_unpack_eq h)

theorem notNaN_of_isFinite {x : Float} (h : x.isFinite = true) : x.isNaN = false := by
  rw [isFinite_def] at h
  rw [isNaN_def]
  cases hu : x.toModel.unpack <;> rw [hu] at h <;> first | rfl | cases h

theorem natAbs_steps_lt {x : Float} (h : x.isFinite = true) : (steps x).natAbs < farthest :=
  (settle_stepsOf (canonical x) h).2

theorem settle_steps {x : Float} (h : x.isFinite = true) : settle 0 (steps x) = steps x :=
  (settle_stepsOf (canonical x) h).1

theorem isFinite_iff {x : Float} (h : x.isNaN = false) : x.isFinite = true ↔ (steps x).natAbs < farthest := by
  refine ⟨natAbs_steps_lt, fun hlt => ?_⟩
  rw [isNaN_def] at h
  rw [isFinite_def]
  unfold steps at hlt
  cases hu : x.toModel.unpack with
  | notANumber => rw [hu] at h; cases h
  | infinity s =>
    rw [hu, stepsOf, natAbs_apply] at hlt
    exact absurd hlt (Nat.lt_irrefl _)
  | zero s => rfl
  | finite s m e hm => rfl

/-! ## Comparisons -/

theorem compare_finite {m₁ m₂ : Nat} {e₁ e₂ : Int} (h₁ : m₁ < 2 ^ 53) (h₂ : m₂ < 2 ^ 53)
    (he₁ : -1074 ≤ e₁) (he₂ : -1074 ≤ e₂) (hl₁ : 2 ^ 52 ≤ m₁ ∨ e₁ = -1074) (hl₂ : 2 ^ 52 ≤ m₂ ∨ e₂ = -1074) :
    (compare e₁ e₂).then (compare m₁ m₂) =
      compare (m₁ * 2 ^ (e₁ + 1074).toNat) (m₂ * 2 ^ (e₂ + 1074).toNat) := by
  -- a larger exponent comes with a leading bit that outweighs all of the other significand
  have hlt : ∀ {m m' : Nat} {e e' : Int}, m < 2 ^ 53 → -1074 ≤ e → (2 ^ 52 ≤ m' ∨ e' = -1074) → e < e' →
      m * 2 ^ (e + 1074).toNat < m' * 2 ^ (e' + 1074).toNat := by
    intro m m' e e' hm he hl hee
    have hl' : 2 ^ 52 ≤ m' := hl.resolve_right (by omega)
    calc m * 2 ^ (e + 1074).toNat < 2 ^ 53 * 2 ^ (e + 1074).toNat := Nat.mul_lt_mul_of_pos_right hm (Nat.two_pow_pos _)
      _ = 2 ^ 52 * 2 ^ ((e + 1074).toNat + 1) := by rw [Nat.pow_succ]; omega
      _ ≤ m' * 2 ^ (e' + 1074).toNat := Nat.mul_le_mul hl' (two_pow_le (by omega))
  rcases Int.lt_trichotomy e₁ e₂ with h | h | h
  · rw [Int.compare_eq_lt.2 h, Nat.compare_eq_lt.2 (hlt h₁ he₁ hl₂ h)]
    rfl
  · subst h
    rw [Int.compare_eq_eq.2 rfl]
    change compare m₁ m₂ = _
    have hp : 0 < 2 ^ (e₁ + 1074).toNat := Nat.two_pow_pos _
    rcases Nat.lt_trichotomy m₁ m₂ with hm | hm | hm
    · rw [Nat.compare_eq_lt.2 hm, Nat.compare_eq_lt.2 (Nat.mul_lt_mul_of_pos_right hm hp)]
    · subst hm; rw [Nat.compare_eq_eq.2 rfl, Nat.compare_eq_eq.2 rfl]
    · rw [Nat.compare_eq_gt.2 hm, Nat.compare_eq_gt.2 (Nat.mul_lt_mul_of_pos_right hm hp)]
  · rw [Int.compare_eq_gt.2 h, Nat.compare_eq_gt.2 (hlt h₂ he₂ hl₁ h)]
    rfl

section Parts

variable {s t : Sign} {m m' : Nat} {e e' : Int} {hm : 0 < m} {hm' : 0 < m'}

theorem finite_bounds (h : Canonical (.finite s m e hm)) :
    0 < m * 2 ^ (e + 1074).toNat ∧ m * 2 ^ (e + 1074).toNat < farthest := by
  have hlt := (settle_stepsOf h rfl).2
  rw [stepsOf, natAbs_apply] at hlt
  exact ⟨Nat.mul_pos hm (Nat.two_pow_pos _), hlt⟩

theorem compare_finite_parts (hu : Canonical (.finite s m e hm)) (hv : Canonical (.finite t m' e' hm')) :
    UnpackedFloat.compare (.finite s m e hm) (.finite t m' e' hm') =
      some (compare (stepsOf (.finite s m e hm)) (stepsOf (.finite t m' e' hm'))) := by
  have ha := finite_bounds hu
  have hb := finite_bounds hv
  have hcmp := compare_finite hu.1 hv.1 hu.2.1 hv.2.1 hu.2.2.2 hv.2.2.2
  cases s <;> cases t
  · simp only [UnpackedFloat.compare, stepsOf, Sign.apply]
    rw [hcmp, Nat.compare_swap, Int.compare_eq_ite_lt, Nat.compare_eq_ite_lt]
    split_ifs <;> first | rfl | omega
  · simp only [UnpackedFloat.compare, stepsOf, Sign.apply, Int.compare_eq_ite_lt]
    split_ifs <;> first | rfl | omega
  · simp only [UnpackedFloat.compare, stepsOf, Sign.apply, Int.compare_eq_ite_lt]
    split_ifs <;> first | rfl | omega
  · simp only [UnpackedFloat.compare, stepsOf, Sign.apply]
    rw [hcmp, Int.compare_eq_ite_lt, Nat.compare_eq_ite_lt]
    split_ifs <;> first | rfl | omega

end Parts

theorem compare_parts {u v : UnpackedFloat} (hu : Canonical u) (hv : Canonical v) (hnu : u.isNaN = false)
    (hnv : v.isNaN = false) : u.compare v = some (compare (stepsOf u) (stepsOf v)) := by
  have hfar := farthest_pos
  cases u with
  | notANumber => cases hnu
  | infinity s =>
    cases v with
    | notANumber => cases hnv
    | infinity t =>
      cases s <;> cases t <;> simp only [UnpackedFloat.compare, stepsOf, Sign.apply, Int.compare_eq_ite_lt] <;>
        split_ifs <;> first | rfl | omega
    | zero t =>
      cases s <;> simp only [UnpackedFloat.compare, stepsOf, Sign.apply, Int.compare_eq_ite_lt] <;>
        split_ifs <;> first | rfl | omega
    | finite t m e hm =>
      have hb := finite_bounds hv
      cases s <;> cases t <;> simp only [UnpackedFloat.compare, stepsOf, Sign.apply, Int.compare_eq_ite_lt] <;>
        split_ifs <;> first | rfl | omega
  | zero s =>
    cases v with
    | notANumber => cases hnv
    | infinity t =>
      cases t <;> simp only [UnpackedFloat.compare, stepsOf, Sign.apply, Int.compare_eq_ite_lt] <;>
        split_ifs <;> first | rfl | omega
    | zero t => rfl
    | finite t m e hm =>
      have hb := finite_bounds hv
      cases t <;> simp only [UnpackedFloat.compare, stepsOf, Sign.apply, Int.compare_eq_ite_lt] <;>
        split_ifs <;> first | rfl | omega
  | finite s m e hm =>
    have ha := finite_bounds hu
    cases v with
    | notANumber => cases hnv
    | infinity t =>
      cases s <;> cases t <;> simp only [UnpackedFloat.compare, stepsOf, Sign.apply, Int.compare_eq_ite_lt] <;>
        split_ifs <;> first | rfl | omega
    | zero t =>
      cases s <;> simp only [UnpackedFloat.compare, stepsOf, Sign.apply, Int.compare_eq_ite_lt] <;>
        split_ifs <;> first | rfl | omega
    | finite t m' e' hm' => exact compare_finite_parts hu hv

theorem lt_def {x y : Float} : x < y ↔ x.toModel.unpack.compare y.toModel.unpack = some .lt := by
  change decide (x.toModel < y.toModel) = true ↔ _
  rw [decide_eq_true_iff]
  change (x.toModel.unpack.compare y.toModel.unpack == some .lt) = true ↔ _
  rw [beq_iff_eq]

theorem le_def {x y : Float} :
    x ≤ y ↔ (x.toModel.unpack.compare y.toModel.unpack).any (·.isLE) = true := by
  change decide (x.toModel ≤ y.toModel) = true ↔ _
  rw [decide_eq_true_iff]
  rfl

theorem lt_iff {x y : Float} (hx : x.isNaN = false) (hy : y.isNaN = false) : x < y ↔ steps x < steps y := by
  rw [lt_def, compare_parts (canonical x) (canonical y) hx hy, Option.some_inj, Int.compare_eq_lt]
  rfl

theorem le_iff {x y : Float} (hx : x.isNaN = false) (hy : y.isNaN = false) : x ≤ y ↔ steps x ≤ steps y := by
  rw [le_def, compare_parts (canonical x) (canonical y) hx hy]
  exact Int.isLE_compare

theorem notNaN_of_le {x y : Float} (h : x ≤ y) : x.isNaN = false ∧ y.isNaN = false := by
  rw [le_def] at h
  rw [isNaN_def, isNaN_def]
  cases hu : x.toModel.unpack <;> cases hv : y.toModel.unpack <;> rw [hu, hv] at h <;>
    first | exact ⟨rfl, rfl⟩ | cases h

theorem steps_le_of_le {x y : Float} (h : x ≤ y) : steps x ≤ steps y :=
  (le_iff (notNaN_of_le h).1 (notNaN_of_le h).2).1 h

theorem le_trans {x y z : Float} (hxy : x ≤ y) (hyz : y ≤ z) : x ≤ z :=
  (le_iff (notNaN_of_le hxy).1 (notNaN_of_le hyz).2).2
    (Int.le_trans (steps_le_of_le hxy) (steps_le_of_le hyz))

theorem lt_irrefl {x : Float} (hx : x.isNaN = false) : ¬ x < x := by
  rw [lt_iff hx hx]
  exact Int.lt_irrefl _

theorem lt_asymm {x y : Float} (hx : x.isNaN = false) (hy : y.isNaN = false) (h : y < x) : ¬ x < y := by
  rw [lt_iff hy hx] at h
  rw [lt_iff hx hy]
  exact Int.lt_asymm h

theorem lt_of_not_lt_of_lt {x y z : Float} (hx : x.isNaN = false) (hy : y.isNaN = false) (hz : z.isNaN = false)
    (hyx : ¬ x < y) (hxz : x < z) : y < z := by
  rw [lt_iff hx hy] at hyx
  rw [lt_iff hx hz] at hxz
  rw [lt_iff hy hz]
  exact Int.lt_of_le_of_lt (Int.not_lt.1 hyx) hxz

/-! ## Sums and differences -/

theorem packsTo_roundParts (s : Sign) {m : Nat} {e : Int} (hm : m ≠ 0) (he : -1074 ≤ e) :
    PacksTo (UnpackedFloat.round Format.binary64 s m e) (settle 0 (s.apply (m * 2 ^ (e + 1074).toNat : Nat))) := by
  unfold UnpackedFloat.round decreaseExponent
  dsimp only
  generalize hj : (e - Format.binary64.targetExponent (totalExponent m e)).toNat = j
  rw [targetExponent_binary64] at hj
  have hlead : 2 ^ 52 ≤ m * 2 ^ j ∨ e - j ≤ -1074 := by
    by_cases hmin : e - j ≤ -1074
    · exact Or.inr hmin
    · left
      calc 2 ^ 52 ≤ 2 ^ (m.log2 + j) := two_pow_le (by omega)
        _ = 2 ^ m.log2 * 2 ^ j := Nat.pow_add 2 _ _
        _ ≤ m * 2 ^ j := Nat.mul_le_mul_right _ (Nat.log2_self_le hm)
  have hvalue : m * 2 ^ j * 2 ^ (e - j + 1074).toNat = m * 2 ^ (e + 1074).toNat := by
    rw [Nat.mul_assoc, ← Nat.pow_add]
    congr 2
    omega
  rw [← hvalue, Nat.shiftLeft_eq]
  exact packsTo_round_zero s (Nat.mul_ne_zero hm (Nat.two_pow_pos j).ne') hlead (by omega)

theorem packsTo_normalize (n : Int) {e : Int} (he : -1074 ≤ e) (z : Sign) :
    PacksTo (UnpackedFloat.normalize Format.binary64 n e z) (settle 0 (n * (2 ^ (e + 1074).toNat : Nat))) := by
  unfold UnpackedFloat.normalize
  rcases Int.lt_trichotomy n 0 with h | h | h
  · rw [Int.compare_eq_lt.2 h]
    have hround := packsTo_roundParts .negative (m := (-n).toNat) (by omega) he
    rwa [Nat.cast_mul, apply_mul, Sign.apply, Int.toNat_of_nonneg (by omega), Int.neg_neg] at hround
  · subst h
    rw [Int.compare_eq_eq.2 rfl, Int.zero_mul, settle_zero]
    exact packsTo_zero z
  · rw [Int.compare_eq_gt.2 h]
    have hround := packsTo_roundParts .positive (m := n.toNat) (by omega) he
    rwa [Nat.cast_mul, apply_mul, Sign.apply, Int.toNat_of_nonneg (by omega)] at hround

theorem apply_decreaseExponent (s : Sign) (m : Nat) {e t : Int} (hlo : -1074 ≤ t) (hte : t ≤ e) :
    s.apply ((decreaseExponent m e t).1 : Int) * (2 ^ (t + 1074).toNat : Nat) =
      s.apply (m * 2 ^ (e + 1074).toNat : Nat) := by
  have hexp : (e - t).toNat + (t + 1074).toNat = (e + 1074).toNat := by omega
  unfold decreaseExponent
  dsimp only
  rw [← apply_mul, ← Nat.cast_mul, Nat.shiftLeft_eq, Nat.mul_assoc, ← Nat.pow_add, hexp]

theorem packsTo_add {u v : UnpackedFloat} (hcu : Canonical u) (hcv : Canonical v) (hu : u.isFinite = true)
    (hv : v.isFinite = true) : PacksTo (UnpackedFloat.add Format.binary64 u v) (settle 0 (stepsOf u + stepsOf v)) := by
  have hpu := packsTo_of_canonical hcu hu
  have hpv := packsTo_of_canonical hcv hv
  rw [← (settle_stepsOf hcu hu).1] at hpu
  rw [← (settle_stepsOf hcv hv).1] at hpv
  cases u with
  | notANumber => cases hu
  | infinity s => cases hu
  | zero s =>
    cases v with
    | notANumber => cases hv
    | infinity t => cases hv
    | zero t =>
      change PacksTo _ (settle 0 (0 + 0))
      rw [Int.add_zero, settle_zero]
      cases s <;> cases t <;> exact packsTo_zero _
    | finite t m e hm =>
      change PacksTo (.finite t m e hm) (settle 0 (0 + stepsOf (.finite t m e hm)))
      rw [Int.zero_add]
      exact hpv
  | finite s m e hm =>
    cases v with
    | notANumber => cases hv
    | infinity t => cases hv
    | zero t =>
      change PacksTo (.finite s m e hm) (settle 0 (stepsOf (.finite s m e hm) + 0))
      rw [Int.add_zero]
      exact hpu
    | finite t m' e' hm' =>
      have hlo : -1074 ≤ min e e' := Int.le_min.2 ⟨hcu.2.1, hcv.2.1⟩
      have h := packsTo_normalize (s.apply ((decreaseExponent m e (min e e')).1 : Int) +
        t.apply ((decreaseExponent m' e' (min e e')).1 : Int)) hlo .positive
      rw [Int.add_mul, apply_decreaseExponent s m hlo (by omega), apply_decreaseExponent t m' hlo (by omega)] at h
      exact h

/-- **A sum has the steps of the exact sum, settled.** -/
theorem steps_add {x y : Float} (hx : x.isFinite = true) (hy : y.isFinite = true) :
    (x + y).isNaN = false ∧ steps (x + y) = settle 0 (steps x + steps y) :=
  (packsTo_add (canonical x) (canonical y) hx hy).steps_eq

theorem add_comm (x y : Float) : x + y = y + x := by
  have hparts : ∀ u v : UnpackedFloat,
      UnpackedFloat.add Format.binary64 u v = UnpackedFloat.add Format.binary64 v u := by
    intro u v
    cases u with
    | infinity s =>
      cases v with
      | infinity t => cases s <;> cases t <;> rfl
      | _ => rfl
    | zero s =>
      cases v with
      | zero t => cases s <;> cases t <;> rfl
      | _ => rfl
    | finite s m e hm =>
      cases v with
      | finite t m' e' hm' => simp only [UnpackedFloat.add, Int.add_comm, Int.min_comm]
      | _ => rfl
    | notANumber => cases v <;> rfl
  change Float.ofModel (Float.Model.pack (UnpackedFloat.add Format.binary64 x.toModel.unpack y.toModel.unpack)) =
    Float.ofModel (Float.Model.pack (UnpackedFloat.add Format.binary64 y.toModel.unpack x.toModel.unpack))
  rw [hparts]

theorem Canonical.neg {u : UnpackedFloat} (h : Canonical u) : Canonical u.neg := by
  cases u <;> exact h

theorem Canonical.abs {u : UnpackedFloat} (h : Canonical u) : Canonical u.abs := by
  cases u <;> exact h

theorem parts_neg (x : Float) : (-x).toModel.unpack = x.toModel.unpack.neg := by
  change (Float.Model.pack x.toModel.unpack.neg).unpack = _
  exact unpack_pack (canonical x).neg

theorem parts_abs (x : Float) : x.abs.toModel.unpack = x.toModel.unpack.abs := by
  change (Float.Model.pack x.toModel.unpack.abs).unpack = _
  exact unpack_pack (canonical x).abs

theorem sign_neg_apply (s : Sign) (n : Int) : (-s).apply n = -s.apply n := by
  cases s
  · exact (Int.neg_neg n).symm
  · rfl

theorem steps_neg (x : Float) : steps (-x) = -steps x := by
  unfold steps
  rw [parts_neg]
  cases x.toModel.unpack with
  | infinity s => exact sign_neg_apply s _
  | finite s m e hm => exact sign_neg_apply s _
  | _ => rfl

theorem isFinite_neg (x : Float) : (-x).isFinite = x.isFinite := by
  rw [isFinite_def, isFinite_def, parts_neg]
  cases x.toModel.unpack <;> rfl

theorem steps_abs (x : Float) : steps x.abs = (steps x).natAbs := by
  unfold steps
  rw [parts_abs]
  cases x.toModel.unpack with
  | infinity s => rw [stepsOf, natAbs_apply]; rfl
  | finite s m e hm => rw [stepsOf, natAbs_apply]; rfl
  | _ => rfl

theorem isNaN_abs (x : Float) : x.abs.isNaN = x.isNaN := by
  rw [isNaN_def, isNaN_def, parts_abs]
  cases x.toModel.unpack <;> rfl

theorem sub_eq_add_neg (x y : Float) : x - y = x + -y := by
  have hparts : ∀ u v : UnpackedFloat,
      UnpackedFloat.sub Format.binary64 u v = UnpackedFloat.add Format.binary64 u v.neg := by
    have happly : ∀ (s : Sign) (n : Int), -s.apply n = (-s).apply n := fun s n => (sign_neg_apply s n).symm
    intro u v
    cases u <;> cases v <;> try rfl
    simp only [UnpackedFloat.sub, UnpackedFloat.add, UnpackedFloat.neg, Int.sub_eq_add_neg, happly]
  change Float.ofModel (Float.Model.pack (UnpackedFloat.sub Format.binary64 x.toModel.unpack y.toModel.unpack)) =
    Float.ofModel (Float.Model.pack (UnpackedFloat.add Format.binary64 x.toModel.unpack (-y).toModel.unpack))
  rw [hparts, parts_neg]

theorem steps_sub {x y : Float} (hx : x.isFinite = true) (hy : y.isFinite = true) :
    (x - y).isNaN = false ∧ steps (x - y) = settle 0 (steps x - steps y) := by
  have h := steps_add hx (y := -y) (by rw [isFinite_neg]; exact hy)
  rw [sub_eq_add_neg, Int.sub_eq_add_neg, ← steps_neg]
  exact h

/-- A sum is finite unless the exact sum is half a unit of the last place beyond the largest double. -/
theorem isFinite_add_iff {x y : Float} (hx : x.isFinite = true) (hy : y.isFinite = true) :
    (x + y).isFinite = true ↔ (steps x + steps y).natAbs < 2 ^ 2098 - 2 ^ 2044 := by
  obtain ⟨hnan, hsteps⟩ := steps_add hx hy
  have h := natAbs_settle_lt_iff 0 (steps x + steps y)
  rw [isFinite_iff hnan, hsteps]
  simpa only [Nat.pow_zero, Nat.mul_one] using h

theorem isFinite_of_pack {u : UnpackedFloat} (h : (Float.Model.pack u).unpack.isFinite = true) : u.isFinite = true := by
  cases u with
  | infinity s => rw [unpack_pack (u := .infinity s) trivial] at h; exact h
  | notANumber => rw [unpack_pack (u := .notANumber) trivial] at h; exact h
  | _ => rfl

theorem isFinite_of_add {x y : Float} (h : (x + y).isFinite = true) : x.isFinite = true ∧ y.isFinite = true := by
  have hadd : (UnpackedFloat.add Format.binary64 x.toModel.unpack y.toModel.unpack).isFinite = true :=
    isFinite_of_pack h
  rw [isFinite_def, isFinite_def]
  cases hu : x.toModel.unpack <;> cases hv : y.toModel.unpack <;> rw [hu, hv] at hadd <;> first
    | exact ⟨rfl, rfl⟩
    | cases hadd
    | (rename_i s t; cases s <;> cases t <;> cases hadd)

/-! ## Products -/

theorem mul_lead {m₁ m₂ : Nat} {e₁ e₂ : Int} (hm₁ : 0 < m₁) (hm₂ : 0 < m₂) (hl₁ : 2 ^ 52 ≤ m₁ ∨ e₁ = -1074)
    (hl₂ : 2 ^ 52 ≤ m₂ ∨ e₂ = -1074) : 2 ^ 52 ≤ m₁ * m₂ ∨ e₁ + e₂ ≤ -1074 := by
  rcases hl₁ with h | h
  · exact Or.inl (h.trans (Nat.le_mul_of_pos_right _ hm₂))
  · rcases hl₂ with h' | h'
    · exact Or.inl (h'.trans (Nat.le_mul_of_pos_left _ hm₁))
    · exact Or.inr (by omega)

theorem mul_apply (s t : Sign) (a b : Nat) : (s * t).apply (a * b : Nat) = s.apply a * t.apply b := by
  rw [Nat.cast_mul]
  cases s <;> cases t
  · exact (Int.neg_mul_neg _ _).symm
  · exact (Int.neg_mul _ _).symm
  · exact (Int.mul_neg _ _).symm
  · rfl

theorem natAbs_mul_lt (n : Int) (b : Nat) {k : Nat} (hk : 0 < k) : (n * k).natAbs < b * k ↔ n.natAbs < b := by
  rw [Int.natAbs_mul, Int.natAbs_natCast]
  exact Nat.mul_lt_mul_right hk

theorem packsTo_mul {u v : UnpackedFloat} (hcu : Canonical u) (hcv : Canonical v) (hu : u.isFinite = true)
    (hv : v.isFinite = true) :
    ∃ n, PacksTo (UnpackedFloat.mul Format.binary64 u v) n ∧ n * 2 ^ 1074 = settle 1074 (stepsOf u * stepsOf v) := by
  have hzero : ∀ r : Sign, stepsOf u * stepsOf v = 0 →
      ∃ n, PacksTo (.zero r) n ∧ n * 2 ^ 1074 = settle 1074 (stepsOf u * stepsOf v) := fun r h0 =>
    ⟨0, packsTo_zero r, by rw [h0, settle_zero, Int.zero_mul]⟩
  cases u with
  | notANumber => cases hu
  | infinity s => cases hu
  | zero s =>
    cases v with
    | notANumber => cases hv
    | infinity t => cases hv
    | zero t => exact hzero _ rfl
    | finite t m e hm => exact hzero _ (Int.zero_mul _)
  | finite s m e hm =>
    cases v with
    | notANumber => cases hv
    | infinity t => cases hv
    | zero t => exact hzero _ (Int.mul_zero _)
    | finite t m' e' hm' =>
      have hlead := mul_lead hm hm' hcu.2.2.2 hcv.2.2.2
      have hlo := hcu.2.1
      have hlo' := hcv.2.1
      have h := packsTo_round (s * t) 1074 (Nat.mul_ne_zero hm.ne' hm'.ne') hlead (by omega)
      have hexp : (e + e' + 1074 + (1074 : Nat)).toNat = (e + 1074).toNat + (e' + 1074).toNat := by omega
      have hprod : m * m' * 2 ^ (e + e' + 1074 + (1074 : Nat)).toNat =
          m * 2 ^ (e + 1074).toNat * (m' * 2 ^ (e' + 1074).toNat) := by
        rw [hexp, Nat.pow_add]
        ring
      rw [hprod, mul_apply] at h
      exact h

/-- **A product has the product of the steps, settled**, each step taken in as many parts as there are steps in 1. -/
theorem steps_mul {x y : Float} (hx : x.isFinite = true) (hy : y.isFinite = true) :
    (x * y).isNaN = false ∧ steps (x * y) * unitSteps = settle 1074 (steps x * steps y) := by
  have hunit : (unitSteps : Int) = 2 ^ 1074 := by
    unfold unitSteps
    exact Nat.cast_pow 2 1074
  obtain ⟨n, hn, hsettle⟩ := packsTo_mul (canonical x) (canonical y) hx hy
  obtain ⟨hnan, hsteps⟩ := hn.steps_eq
  refine ⟨hnan, ?_⟩
  rw [hunit]
  exact (congrArg (· * 2 ^ 1074) hsteps).trans hsettle

theorem isFinite_mul_iff {x y : Float} (hx : x.isFinite = true) (hy : y.isFinite = true) :
    (x * y).isFinite = true ↔ (steps x * steps y).natAbs < (2 ^ 2098 - 2 ^ 2044) * unitSteps := by
  obtain ⟨hnan, hsteps⟩ := steps_mul hx hy
  have h := natAbs_settle_lt_iff 1074 (steps x * steps y)
  rw [show (2 : Nat) ^ 1074 = unitSteps from rfl, ← hsteps, natAbs_mul_lt _ _ unitSteps_pos] at h
  rw [isFinite_iff hnan]
  exact h

end Lineup.Number
