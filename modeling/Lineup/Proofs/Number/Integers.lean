import Lineup.Linear.Problem
import Lineup.Proofs.Number.Range
import Lineup.Proofs.Number.Zeros
/-!
# Integers — doubles that are whole numbers are added without rounding

Up to `2 ^ 53` every integer is a double, so sums and products of such integers are exact as long as they stay below it.
Comparisons up to a tolerance of less than one half are then those of the integers.
-/
namespace Lineup.Number

/-! ## Exact values -/

theorem toRat?_eq_some {x : Float} {q : Rat} : toRat? x = some q ↔ x.isFinite = true ∧ exact x = q := by
  rw [isFinite_def]
  unfold exact toRat? parts?
  cases x.toModel.unpack with
  | infinity s => exact ⟨nofun, fun h => nomatch h.1⟩
  | notANumber => exact ⟨nofun, fun h => nomatch h.1⟩
  | zero s => exact ⟨fun h => ⟨rfl, Option.some_inj.1 h⟩, fun h => congrArg some h.2⟩
  | finite s m e hm => exact ⟨fun h => ⟨rfl, Option.some_inj.1 h⟩, fun h => congrArg some h.2⟩

theorem mapM_toRat?_eq_some : ∀ {xs : List Float} {qs : List Rat},
    xs.mapM toRat? = some qs ↔ (∀ x ∈ xs, x.isFinite = true) ∧ xs.map exact = qs
  | [], qs => ⟨fun h => ⟨nofun, Option.some_inj.1 h⟩, fun h => congrArg some h.2⟩
  | x :: xs, qs => by
    simp only [List.mapM_cons, Option.bind_eq_bind, Option.bind_eq_some_iff, toRat?_eq_some, mapM_toRat?_eq_some,
      List.forall_mem_cons, List.map_cons]
    constructor
    · rintro ⟨q, ⟨hx, rfl⟩, qs', ⟨hxs, rfl⟩, h⟩
      exact ⟨⟨hx, hxs⟩, Option.some_inj.1 h⟩
    · rintro ⟨⟨hx, hxs⟩, rfl⟩
      exact ⟨_, ⟨hx, rfl⟩, _, ⟨hxs, rfl⟩, rfl⟩

theorem toRat?_of_isFinite {x : Float} (h : x.isFinite = true) : toRat? x = some (exact x) := toRat?_eq_some.2 ⟨h, rfl⟩

theorem mapM_toRat?_of_isFinite {xs : List Float} (h : ∀ x ∈ xs, x.isFinite = true) :
    xs.mapM toRat? = some (xs.map exact) := mapM_toRat?_eq_some.2 ⟨h, rfl⟩

section Compare

variable {x y : Float} (hx : x.isFinite = true) (hy : y.isFinite = true)
include hx hy

theorem exact_le_iff : exact x ≤ exact y ↔ steps x ≤ steps y := by
  rw [← mul_le_mul_iff_left₀ cast_unitSteps_pos, exact_mul_unitSteps hx, exact_mul_unitSteps hy, Int.cast_le]

theorem exact_lt_iff : exact x < exact y ↔ steps x < steps y := by
  rw [← mul_lt_mul_iff_left₀ cast_unitSteps_pos, exact_mul_unitSteps hx, exact_mul_unitSteps hy, Int.cast_lt]

theorem exact_eq_iff : exact x = exact y ↔ steps x = steps y := by
  rw [← mul_left_inj' cast_unitSteps_pos.ne', exact_mul_unitSteps hx, exact_mul_unitSteps hy, Int.cast_inj]

theorem le_iff_exact : x ≤ y ↔ exact x ≤ exact y := by
  rw [le_iff (notNaN_of_isFinite hx) (notNaN_of_isFinite hy), exact_le_iff hx hy]

theorem lt_iff_exact : x < y ↔ exact x < exact y := by
  rw [lt_iff (notNaN_of_isFinite hx) (notNaN_of_isFinite hy), exact_lt_iff hx hy]

end Compare

/-! ## Integers -/

def IsInt (x : Float) (n : Int) : Prop := toRat? x = some (n : Rat)

instance (x : Float) (n : Int) : Decidable (IsInt x n) := inferInstanceAs (Decidable (_ = _))

theorem isInt_iff {x : Float} {n : Int} : IsInt x n ↔ x.isFinite = true ∧ steps x = n * unitSteps := by
  have hvalue (hx : x.isFinite = true) : exact x = n ↔ steps x = n * unitSteps := by
    rw [← mul_left_inj' cast_unitSteps_pos.ne', exact_mul_unitSteps hx, ← Int.cast_natCast, ← Int.cast_mul,
      Int.cast_inj]
  unfold IsInt
  rw [toRat?_eq_some]
  exact and_congr_right hvalue

theorem settle_int {n : Int} (h : n.natAbs ≤ 2 ^ 53) : settle 0 (n * unitSteps) = n * unitSteps := by
  rcases Int.natAbs_eq n with hn | hn
  · rw [hn, ← Nat.cast_mul]
    exact settle_whole h
  · rw [hn, Int.neg_mul, settle_neg, ← Nat.cast_mul, settle_whole h]

theorem natAbs_mul_unitSteps_lt {n : Int} (h : n.natAbs ≤ 2 ^ 53) : (n * unitSteps).natAbs < farthest := by
  have hfar := two_pow_mul_unitSteps_le (k := 54) (by omega)
  have hle := Nat.mul_le_mul_right unitSteps h
  have hpos := unitSteps_pos
  rw [Int.natAbs_mul, Int.natAbs_natCast]
  generalize n.natAbs * unitSteps = a at *
  generalize unitSteps = unit at *
  omega

theorem isInt_of_steps {x : Float} {n : Int} (hnan : x.isNaN = false) (hsteps : steps x = n * unitSteps)
    (h : n.natAbs ≤ 2 ^ 53) : IsInt x n := by
  refine isInt_iff.2 ⟨(isFinite_iff hnan).2 ?_, hsteps⟩
  rw [hsteps]
  exact natAbs_mul_unitSteps_lt h

theorem isInt_zero : IsInt 0.0 0 := isInt_iff.2 ⟨isFinite_zero, steps_zero.trans (Int.zero_mul _).symm⟩

theorem isInt_one : IsInt 1.0 1 := isInt_iff.2 ⟨isFinite_one, steps_one.trans (Int.one_mul _).symm⟩

theorem isInt_ofNat {n : Nat} (h : n ≤ 2 ^ 53) : IsInt (Float.ofNat n) n := by
  obtain ⟨hnan, hsteps⟩ := steps_ofNat n
  rw [settle_whole h, Nat.cast_mul] at hsteps
  exact isInt_of_steps hnan hsteps h

theorem isBit_iff {x : Float} : isBit x = true ↔ IsInt x 0 ∨ IsInt x 1 := by
  rw [isInt_iff, isInt_iff, Int.zero_mul, Int.one_mul]
  constructor
  · intro h
    obtain ⟨hfin, hsteps, -⟩ := steps_of_isBit h
    exact hsteps.imp (⟨hfin, ·⟩) (⟨hfin, ·⟩)
  · intro h
    unfold isBit
    rw [Bool.or_eq_true]
    refine h.imp (fun ⟨hfin, hsteps⟩ => ?_) fun ⟨hfin, hsteps⟩ => ?_
    · exact beq_of_steps (notNaN_of_isFinite hfin) (notNaN_of_isFinite isFinite_zero) (hsteps.trans steps_zero.symm)
    · exact beq_of_steps (notNaN_of_isFinite hfin) (notNaN_of_isFinite isFinite_one) (hsteps.trans steps_one.symm)

namespace IsInt

variable {x y : Float} {m n : Int}

theorem isFinite (h : IsInt x n) : x.isFinite = true := (isInt_iff.1 h).1

theorem steps_eq (h : IsInt x n) : steps x = n * unitSteps := (isInt_iff.1 h).2

theorem exact_eq (h : IsInt x n) : exact x = n := (toRat?_eq_some.1 h).2

theorem add (hx : IsInt x m) (hy : IsInt y n) (h : (m + n).natAbs ≤ 2 ^ 53) : IsInt (x + y) (m + n) := by
  obtain ⟨hnan, hsum⟩ := steps_add hx.isFinite hy.isFinite
  rw [hx.steps_eq, hy.steps_eq, ← Int.add_mul, settle_int h] at hsum
  exact isInt_of_steps hnan hsum h

theorem mul (hx : IsInt x m) (hy : IsInt y n) (h : (m * n).natAbs ≤ 2 ^ 53) : IsInt (x * y) (m * n) := by
  obtain ⟨hnan, hmul⟩ := steps_mul hx.isFinite hy.isFinite
  have hsplit : m * unitSteps * (n * unitSteps) = m * n * unitSteps * (2 ^ 1074 : Nat) := by
    rw [show (2 : Nat) ^ 1074 = unitSteps from rfl]
    ring
  rw [hx.steps_eq, hy.steps_eq, hsplit, settle_mul_pow, settle_int h] at hmul
  exact isInt_of_steps hnan (Int.eq_of_mul_eq_mul_right (Int.natCast_ne_zero.2 unitSteps_pos.ne') hmul) h

theorem mul_bit (hx : IsInt x n) (hy : isBit y = true) (h : n.natAbs ≤ 2 ^ 53) :
    ∃ k : Int, k.natAbs ≤ n.natAbs ∧ IsInt (x * y) k ∧ (k : Rat) = exact x * exact y := by
  rw [hx.exact_eq]
  rcases isBit_iff.1 hy with hzero | hone
  · refine ⟨0, by omega, ?_, ?_⟩
    · simpa using hx.mul hzero (by omega)
    · simp [hzero.exact_eq]
  · refine ⟨n, Nat.le_refl _, ?_, ?_⟩
    · simpa using hx.mul hone (by omega)
    · simp [hone.exact_eq]

end IsInt

theorem exact_zero : exact 0.0 = 0 := isInt_zero.exact_eq.trans Int.cast_zero

theorem exact_one : exact 1.0 = 1 := isInt_one.exact_eq.trans Int.cast_one

theorem exact_ite (c : Prop) [Decidable c] : exact (if c then 1.0 else 0.0) = if c then 1 else 0 := by
  split
  · exact exact_one
  · exact exact_zero

/-! ## Sums of products -/

/-- The doubles are these integers, with magnitudes that add up to a number below `2 ^ 53`. -/
def AreInts (xs : List Float) (ns : List Int) : Prop :=
  List.Forall₂ IsInt xs ns ∧ (ns.map Int.natAbs).sum < 2 ^ 53

instance (xs : List Float) (ns : List Int) : Decidable (AreInts xs ns) := inferInstanceAs (Decidable (_ ∧ _))

theorem isFinite_of_forall₂ {xs : List Float} {ns : List Int} (h : List.Forall₂ IsInt xs ns) :
    ∀ x ∈ xs, x.isFinite = true := by
  induction h with
  | nil => exact fun x hx => absurd hx List.not_mem_nil
  | cons hx _ ih => exact List.forall_mem_cons.2 ⟨hx.isFinite, ih⟩

/-- The total stays an integer as long as the magnitudes that are left fit below `2 ^ 53` with it. -/
theorem isInt_foldl_dot {xs : List Float} {ns : List Int} (h : List.Forall₂ IsInt xs ns) :
    ∀ {values : List Float} {total : Float} {k : Int}, values.all isBit = true → IsInt total k →
      k.natAbs + (ns.map Int.natAbs).sum < 2 ^ 53 →
      ∃ n : Int, n.natAbs < 2 ^ 53 ∧
        IsInt ((xs.zip values).foldl (fun total ax => total + ax.1 * ax.2) total) n ∧
        (n : Rat) = k + Linear.dot (xs.map exact) (values.map exact) := by
  induction h with
  | nil =>
    intro values total k _ htotal hroom
    exact ⟨k, by omega, htotal, by simp [Linear.dot]⟩
  | @cons x n xs ns hx _ ih =>
    intro values total k hbits htotal hroom
    cases values with
    | nil => exact ⟨k, by omega, htotal, by simp [Linear.dot]⟩
    | cons b values =>
      rw [List.all_cons, Bool.and_eq_true] at hbits
      rw [List.map_cons, List.sum_cons] at hroom
      obtain ⟨j, hj, hmul, hvalue⟩ := hx.mul_bit hbits.1 (by omega)
      obtain ⟨m, hm, hsum, hdot⟩ := ih hbits.2 (htotal.add hmul (by omega)) (by omega)
      refine ⟨m, hm, hsum, ?_⟩
      rw [hdot, List.map_cons, List.map_cons, Linear.dot, ← hvalue]
      push_cast
      ring

theorem AreInts.dot {xs : List Float} {ns : List Int} (h : AreInts xs ns) {values : List Float}
    (hbits : values.all isBit = true) :
    ∃ n : Int, n.natAbs < 2 ^ 53 ∧ IsInt (Lineup.dot xs values) n ∧
      (n : Rat) = Linear.dot (xs.map exact) (values.map exact) := by
  obtain ⟨n, hn, hsum, hdot⟩ := isInt_foldl_dot h.1 hbits isInt_zero (by simpa using h.2)
  exact ⟨n, hn, hsum, by simpa using hdot⟩

/-! ## Sums in any order -/

theorem isInt_foldl_add {xs : List Float} {ns : List Int} (h : List.Forall₂ IsInt xs ns) :
    ∀ {total : Float} {k : Int}, IsInt total k → k.natAbs + (ns.map Int.natAbs).sum < 2 ^ 53 →
      IsInt (xs.foldl (· + ·) total) (k + ns.sum) := by
  induction h with
  | nil =>
    intro total k htotal _
    simpa using htotal
  | @cons x n xs ns hx _ ih =>
    intro total k htotal hroom
    rw [List.map_cons, List.sum_cons] at hroom
    rw [List.foldl_cons, List.sum_cons, ← Int.add_assoc]
    exact ih (htotal.add hx (by omega)) (by omega)

theorem forall₂_isInt_iff : ∀ {xs : List Float} {ns : List Int}, List.Forall₂ IsInt xs ns ↔
    (∀ x ∈ xs, ∃ n, IsInt x n) ∧ ns = xs.map fun x => (exact x).num
  | [], ns => by simp
  | x :: xs, ns => by
    rw [List.forall₂_cons_left_iff, List.forall_mem_cons, List.map_cons]
    constructor
    · rintro ⟨n, ns', hx, hxs, rfl⟩
      obtain ⟨hints, rfl⟩ := forall₂_isInt_iff.1 hxs
      exact ⟨⟨⟨n, hx⟩, hints⟩, by rw [hx.exact_eq, Rat.num_intCast]⟩
    · rintro ⟨⟨⟨n, hx⟩, hints⟩, rfl⟩
      exact ⟨_, _, by rwa [hx.exact_eq, Rat.num_intCast], forall₂_isInt_iff.2 ⟨hints, rfl⟩, rfl⟩

namespace AreInts

variable {xs ys : List Float} {ns : List Int}

theorem subperm (h : AreInts xs ns) (hsub : ys.Subperm xs) : ∃ ms, ms.Subperm ns ∧ AreInts ys ms := by
  obtain ⟨hints, rfl⟩ := forall₂_isInt_iff.1 h.1
  have hforall := forall₂_isInt_iff.2 ⟨fun x hx => hints x (hsub.subset hx), rfl⟩
  obtain ⟨zs, hperm, hsublist⟩ := hsub
  refine ⟨_, ⟨_, hperm.map _, hsublist.map _⟩, hforall, ?_⟩
  rw [← ((hperm.map _).map _).sum_eq]
  exact Nat.lt_of_le_of_lt (((hsublist.map _).map _).sum_le_sum fun n _ => Nat.zero_le n) h.2

/-- **Integers have one sum in whatever order they are added.** -/
theorem foldl_add_eq (h : AreInts xs ns) (hperm : ys.Perm xs) : ys.foldl (· + ·) 0.0 = xs.foldl (· + ·) 0.0 := by
  obtain ⟨ms, hsub, hms⟩ := h.subperm hperm.subperm
  have hlength : ns.length ≤ ms.length := by
    rw [← h.1.length_eq, ← hms.1.length_eq, hperm.length_eq]
  have hy := isInt_foldl_add hms.1 isInt_zero (by simpa using hms.2)
  have hx := isInt_foldl_add h.1 isInt_zero (by simpa using h.2)
  rw [(hsub.perm_of_length_le hlength).sum_eq] at hy
  exact eq_of_alike (alike_of_steps (notNaN_of_isFinite hy.isFinite) (notNaN_of_isFinite hx.isFinite)
    (hy.steps_eq.trans hx.steps_eq.symm)) (foldl_add_ne_minusZero id ys zero_ne_minusZero)
    (foldl_add_ne_minusZero id xs zero_ne_minusZero)

end AreInts

/-! ## Comparisons up to a tolerance -/

theorem log2_lt_of_lt {n k : Nat} (hn : n ≠ 0) (h : n < 2 ^ k * unitSteps) : n.log2 < k + 1074 := by
  rw [Nat.log2_lt hn, ← two_pow_mul (a := k) (b := 1074) rfl]
  exact h

theorem nearest_near {n : Nat} (h : n < 2 ^ 53 * unitSteps) :
    2 * nearest 0 n ≤ 2 * n + unitSteps ∧ 2 * n ≤ 2 * nearest 0 n + unitSteps := by
  have hlost : lostBits 0 n ≤ 1074 := by
    by_cases hn : n = 0
    · subst hn
      decide
    · have hlog := log2_lt_of_lt hn h
      unfold lostBits
      omega
  have hunit : 2 ^ lostBits 0 n ≤ unitSteps := two_pow_le hlost
  have hdm := Nat.div_add_mod n (2 ^ lostBits 0 n)
  have hmod := Nat.mod_lt n (Nat.two_pow_pos (lostBits 0 n))
  unfold nearest
  generalize unitSteps = unit at *
  unfold halfEven
  generalize 2 ^ lostBits 0 n = u at *
  generalize n / u = q at *
  generalize n % u = r at *
  rw [Nat.mul_comm] at hdm
  have hup : (q + 1) * u = q * u + u := Nat.succ_mul q u
  split_ifs
  · omega
  · omega
  · rcases Nat.mod_two_eq_zero_or_one q with hq | hq <;> rw [hq]
    · rw [Nat.add_zero]
      omega
    · omega

theorem settle_near {n : Int} (h : n.natAbs < 2 ^ 53 * unitSteps) :
    2 * settle 0 n ≤ 2 * n + unitSteps ∧ 2 * n ≤ 2 * settle 0 n + unitSteps := by
  obtain ⟨hup, hdown⟩ := nearest_near h
  have hfar : nearest 0 n.natAbs ≤ farthest * 2 ^ 0 := by
    have hreach := two_pow_mul_unitSteps_le (k := 54) (by omega)
    have hpos := unitSteps_pos
    omega
  have hsettle : settle 0 n.natAbs = nearest 0 n.natAbs := by
    rw [settle_ofNat, Nat.min_eq_left hfar]
  rcases Int.natAbs_eq n with hn | hn
  · rw [hn, hsettle]
    omega
  · rw [hn, settle_neg, hsettle]
    omega

section Tolerance

variable {lhs rhs t : Float} {l r : Int}

/-- A tolerance that no integer tells from zero. -/
def IsSlight (t : Float) : Prop := 0.0 ≤ t ∧ 2 * steps t < unitSteps

theorem IsSlight.isFinite (ht : IsSlight t) : t.isFinite = true := by
  have hfar := two_pow_mul_unitSteps_le (k := 0) (by omega)
  have hzero := steps_le_of_le ht.1
  have hunit := ht.2
  rw [steps_zero] at hzero
  exact (isFinite_iff (notNaN_of_le ht.1).2).2 (by omega)

theorem IsSlight.steps_nonneg (ht : IsSlight t) : 0 ≤ steps t := by
  have hzero := steps_le_of_le ht.1
  rwa [steps_zero] at hzero

theorem settle_add_slight {s : Int} (hs : 0 ≤ s) (hslight : 2 * s < unitSteps) (hrange : r.natAbs < 2 ^ 53) :
    l * unitSteps ≤ settle 0 (r * unitSteps + s) ↔ l ≤ r := by
  have hpos := unitSteps_pos
  constructor
  · intro h
    have hroom := Nat.mul_le_mul_right unitSteps hrange
    rw [Nat.succ_mul, ← Int.natAbs_natCast unitSteps, ← Int.natAbs_mul, Int.natAbs_natCast] at hroom
    obtain ⟨hnear, -⟩ := settle_near (n := r * unitSteps + s) (by omega)
    by_contra hlt
    have hnext : (r + 1) * unitSteps ≤ l * unitSteps := Int.mul_le_mul_of_nonneg_right (by omega) (by omega)
    rw [Int.add_mul, Int.one_mul] at hnext
    omega
  · intro h
    have hle : l * unitSteps ≤ r * unitSteps := Int.mul_le_mul_of_nonneg_right h (by omega)
    have hmono := settle_mono 0 (show r * unitSteps ≤ r * unitSteps + s by omega)
    rw [settle_int (by omega)] at hmono
    exact hle.trans hmono

variable (hl : IsInt lhs l) (hr : IsInt rhs r) (ht : IsSlight t)
include hl hr ht

theorem le_add_slight_iff (hrange : r.natAbs < 2 ^ 53) : lhs ≤ rhs + t ↔ l ≤ r := by
  obtain ⟨hnan, hsum⟩ := steps_add hr.isFinite ht.isFinite
  rw [Number.le_iff (notNaN_of_isFinite hl.isFinite) hnan, hsum, hl.steps_eq, hr.steps_eq]
  exact settle_add_slight ht.steps_nonneg ht.2 hrange

theorem sub_slight_le_iff (hrange : r.natAbs < 2 ^ 53) : rhs - t ≤ lhs ↔ r ≤ l := by
  obtain ⟨hnan, hdiff⟩ := steps_sub hr.isFinite ht.isFinite
  rw [Number.le_iff hnan (notNaN_of_isFinite hl.isFinite), hdiff, hl.steps_eq, hr.steps_eq, ← Int.neg_le_neg_iff,
    ← settle_neg, ← Int.neg_mul, Int.neg_sub, Int.sub_eq_add_neg, Int.add_comm, ← Int.neg_mul,
    settle_add_slight ht.steps_nonneg ht.2 (by omega), Int.neg_le_neg_iff]

theorem abs_sub_le_slight_iff : (lhs - rhs).abs ≤ t ↔ l = r := by
  obtain ⟨hnan, hdiff⟩ := steps_sub hl.isFinite hr.isFinite
  have hslight := ht.2
  have hnonneg := ht.steps_nonneg
  rw [Number.le_iff (by rw [isNaN_abs]; exact hnan) (notNaN_of_isFinite ht.isFinite), steps_abs, hdiff, hl.steps_eq,
    hr.steps_eq, ← Int.sub_mul]
  constructor
  · intro h
    by_contra hne
    have hunit := settle_int (n := 1) (by decide)
    rcases Int.lt_or_gt_of_ne hne with hlt | hgt
    · have hstep : (l - r) * unitSteps ≤ -(1 * unitSteps) := by
        rw [← Int.neg_mul]
        exact Int.mul_le_mul_of_nonneg_right (by omega) (by omega)
      have hle := settle_mono 0 hstep
      rw [settle_neg, hunit] at hle
      omega
    · have hstep : 1 * (unitSteps : Int) ≤ (l - r) * unitSteps := Int.mul_le_mul_of_nonneg_right (by omega) (by omega)
      have hle := settle_mono 0 hstep
      rw [hunit] at hle
      omega
  · intro h
    rw [h, Int.sub_self, Int.zero_mul, settle_zero]
    exact hnonneg

end Tolerance

end Lineup.Number
