import Lineup.Proofs.Number.Alike
import Lineup.Ranking
/-!
# Rows — what a row says of a point of zeros and ones

A row that holds up to some tolerance holds up to any larger one, and it does not tell alike points apart.  The row that
fixes the size of a team counts the ones of a point, as far as a double counts.
-/
namespace Lineup

open Number

/-! ## Tolerances -/

theorem isFinite_of_le_of_le {x y z : Float} (hx : x.isFinite = true) (hz : z.isFinite = true) (hxy : x ≤ y)
    (hyz : y ≤ z) : y.isFinite = true := by
  have hlo := natAbs_steps_lt hx
  have hhi := natAbs_steps_lt hz
  have hxy' := steps_le_of_le hxy
  have hyz' := steps_le_of_le hyz
  exact (isFinite_iff (notNaN_of_le hxy).2).2 (by omega)

theorem Sense.holds_mono {sense : Sense} {lhs rhs t tolerance : Float} (hrhs : rhs.isFinite = true ∨ sense = .equal)
    (ht : 0.0 ≤ t) (hle : t ≤ tolerance) (htolerance : tolerance.isFinite = true) (h : sense.holds lhs rhs t = true) :
    sense.holds lhs rhs tolerance = true := by
  have hfin := isFinite_of_le_of_le isFinite_zero htolerance ht hle
  have hsteps := steps_le_of_le hle
  cases sense with
  | atMost =>
    have hrhs := hrhs.resolve_right (by decide)
    obtain ⟨hnan, hsum⟩ := steps_add hrhs hfin
    obtain ⟨hnan', hsum'⟩ := steps_add hrhs htolerance
    refine decide_eq_true (Number.le_trans (of_decide_eq_true h) ((le_iff hnan hnan').2 ?_))
    rw [hsum, hsum']
    exact settle_mono 0 (by omega)
  | atLeast =>
    have hrhs := hrhs.resolve_right (by decide)
    obtain ⟨hnan, hdiff⟩ := steps_sub hrhs hfin
    obtain ⟨hnan', hdiff'⟩ := steps_sub hrhs htolerance
    refine decide_eq_true (Number.le_trans ((le_iff hnan' hnan).2 ?_) (of_decide_eq_true h))
    rw [hdiff, hdiff']
    exact settle_mono 0 (by omega)
  | equal => exact decide_eq_true (Number.le_trans (of_decide_eq_true h) hle)

theorem Sense.holds_of_alike {sense : Sense} {lhs lhs' rhs tolerance : Float} (hlhs : Alike lhs lhs')
    (h : sense.holds lhs rhs tolerance = true) : sense.holds lhs' rhs tolerance = true := by
  cases sense with
  | atMost => exact decide_eq_true (hlhs.le_of_le (Alike.refl _) (of_decide_eq_true h))
  | atLeast => exact decide_eq_true ((Alike.refl _).le_of_le hlhs (of_decide_eq_true h))
  | equal => exact decide_eq_true ((hlhs.sub_right rhs).abs.le_of_le (Alike.refl _) (of_decide_eq_true h))

/-! ## Points of zeros and ones -/

theorem alike_dot_bits {coefficients values : List Float} (h : ∀ a ∈ coefficients, a.isFinite = true)
    (hbits : values.all isBit = true) : Alike (dot coefficients values) (dot coefficients (values.map bit)) := by
  have hfold : ∀ (coefficients values : List Float) (total total' : Float), (∀ a ∈ coefficients, a.isFinite = true) →
      values.all isBit = true → Alike total total' →
      Alike ((coefficients.zip values).foldl (fun total ax => total + ax.1 * ax.2) total)
        ((coefficients.zip (values.map bit)).foldl (fun total ax => total + ax.1 * ax.2) total') := by
    intro coefficients
    induction coefficients with
    | nil => intro values total total' _ _ htotal; exact htotal
    | cons a coefficients ih =>
      intro values total total' hfin hbits htotal
      cases values with
      | nil => exact htotal
      | cons x values =>
        rw [List.all_cons, Bool.and_eq_true] at hbits
        refine ih values _ _ (fun b hb => hfin b (List.mem_cons_of_mem a hb)) hbits.2 (htotal.add ?_)
        exact (alike_bit hbits.1).mul_left (hfin a List.mem_cons_self) (steps_of_isBit hbits.1).1
  exact hfold coefficients values 0.0 0.0 h hbits (Alike.refl _)

/-- **A row that holds at a point of zeros and ones holds where the signs of the zeros are taken off**, and up to a
larger tolerance. -/
theorem Row.holds_bits {row : Row} {values : List Float} {t tolerance : Float}
    (hcoefficients : ∀ a ∈ row.coefficients, a.isFinite = true) (hrhs : row.rhs.isFinite = true ∨ row.sense = .equal)
    (hbits : values.all isBit = true) (ht : 0.0 ≤ t) (hle : t ≤ tolerance) (htolerance : tolerance.isFinite = true)
    (h : row.holds values t = true) : row.holds (values.map bit) tolerance = true :=
  Sense.holds_of_alike (alike_dot_bits hcoefficients hbits) (Sense.holds_mono hrhs ht hle htolerance h)

/-! ## The size of a team -/

theorem zip_replicate_length {α β : Type} (a : α) : ∀ (xs : List β),
    (List.replicate xs.length a).zip xs = xs.map (a, ·)
  | [] => rfl
  | x :: xs => congrArg ((a, x) :: ·) (zip_replicate_length a xs)

theorem dot_ones (values : List Float) :
    dot (List.replicate values.length 1.0) values = values.foldl (fun total x => total + 1.0 * x) 0.0 := by
  unfold dot
  rw [zip_replicate_length, List.foldl_map]

/-- The sum of the ones of up to `count` candidates tells how many they are from the size of a team.  The sum comes to
rest at `2 ^ 53`, which is also what the number after it is read as, so these two sizes cannot be told from more
candidates than that, which no memory has room for. -/
def Roster.Countable (roster : Roster) (count : Nat) : Prop :=
  match roster with
  | .fixed size => count ≤ 2 ^ 53 ∨ (size ≠ 2 ^ 53 ∧ size ≠ 2 ^ 53 + 1)
  | .unbounded => True

theorem steps_selectionTolerance_lt : steps selectionTolerance < unitSteps := by decide +kernel

theorem Row.count_of_teamSize {size : Nat} {values : List Float} {t : Float}
    (hsize : (Roster.fixed size).Countable values.length) (hle : size ≤ values.length) (hbits : values.all isBit = true)
    (ht : t ≤ selectionTolerance)
    (h : (Row.teamSize size values.length).holds values t = true) : values.countP (· == 1.0) = size := by
  obtain ⟨hfin, hsum⟩ := steps_sum_bits_from_zero hbits
  rw [← dot_ones] at hfin hsum
  have htiny : steps t < unitSteps := Int.lt_of_le_of_lt (steps_le_of_le ht) steps_selectionTolerance_lt
  have hroom : values.countP (· == 1.0) ≤ values.length := List.countP_le_length
  exact eq_of_near hfin hsum (hsize.imp_left fun h => ⟨by omega, by omega⟩) htiny (of_decide_eq_true h)

end Lineup
