import Lineup.Proofs.Number.Order
import Lineup.Proofs.Standing
/-!
# SignedZeros — equal values that a ranking tells apart

The conditions for being in a team compare values as numbers, but the values of shares are sorted in the total order of
doubles, where `-0.0` comes before `0.0`.  Where a fixed roster cuts among candidates whose value is zero, the signs of
the zeros decide who is kept; nowhere else do they matter (`ranks_agree_iff`).
-/
namespace Lineup

namespace Number

def unsigned (x : Float) : Float := if x = -0.0 then 0.0 else x

theorem unsigned_of_ne {x : Float} (h : x ≠ -0.0) : unsigned x = x := if_neg h

theorem unsigned_congr {α : Type} {f : Float → α} (h : f (-0.0) = f 0.0) (x : Float) : f (unsigned x) = f x := by
  unfold unsigned
  by_cases hx : x = -0.0
  · rw [if_pos hx, hx, h]
  · rw [if_neg hx]

theorem notNaN_of_beq {x y : Float} (h : (x == y) = true) : y.isNaN = false := by
  by_contra hnan
  rw [beq_def, isNaN_of_parts (Bool.of_not_eq_false hnan)] at h
  cases hu : x.toModel.unpack <;> rw [hu] at h <;> cases h

theorem unsigned_eq_of_beq {x y : Float} (h : (x == y) = true) : unsigned x = unsigned y := by
  have hne : ∀ z, unsigned z ≠ -0.0 := fun z => by
    unfold unsigned
    by_cases hz : z = -0.0
    · rw [if_pos hz]
      exact zero_ne_minusZero
    · rwa [if_neg hz]
  refine eq_of_alike ?_ (hne x) (hne y)
  have halike : ∀ {z w}, Alike z w → Alike (unsigned z) w := fun {z w} hzw => by
    rwa [unsigned_congr (f := fun z => Alike z w) (by rfl)]
  exact (halike (halike (alike_of_beq (notNaN_of_beq h) h)).symm).symm

end Number

open Number (isFinite_zero key notNaN_of_isFinite steps steps_zero unsigned_congr unsigned_of_ne)

/-! ## Entries -/

def Ranked.unsigned (r : Ranked) : Ranked := { r with value := Number.unsigned r.value }

/-- The roster does not cut among entries whose value is zero. -/
def SparesZeros (size : Nat) (ranked : List Ranked) : Prop :=
  size ≤ ranked.countP (fun r => 0.0 < r.value) ∨ ranked.countP (fun r => 0.0 ≤ r.value) ≤ size

theorem filter_map_unsigned {q : Float → Bool} (hq : q (-0.0) = q 0.0) (xs : List Ranked) :
    (xs.filter fun r => q r.value).map Ranked.unsigned = (xs.map Ranked.unsigned).filter fun r => q r.value := by
  rw [List.filter_map]
  exact congrArg _ (List.filter_congr fun r _ => (unsigned_congr hq r.value).symm)

/-- A condition that no zero meets finds the same entries among others that differ by the signs of zeros. -/
theorem filter_eq_of_unsigned {q : Float → Bool} (hq : q (-0.0) = q 0.0) (hzero : q 0.0 = false) {xs ys : List Ranked}
    (h : xs.map Ranked.unsigned = ys.map Ranked.unsigned) :
    (xs.filter fun r => q r.value) = ys.filter fun r => q r.value := by
  have hfix : ∀ zs : List Ranked,
      (zs.filter fun r => q r.value).map Ranked.unsigned = zs.filter fun r => q r.value := by
    intro zs
    refine (List.map_congr_left fun r hr => ?_).trans (List.map_id _)
    have hne : r.value ≠ -0.0 := fun heq => by
      have hq' := (List.mem_filter.1 hr).2
      rw [heq, hq, hzero] at hq'
      cases hq'
    unfold Ranked.unsigned
    rw [unsigned_of_ne hne]
    rfl
  rw [← hfix xs, ← hfix ys, filter_map_unsigned hq, filter_map_unsigned hq, h]

theorem exists_mem_take_of_countP_lt {α : Type} {p : α → Bool} {xs : List α} {size : Nat} (h : xs.countP p < size)
    (hle : size ≤ xs.length) : ∃ x ∈ xs.take size, p x = false := by
  by_contra hall
  push Not at hall
  have hcount := (List.take_sublist size xs).countP_le (p := p)
  rw [List.countP_eq_length.2 fun x hx => Bool.of_not_eq_false (hall x hx), List.length_take] at hcount
  omega

theorem exists_mem_drop_of_lt_countP {α : Type} {p : α → Bool} {xs : List α} {size : Nat} (h : size < xs.countP p) :
    ∃ x ∈ xs.drop size, p x = true := by
  by_contra hall
  push Not at hall
  have hsplit : xs.countP p = (xs.take size).countP p + (xs.drop size).countP p := by
    rw [← List.countP_append, List.take_append_drop]
  have hlength := List.countP_le_length (p := p) (l := xs.take size)
  rw [List.countP_eq_zero.2 hall] at hsplit
  rw [List.length_take] at hlength
  omega

section Cut

variable {xs : List Ranked} (hids : (xs.map Ranked.id).Nodup) (hnumbers : ∀ r ∈ xs, r.value.isNaN = false) {size : Nat}
include hids hnumbers

theorem mergeSort_eq_append {p : Ranked → Bool}
    (h : ∀ x ∈ xs, ∀ y ∈ xs, p x = true → p y = false → steps y.value < steps x.value) :
    (xs.mergeSort fun x y => (x.byValue y).isLE) = ((xs.filter p).mergeSort fun x y => (x.byValue y).isLE) ++
      (xs.filter fun x => !p x).mergeSort fun x y => (x.byValue y).isLE := by
  have hperm : (((xs.filter p).mergeSort fun x y => (x.byValue y).isLE) ++
      (xs.filter fun x => !p x).mergeSort fun x y => (x.byValue y).isLE).Perm xs :=
    ((List.mergeSort_perm _ _).append (List.mergeSort_perm _ _)).trans (List.filter_append_perm p xs)
  refine List.Perm.eq_of_pairwise (fun x y hx hy hxy hyx => ?_) (Ranked.pairwise_byValue xs) ?_
    ((List.mergeSort_perm xs _).trans hperm.symm)
  · exact List.inj_on_of_nodup_map hids (List.mem_mergeSort.1 hx) (hperm.mem_iff.1 hy) (Ranked.id_eq_of_byValue hxy hyx)
  · refine List.pairwise_append.2 ⟨Ranked.pairwise_byValue _, Ranked.pairwise_byValue _, fun x hx y hy => ?_⟩
    obtain ⟨hx, hpx⟩ := List.mem_filter.1 (List.mem_mergeSort.1 hx)
    obtain ⟨hy, hpy⟩ := List.mem_filter.1 (List.mem_mergeSort.1 hy)
    have hlt := h x hx y hy hpx (by simpa using hpy)
    exact Ranked.byValue_isLE_iff.2 (Or.inl (Number.key_lt_of_steps_lt (hnumbers y hy) (hnumbers x hx) hlt))

theorem take_of_le_positive (h : size ≤ xs.countP fun r => 0.0 < r.value) :
    (xs.mergeSort fun x y => (x.byValue y).isLE).take size =
      ((xs.filter fun r => 0.0 < r.value).mergeSort fun x y => (x.byValue y).isLE).take size := by
  have h₀ := notNaN_of_isFinite isFinite_zero
  rw [mergeSort_eq_append hids hnumbers (p := fun r => 0.0 < r.value), List.take_append_of_le_length]
  · rwa [List.length_mergeSort, ← List.countP_eq_length_filter]
  · intro x hx y hy hpx hpy
    rw [decide_eq_true_iff, Number.lt_iff h₀ (hnumbers x hx)] at hpx
    rw [decide_eq_false_iff_not, Number.lt_iff h₀ (hnumbers y hy)] at hpy
    omega

theorem take_of_nonneg_le (h : xs.countP (fun r => 0.0 ≤ r.value) ≤ size) :
    (xs.mergeSort fun x y => (x.byValue y).isLE).take size =
      ((xs.filter fun r => 0.0 ≤ r.value).mergeSort fun x y => (x.byValue y).isLE) ++
        ((xs.filter fun r => !decide (0.0 ≤ r.value)).mergeSort fun x y => (x.byValue y).isLE).take
          (size - xs.countP fun r => 0.0 ≤ r.value) := by
  have h₀ := notNaN_of_isFinite isFinite_zero
  rw [List.countP_eq_length_filter] at h ⊢
  rw [mergeSort_eq_append hids hnumbers (p := fun r => 0.0 ≤ r.value), List.take_append, List.length_mergeSort,
    List.take_of_length_le (by rwa [List.length_mergeSort])]
  intro x hx y hy hpx hpy
  rw [decide_eq_true_iff, Number.le_iff h₀ (hnumbers x hx)] at hpx
  rw [decide_eq_false_iff_not, Number.le_iff h₀ (hnumbers y hy)] at hpy
  omega

/-- **Where a roster cuts among zeros, a zero is kept and another is cut off.** -/
theorem exists_zeros_of_not_spares (h : ¬SparesZeros size xs) :
    ∃ z ∈ (xs.mergeSort fun x y => (x.byValue y).isLE).take size, ∃ w ∈ xs,
      w ∉ (xs.mergeSort fun x y => (x.byValue y).isLE).take size ∧
        (z.value == 0.0) = true ∧ (w.value == 0.0) = true := by
  have h₀ := notNaN_of_isFinite isFinite_zero
  have hperm := List.mergeSort_perm xs fun x y => (x.byValue y).isLE
  have hnodup := hperm.nodup_iff.2 (List.Nodup.of_map _ hids)
  have hsorted := Ranked.pairwise_byValue xs
  have hmem : ∀ r ∈ xs.mergeSort fun x y => (x.byValue y).isLE, r ∈ xs := fun r hr => hperm.mem_iff.1 hr
  unfold SparesZeros at h
  rw [← hperm.countP_eq, ← hperm.countP_eq, not_or, Nat.not_le, Nat.not_le] at h
  generalize (xs.mergeSort fun x y => (x.byValue y).isLE) = sorted at *
  obtain ⟨z, hz, hzero⟩ := exists_mem_take_of_countP_lt h.1 (Nat.le_trans (Nat.le_of_lt h.2) List.countP_le_length)
  obtain ⟨w, hw, hwzero⟩ := exists_mem_drop_of_lt_countP h.2
  have hzn := hnumbers z (hmem z (List.mem_of_mem_take hz))
  have hwn := hnumbers w (hmem w (List.mem_of_mem_drop hw))
  rw [decide_eq_false_iff_not, Number.lt_iff h₀ hzn, steps_zero] at hzero
  rw [decide_eq_true_iff, Number.le_iff h₀ hwn, steps_zero] at hwzero
  -- `z` comes first, so it is not the smaller number
  have hle : ¬steps z.value < steps w.value := fun hlt => by
    rw [← List.take_append_drop size sorted] at hsorted
    have hbefore := Ranked.byValue_isLE_iff.1 ((List.pairwise_append.1 hsorted).2.2 z hz w hw)
    have hkey := Number.key_lt_of_steps_lt hzn hwn hlt
    omega
  refine ⟨z, hz, w, hmem w (List.mem_of_mem_drop hw), fun hkept => ?_, ?_, ?_⟩
  · exact List.disjoint_take_drop hnodup (Nat.le_refl size) hkept hw
  · exact Number.beq_of_steps hzn h₀ (by rw [steps_zero]; omega)
  · exact Number.beq_of_steps hwn h₀ (by rw [steps_zero]; omega)

end Cut

/-! ## Entries of the same values -/

section Same

variable {xs ys : List Ranked} (hids : (xs.map Ranked.id).Nodup)
  (h : xs.map Ranked.unsigned = ys.map Ranked.unsigned)
include hids h

theorem perm_chosen_unsigned (hxs : ∀ r ∈ xs, r.value.isNaN = false) (hys : ∀ r ∈ ys, r.value.isNaN = false)
    {mode : Mode} {roster : Roster}
    (hspares : ∀ size, mode = .fractional → roster = .fixed size → SparesZeros size xs) :
    ((chosen xs mode roster).map Ranked.unsigned).Perm ((chosen ys mode roster).map Ranked.unsigned) := by
  have hfilter : ∀ {q : Float → Bool}, q (-0.0) = q 0.0 →
      (xs.filter fun r => q r.value).map Ranked.unsigned = (ys.filter fun r => q r.value).map Ranked.unsigned :=
    fun hq => by rw [filter_map_unsigned hq, filter_map_unsigned hq, h]
  have hids' : (ys.map Ranked.id).Nodup := by
    have hmap := congrArg (List.map Ranked.id) h
    rw [List.map_map, List.map_map] at hmap
    rwa [show ys.map Ranked.id = xs.map Ranked.id from hmap.symm]
  cases mode with
  | binary =>
    exact .of_eq (hfilter (q := fun v => (v - 1.0).abs < selectionTolerance) (by decide +kernel))
  | fractional =>
    cases roster with
    | unbounded => exact .of_eq (hfilter (q := fun v => selectionTolerance < v) (by decide +kernel))
    | fixed size =>
      unfold chosen
      dsimp only
      rcases hspares size rfl rfl with hpos | hnonneg
      · have hsame := filter_eq_of_unsigned (q := fun v => 0.0 < v) (by decide +kernel) (by decide +kernel) h
        rw [take_of_le_positive hids hxs hpos, hsame, take_of_le_positive hids' hys]
        rwa [List.countP_eq_length_filter, ← hsame, ← List.countP_eq_length_filter]
      · have hsame := filter_eq_of_unsigned (q := fun v => !decide (0.0 ≤ v)) (by decide +kernel) (by decide +kernel) h
        have hzeros := hfilter (q := fun v => 0.0 ≤ v) (by decide +kernel)
        have hcount : xs.countP (fun r => 0.0 ≤ r.value) = ys.countP fun r => 0.0 ≤ r.value := by
          rw [List.countP_eq_length_filter, List.countP_eq_length_filter, ← List.length_map Ranked.unsigned, hzeros,
            List.length_map]
        rw [take_of_nonneg_le hids hxs hnonneg, take_of_nonneg_le hids' hys (hcount ▸ hnonneg), hsame, hcount,
          List.map_append, List.map_append]
        refine List.Perm.append_right _ ?_
        exact ((List.mergeSort_perm _ _).map _).trans
          ((List.Perm.of_eq hzeros).trans ((List.mergeSort_perm _ _).map _).symm)

end Same

/-! ## Assignments -/

/-- Both give the same number to every candidate, or none; the two zeros are the same number. -/
def Assignment.Same (a b : Assignment) (candidates : List Candidate) : Prop :=
  ∀ c ∈ candidates, Option.Rel (fun x y => (x == y) = true) (a.value? c.id) (b.value? c.id)

def Assignment.withZeros (a : Assignment) (signed other : Nat) : Assignment :=
  ⟨(a.values.insert signed (-0.0)).insert other 0.0, a.objectiveValue⟩

theorem value?_withZeros (a : Assignment) (signed other id : Nat) : (a.withZeros signed other).value? id =
    if other = id then some 0.0 else if signed = id then some (-0.0) else a.value? id := by
  simp [Assignment.value?, Assignment.withZeros, Std.TreeMap.getElem?_insert]

section Assignments

variable {candidates : List Candidate} {a b : Assignment} {objective : Objective}

theorem ranked_unsigned (h : a.Same b candidates) :
    (a.ranked candidates objective).map Ranked.unsigned = (b.ranked candidates objective).map Ranked.unsigned := by
  unfold Assignment.ranked
  rw [List.map_filterMap, List.map_filterMap]
  refine List.filterMap_congr fun c hc => ?_
  have hsame := h c hc
  generalize a.value? c.id = x at hsame
  generalize b.value? c.id = y at hsame
  cases hsame with
  | none => rfl
  | some heq => simp [Ranked.unsigned, Number.unsigned_eq_of_beq heq]

theorem same_withZeros (hnumbers : ∀ c ∈ candidates, ∀ x, a.value? c.id = some x → x.isNaN = false) {signed other : Nat}
    {x y : Float} (hx : a.value? signed = some x) (hzero : (x == 0.0) = true) (hy : a.value? other = some y)
    (hother : (y == 0.0) = true) : a.Same (a.withZeros signed other) candidates := by
  intro c hc
  rw [value?_withZeros]
  by_cases ho : other = c.id
  · rw [if_pos ho, ← ho, hy]
    exact .some hother
  · rw [if_neg ho]
    by_cases hs : signed = c.id
    · obtain ⟨hnan, hsteps⟩ := Number.steps_of_beq rfl hzero
      rw [if_pos hs, ← hs, hx]
      exact .some (Number.beq_of_steps hnan rfl hsteps)
    · rw [if_neg hs]
      cases hv : a.value? c.id with
      | none => exact .none
      | some v => exact .some (Number.beq_of_steps (hnumbers c hc v hv) (hnumbers c hc v hv) rfl)

variable (hids : (candidates.map Candidate.id).Nodup)
include hids

theorem ids_rank_of_perm {mode : Mode} {roster : Roster}
    (h : ((chosen (a.ranked candidates objective) mode roster).map Ranked.unsigned).Perm
      ((chosen (b.ranked candidates objective) mode roster).map Ranked.unsigned)) :
    (rank candidates a objective mode roster).map Ranked.id =
      (rank candidates b objective mode roster).map Ranked.id := by
  -- neither the order by score nor the cut looks at a value
  have hvalues : ∀ team : List Ranked, (roster.cap (team.mergeSort fun x y => (x.byScore y).isLE)).map Ranked.id =
      (roster.cap ((team.map Ranked.unsigned).mergeSort fun x y => (x.byScore y).isLE)).map Ranked.id := by
    intro team
    rw [← List.map_mergeSort fun x _ y _ => show (x.byScore y).isLE = (x.unsigned.byScore y.unsigned).isLE from rfl,
      map_cap, map_cap, List.map_map]
    rfl
  have hnodup : (((chosen (a.ranked candidates objective) mode roster).map Ranked.unsigned).map Ranked.id).Nodup := by
    rw [List.map_map]
    exact nodup_map_of_subperm (subperm_chosen _ mode roster) (nodup_ids_ranked hids)
  have hsort := mergeSort_eq_of_perm hnodup h Ranked.pairwise_byScore fun x y => Ranked.id_eq_of_byScore
  unfold rank
  rw [hvalues (chosen (a.ranked candidates objective) mode roster), hsort, ← hvalues]

theorem mem_ids_rank_iff {size : Nat} {r : Ranked} (hr : r ∈ a.ranked candidates objective) :
    r.id ∈ (rank candidates a objective .fractional (.fixed size)).map Ranked.id ↔
      r ∈ ((a.ranked candidates objective).mergeSort fun x y => (x.byValue y).isLE).take size := by
  rw [((rank_fractional_fixed_perm size).map Ranked.id).mem_iff, List.mem_map]
  constructor
  · rintro ⟨s, hs, hid⟩
    have hmem := List.mem_mergeSort.1 (List.mem_of_mem_take hs)
    rwa [← List.inj_on_of_nodup_map (nodup_ids_ranked hids) hmem hr hid]
  · exact fun hmem => ⟨r, hmem, rfl⟩

/-- **Of two zeros on the two sides of a cut, a sign can send one to the other side.** -/
theorem exists_same_of_cut {size : Nat} {z w : Ranked}
    (hz : z ∈ ((a.ranked candidates objective).mergeSort fun x y => (x.byValue y).isLE).take size)
    (hw : w ∈ a.ranked candidates objective)
    (hout : w ∉ ((a.ranked candidates objective).mergeSort fun x y => (x.byValue y).isLE).take size)
    (hzero : (z.value == 0.0) = true) (hwzero : (w.value == 0.0) = true)
    (hnumbers : ∀ c ∈ candidates, ∀ x, a.value? c.id = some x → x.isNaN = false) :
    ∃ b, a.Same b candidates ∧ (rank candidates b objective .fractional (.fixed size)).map Ranked.id ≠
      (rank candidates a objective .fractional (.fixed size)).map Ranked.id := by
  have hzmem := List.mem_mergeSort.1 (List.mem_of_mem_take hz)
  obtain ⟨c, hc, x, hx, rfl⟩ := mem_ranked_iff.1 hzmem
  obtain ⟨d, hd, y, hy, rfl⟩ := mem_ranked_iff.1 hw
  have hne : d.id ≠ c.id := fun hid => hout (by
    rwa [← List.inj_on_of_nodup_map (nodup_ids_ranked hids) hzmem hw hid.symm])
  -- the zero that is kept is given a sign, and the sign of the other is taken off
  refine ⟨a.withZeros c.id d.id, same_withZeros hnumbers hx hzero hy hwzero, fun hids' => ?_⟩
  have hz' : c.entry objective (-0.0) ∈ (a.withZeros c.id d.id).ranked candidates objective :=
    mem_ranked_iff.2 ⟨c, hc, -0.0, by rw [value?_withZeros, if_neg hne, if_pos rfl], rfl⟩
  have hw' : d.entry objective 0.0 ∈ (a.withZeros c.id d.id).ranked candidates objective :=
    mem_ranked_iff.2 ⟨d, hd, 0.0, by rw [value?_withZeros, if_pos rfl], rfl⟩
  have hkept := (mem_ids_rank_iff hids hz').1 (hids' ▸ (mem_ids_rank_iff hids hzmem).2 hz)
  have hcut := fun hmem => hout ((mem_ids_rank_iff hids hw).1 (hids' ▸ (mem_ids_rank_iff hids hw').2 hmem))
  have hprecedes := precedes_of_not_mem_take (nodup_ids_ranked hids) hkept hw' hcut
  have hkey : key (-0.0) < key 0.0 := by decide +kernel
  rcases hprecedes with hlt | ⟨heq, -⟩
  · exact absurd (Int.lt_trans hkey hlt) (Int.lt_irrefl _)
  · exact Int.ne_of_lt hkey heq

/-- **Whether the ids of a team depend on the signs of zeros**: only where a fixed roster cuts among shares that are
zero. -/
theorem ranks_agree_iff (a : Assignment) (objective : Objective)
    (hnumbers : ∀ c ∈ candidates, ∀ x, a.value? c.id = some x → x.isNaN = false) (mode : Mode) (roster : Roster) :
    (∀ b, a.Same b candidates →
      (rank candidates b objective mode roster).map Ranked.id =
        (rank candidates a objective mode roster).map Ranked.id) ↔
    ∀ size, mode = .fractional → roster = .fixed size → SparesZeros size (a.ranked candidates objective) := by
  have hranked : ∀ r ∈ a.ranked candidates objective, r.value.isNaN = false := by
    intro r hr
    obtain ⟨c, hc, x, hx, rfl⟩ := mem_ranked_iff.1 hr
    exact hnumbers c hc x hx
  constructor
  · rintro hagree size rfl rfl
    by_contra hcut
    obtain ⟨z, hz, w, hw, hout, hzero, hwzero⟩ := exists_zeros_of_not_spares (nodup_ids_ranked hids) hranked hcut
    obtain ⟨b, hsame, hne⟩ := exists_same_of_cut hids hz hw hout hzero hwzero hnumbers
    exact hne (hagree b hsame)
  · intro hspares b hsame
    have hranked' : ∀ r ∈ b.ranked candidates objective, r.value.isNaN = false := by
      intro r hr
      obtain ⟨c, hc, y, hy, rfl⟩ := mem_ranked_iff.1 hr
      have hrel := hsame c hc
      rw [hy] at hrel
      generalize a.value? c.id = x at hrel
      cases hrel with
      | some heq => exact Number.notNaN_of_beq heq
    have hperm := perm_chosen_unsigned (nodup_ids_ranked hids) (ranked_unsigned hsame) hranked hranked' hspares
    exact (ids_rank_of_perm hids hperm).symm

end Assignments

/-- Of two candidates without a share, one of whom fills the team. -/
theorem ranks_agree_iff_of_zeros : ∃ (candidates : List Candidate) (a b : Assignment) (objective : Objective),
    a.ranked candidates objective = [⟨0, "Ada", 5.0, 0.0⟩, ⟨1, "Bob", 1.0, 0.0⟩] ∧ a.Same b candidates ∧
      (rank candidates b objective .binary (.fixed 1)).map Ranked.id =
        (rank candidates a objective .binary (.fixed 1)).map Ranked.id ∧
      (rank candidates b objective .fractional (.fixed 1)).map Ranked.id ≠
        (rank candidates a objective .fractional (.fixed 1)).map Ranked.id := by
  generalize hcandidates : ([⟨0, "Ada", .ofList [("a", 5.0)], .empty⟩, ⟨1, "Bob", .ofList [("a", 1.0)], .empty⟩] :
    List Candidate) = candidates
  generalize hvalues : (⟨.ofList [(0, 0.0), (1, 0.0)], 0.0⟩ : Assignment) = a
  generalize hobjective : (⟨[⟨"a", 1.0⟩]⟩ : Objective) = objective
  have hranked : a.ranked candidates objective = [⟨0, "Ada", 5.0, 0.0⟩, ⟨1, "Bob", 1.0, 0.0⟩] := by
    subst hcandidates hvalues hobjective
    decide +kernel
  have hids : (candidates.map Candidate.id).Nodup := by
    subst hcandidates
    decide
  have hnumbers : ∀ c ∈ candidates, ∀ x, a.value? c.id = some x → x.isNaN = false := by
    intro c hc x hx
    have hmem : c.entry objective x ∈ a.ranked candidates objective := mem_ranked_iff.2 ⟨c, hc, x, hx, rfl⟩
    rw [hranked] at hmem
    obtain rfl : x = 0.0 := by simpa [Candidate.entry] using List.mem_map_of_mem (f := Ranked.value) hmem
    rfl
  have hagree := ranks_agree_iff hids a objective hnumbers
  have hcut : ¬SparesZeros 1 (a.ranked candidates objective) := by
    rw [hranked]
    unfold SparesZeros
    decide +kernel
  obtain ⟨b, hsame, hne⟩ : ∃ b, a.Same b candidates ∧
      (rank candidates b objective .fractional (.fixed 1)).map Ranked.id ≠
        (rank candidates a objective .fractional (.fixed 1)).map Ranked.id := by
    by_contra hall
    push Not at hall
    exact hcut ((hagree .fractional (.fixed 1)).1 hall 1 rfl rfl)
  exact ⟨candidates, a, b, objective, hranked, hsame, (hagree .binary (.fixed 1)).2 nofun b hsame, hne⟩

end Lineup
