import Lineup.Linear.Search
import Lineup.Proofs.Linear.Bound
/-!
# Search — the search misses no point of zeros and ones

A branch is given up when some row cannot be met any more or when nothing in it beats the best point so far.  Both are
right: the room of the open coordinates is enough for every completion that meets the rows, and the ceiling falls, as
coordinates are decided, to what the multipliers say of the finished point.  So the search ends with the best of all
points (`searchWhole_exact`), and `solve` tells the truth unless it says that it cannot tell (`solve_exact`).
-/
namespace Lineup.Linear

def bit (chosen : Bool) : Rat := if chosen then 1 else 0

namespace Branch

/-- The branch after the open coordinates are decided, one by one. -/
def completed (b : Branch) : List Open → List Bool → Branch
  | o :: os, z :: zs => (b.decided o z).completed os zs
  | _, _ => b

def Meets (senses : List Sense) (b : Branch) (os : List Open) (zs : List Bool) : Prop :=
  zs.length = os.length ∧ allReachable senses (b.completed os zs).rest ((b.completed os zs).rest.map fun _ => 0)
    ((b.completed os zs).rest.map fun _ => 0) = true

def Ceiled (senses : List Sense) (b : Branch) (os : List Open) : Prop :=
  ∀ zs, b.Meets senses os zs → (b.completed os zs).value ≤ (b.completed os zs).ceiling

variable {senses : List Sense} {b : Branch} {o : Open} {os : List Open} {z : Bool} {zs : List Bool}

theorem meets_nil : b.Meets senses [] zs ↔
    zs = [] ∧ allReachable senses b.rest (b.rest.map fun _ => 0) (b.rest.map fun _ => 0) = true := by
  unfold Meets completed
  rw [List.length_nil, List.length_eq_zero_iff]

theorem meets_cons : b.Meets senses (o :: os) zs ↔ ∃ z zs', zs = z :: zs' ∧ (b.decided o z).Meets senses os zs' := by
  unfold Meets
  constructor
  · rintro ⟨hlength, hmet⟩
    obtain ⟨z, zs', rfl⟩ := List.exists_cons_of_length_eq_add_one hlength
    exact ⟨z, zs', rfl, Nat.succ.inj hlength, hmet⟩
  · rintro ⟨z, zs', rfl, hlength, hmet⟩
    exact ⟨congrArg Nat.succ hlength, hmet⟩

theorem Ceiled.decided (h : b.Ceiled senses (o :: os)) (z : Bool) : (b.decided o z).Ceiled senses os :=
  fun zs hmeets => h (z :: zs) (meets_cons.2 ⟨z, zs, rfl, hmeets⟩)

theorem ceiling_decided_le (b : Branch) (o : Open) (z : Bool) : (b.decided o z).ceiling ≤ b.ceiling := by
  cases z
  · change (if 0 ≤ o.reduced then b.ceiling - o.reduced else b.ceiling) ≤ b.ceiling
    split_ifs <;> linarith
  · change (if 0 ≤ o.reduced then b.ceiling else b.ceiling + o.reduced) ≤ b.ceiling
    split_ifs <;> linarith

theorem ceiling_completed_le : ∀ (b : Branch) (os : List Open) (zs : List Bool),
    (b.completed os zs).ceiling ≤ b.ceiling
  | _, [], _ => le_refl _
  | _, _ :: _, [] => le_refl _
  | b, o :: os, z :: zs => (ceiling_completed_le (b.decided o z) os zs).trans (ceiling_decided_le b o z)

end Branch

/-! ## The best point so far -/

theorem hopeless_mono {best : Best} {v v' : Rat} (hle : v ≤ v') (h : hopeless best v' = true) :
    hopeless best v = true := by
  cases best with
  | none => cases h
  | some found => exact decide_eq_true (hle.trans (of_decide_eq_true h))

theorem hopeless_of_better {best : Best} {value v : Rat} {point : List Bool} (h : hopeless best value = false)
    (hv : hopeless best v = true) : hopeless (some (value, point)) v = true := by
  cases best with
  | none => cases hv
  | some found =>
    have hlt := not_le.1 (of_decide_eq_false h)
    exact decide_eq_true ((of_decide_eq_true hv).trans hlt.le)

/-! ## The search -/

/-- The room of each open coordinate is enough for every completion. -/
def Roomy (senses : List Sense) : List Open → Prop
  | [] => True
  | o :: os => Roomy senses os ∧
      ∀ (b : Branch) (zs : List Bool), b.Meets senses (o :: os) zs → allReachable senses b.rest o.least o.most = true

/-- **What a search comes to**: what was the best before, or a completion; and at least as much as all of them. -/
structure Searched (senses : List Sense) (os : List Open) (b : Branch) (path : List Bool) (best found : Best) :
    Prop where
  source : found = best ∨
    ∃ zs, b.Meets senses os zs ∧ found = some ((b.completed os zs).value, path.reverse ++ zs)
  keeps : ∀ v, hopeless best v = true → hopeless found v = true
  covers : ∀ zs, b.Meets senses os zs → hopeless found (b.completed os zs).value = true

section Search

variable {senses : List Sense} {b : Branch} {o : Open} {os : List Open} {path : List Bool} {best : Best}

theorem Searched.pruned (h : ∀ zs, b.Meets senses os zs → hopeless best (b.completed os zs).value = true) :
    Searched senses os b path best best := ⟨Or.inl rfl, fun _ hv => hv, h⟩

theorem searched_nil : Searched senses [] b path best (searchFrom senses [] b path best) := by
  unfold searchFrom
  dsimp only
  split_ifs with hbetter
  · rw [Bool.and_eq_true, Bool.not_eq_true'] at hbetter
    refine ⟨Or.inr ⟨[], Branch.meets_nil.2 ⟨rfl, hbetter.1⟩, ?_⟩, fun v hv => hopeless_of_better hbetter.2 hv, ?_⟩
    · rw [List.append_nil]
      rfl
    · intro zs hmeets
      rw [(Branch.meets_nil.1 hmeets).1]
      exact decide_eq_true (le_refl b.value)
  · refine .pruned fun zs hmeets => ?_
    obtain ⟨rfl, hmet⟩ := Branch.meets_nil.1 hmeets
    rw [hmet, Bool.true_and, Bool.not_eq_true', Bool.not_eq_false] at hbetter
    exact hbetter

theorem Searched.both {after found : Best} {z : Bool} (h : Searched senses os (b.decided o z) (z :: path) best after)
    (h' : Searched senses os (b.decided o !z) ((!z) :: path) after found) :
    Searched senses (o :: os) b path best found := by
  have hpath : ∀ (z : Bool) (zs : List Bool), (z :: path).reverse ++ zs = path.reverse ++ z :: zs := fun z zs => by
    rw [List.reverse_cons, List.append_assoc, List.singleton_append]
  have hchoice : ∀ {c : Bool} {zs : List Bool},
      (b.decided o c).Meets senses os zs → b.Meets senses (o :: os) (c :: zs) :=
    fun hmeets => Branch.meets_cons.2 ⟨_, _, rfl, hmeets⟩
  refine ⟨?_, fun v hv => h'.keeps v (h.keeps v hv), fun zs hmeets => ?_⟩
  -- the second search starts from what the first one found, so a completion may come from either
  · rcases h'.source with rfl | ⟨zs, hmeets, rfl⟩
    · refine h.source.imp_right ?_
      rintro ⟨zs, hmeets, rfl⟩
      exact ⟨z :: zs, hchoice hmeets, by rw [hpath]; rfl⟩
    · exact Or.inr ⟨(!z) :: zs, hchoice hmeets, by rw [hpath]; rfl⟩
  · obtain ⟨c, zs, rfl, hlater⟩ := Branch.meets_cons.1 hmeets
    by_cases hc : c = z
    · subst hc
      exact h'.keeps _ (h.covers zs hlater)
    · obtain rfl := Bool.eq_not_of_ne hc
      exact h'.covers zs hlater

/-- **The search finds the best of what was best before and all completions**, as long as room and ceiling are right. -/
theorem searched_searchFrom : ∀ (os : List Open) (b : Branch) (path : List Bool) (best : Best), Roomy senses os →
    b.Ceiled senses os → Searched senses os b path best (searchFrom senses os b path best)
  | [], b, path, best, _, _ => searched_nil
  | o :: os, b, path, best, hroomy, hceiled => by
    unfold searchFrom
    split_ifs with hgive
    -- a completion that meets the rows leaves the ceiling as the only reason to give up
    · refine .pruned fun zs hmeets => ?_
      rw [hroomy.2 b zs hmeets, Bool.not_true, Bool.false_or] at hgive
      exact hopeless_mono ((hceiled zs hmeets).trans (b.ceiling_completed_le _ zs)) hgive
    · exact (searched_searchFrom os _ _ _ hroomy.1 (hceiled.decided o.first)).both
        (searched_searchFrom os _ _ _ hroomy.1 (hceiled.decided !o.first))

end Search

/-! ## Room -/

theorem reachable_decided {sense : Sense} {rest a least most : Rat}
    (h : reachable sense (rest - a) least most = true ∨ reachable sense rest least most = true) :
    reachable sense rest (if 0 ≤ a then least else a + least) (if 0 ≤ a then a + most else most) = true := by
  unfold reachable at h ⊢
  cases sense <;> simp only [Bool.and_eq_true, decide_eq_true_iff] at h ⊢
  · split_ifs <;> rcases h with h | h <;> linarith
  · split_ifs <;> rcases h with h | h <;> linarith
  · split_ifs <;> rcases h with h | h <;> constructor <;> linarith [h.1, h.2]

theorem allReachable_decided : ∀ {senses : List Sense} {rest column least most : List Rat},
    allReachable senses (rest.zipWith (· - ·) column) least most = true ∨ allReachable senses rest least most = true →
    allReachable senses rest (column.zipWith (fun a l => if 0 ≤ a then l else a + l) least)
      (column.zipWith (fun a m => if 0 ≤ a then a + m else m) most) = true
  | [], _, _, _, _, _ => by simp [allReachable]
  | _ :: _, [], _, _, _, _ => by simp [allReachable]
  | _ :: _, _ :: _, [], _, _, _ => by simp [allReachable]
  | _ :: _, _ :: _, _ :: _, [], _, _ => by simp [allReachable]
  | _ :: _, _ :: _, _ :: _, _ :: _, [], _ => by simp [allReachable]
  | s :: senses, r :: rest, a :: column, l :: least, m :: most, h => by
    simp only [List.zipWith_cons_cons, allReachable, Bool.and_eq_true] at h ⊢
    exact ⟨reachable_decided (h.imp And.left And.left), allReachable_decided (h.imp And.right And.right)⟩

theorem allReachable_zeros : ∀ {senses : List Sense} {rest : List Rat} (column : List Rat),
    allReachable senses rest (rest.map fun _ => 0) (rest.map fun _ => 0) = true →
    allReachable senses rest (column.map fun _ => 0) (column.map fun _ => 0) = true
  | [], _, _, _ => by simp [allReachable]
  | _ :: _, [], _, _ => by simp [allReachable]
  | _ :: _, _ :: _, [], _ => by simp [allReachable]
  | s :: senses, r :: rest, _ :: column, h => by
    simp only [List.map_cons, allReachable, Bool.and_eq_true] at h ⊢
    exact ⟨h.1, allReachable_zeros column h.2⟩

namespace Problem

variable {p : Problem} {guess reduced : List Rat}

theorem opened_eq (p : Problem) (guess reduced : List Rat) (j : Nat) (later : List Open) :
    ∃ o : Open, p.opened guess reduced j later = o :: later ∧ o.gain = p.objective.getD j 0 ∧
      o.reduced = reduced.getD j 0 ∧ o.column = p.column j := by
  cases later <;> exact ⟨_, rfl, rfl, rfl, rfl⟩

theorem roomy_opened {senses : List Sense} {later : List Open} (h : Roomy senses later) (j : Nat) :
    Roomy senses (p.opened guess reduced j later) := by
  have hrest : ∀ (b : Branch) (o : Open) (z : Bool) {least most : List Rat},
      allReachable senses (b.decided o z).rest least most = true →
        allReachable senses (b.rest.zipWith (· - ·) o.column) least most = true ∨
          allReachable senses b.rest least most = true := by
    intro b o z least most hreach
    cases z
    · exact Or.inr hreach
    · exact Or.inl hreach
  cases later with
  | nil =>
    refine ⟨trivial, fun b zs hmeets => ?_⟩
    obtain ⟨z, zs, rfl, hlater⟩ := Branch.meets_cons.1 hmeets
    obtain ⟨-, hmet⟩ := Branch.meets_nil.1 hlater
    exact allReachable_decided (hrest b _ z (allReachable_zeros (p.column j) hmet))
  | cons o later =>
    refine ⟨h, fun b zs hmeets => ?_⟩
    obtain ⟨z, zs, rfl, hlater⟩ := Branch.meets_cons.1 hmeets
    exact allReachable_decided (hrest b _ z (h.2 _ zs hlater))

theorem roomy_foldr (senses : List Sense) : ∀ js : List Nat, Roomy senses (js.foldr (p.opened guess reduced) [])
  | [] => trivial
  | j :: js => roomy_opened (roomy_foldr senses js) j

theorem length_foldr : ∀ js : List Nat, (js.foldr (p.opened guess reduced) []).length = js.length
  | [] => rfl
  | j :: js => by
    obtain ⟨o, hopened, -⟩ := p.opened_eq guess reduced j (js.foldr (p.opened guess reduced) [])
    rw [List.foldr_cons, hopened, List.length_cons, length_foldr js, List.length_cons]

/-! ## The finished point -/

def root (p : Problem) (multipliers : List Rat) : Branch :=
  ⟨p.rows.map Constraint.threshold, 0, p.bound p.objective multipliers⟩

/-- **What a branch comes to when all is decided**: the rows lack what the choices do not add, the value is what they
gain, and the ceiling what they leave of it. -/
theorem completed_foldr : ∀ (js : List Nat) (b : Branch) (lacks : Constraint → Rat) (zs : List Bool),
    b.rest = p.rows.map lacks → zs.length = js.length →
    b.completed (js.foldr (p.opened guess reduced) []) zs =
      ⟨p.rows.map fun row => lacks row - dot (js.map (row.coefficients.getD · 0)) (zs.map bit),
        b.value + dot (js.map (p.objective.getD · 0)) (zs.map bit),
        b.ceiling - positiveSum (js.map (reduced.getD · 0)) + dot (js.map (reduced.getD · 0)) (zs.map bit)⟩
  | [], b, lacks, zs, hrest, hlength => by
    obtain rfl := List.length_eq_zero_iff.1 hlength
    unfold Branch.completed
    simp [dot, positiveSum, ← hrest]
  | j :: js, b, lacks, [], _, hlength => by cases hlength
  | j :: js, b, lacks, z :: zs, hrest, hlength => by
    -- a decision changes what the rows lack, which is why `lacks` is any function of them
    obtain ⟨o, hopened, hgain, hreduced, hcolumn⟩ := p.opened_eq guess reduced j (js.foldr (p.opened guess reduced) [])
    have hdecided : (b.decided o z).rest = p.rows.map fun row => lacks row - bit z * row.coefficients.getD j 0 := by
      cases z
      · change b.rest = _
        simp [hrest, bit]
      · change b.rest.zipWith (· - ·) o.column = _
        simp [hrest, hcolumn, column, bit, List.zipWith_map, List.zipWith_self]
    rw [List.foldr_cons, hopened, Branch.completed,
      completed_foldr js _ _ zs hdecided (Nat.succ.inj hlength)]
    simp only [List.map_cons, dot, positiveSum, List.foldr_cons]
    refine Branch.mk.injEq .. |>.mpr ⟨?_, ?_, ?_⟩
    · refine List.map_congr_left fun row _ => ?_
      ring
    · cases z
      · simp [Branch.decided, bit]
      · simp [Branch.decided, bit, hgain, add_assoc]
    · cases z <;> simp only [Branch.decided, bit, hreduced] <;> split_ifs <;> simp <;> ring

theorem map_getD_range (l : List Rat) {n : Nat} (h : l.length = n) : (List.range n).map (l.getD · 0) = l := by
  subst h
  exact List.ext_getElem (by simp) fun k _ hk => by simp [hk]

theorem allReachable_map (rows : List Constraint) (lacks : Constraint → Rat) :
    allReachable (rows.map Constraint.sense) (rows.map lacks) ((rows.map lacks).map fun _ => 0)
      ((rows.map lacks).map fun _ => 0) = rows.all fun row => reachable row.sense (lacks row) 0 0 := by
  induction rows with
  | nil => rfl
  | cons row rows ih =>
    simp only [List.map_cons, List.all_cons, allReachable]
    rw [ih]

theorem reachable_iff_holds (row : Constraint) (x : List Rat) :
    reachable row.sense (row.threshold - dot row.coefficients x) 0 0 = row.holds x := by
  unfold reachable Constraint.holds
  cases row.sense <;> rw [Bool.eq_iff_iff]
  · simp
  · simp
  · rw [Bool.and_eq_true, decide_eq_true_iff, decide_eq_true_iff, decide_eq_true_iff, sub_nonneg, sub_nonpos]
    exact le_antisymm_iff.symm

theorem all_allowed_bit (zs : List Bool) : (zs.map bit).all (allowed .binary) = true := by
  rw [List.all_map, List.all_eq_true]
  rintro z -
  cases z <;> decide

theorem exists_map_bit {x : List Rat} (h : x.all (allowed .binary) = true) : ∃ zs : List Bool, x = zs.map bit := by
  refine ⟨x.map fun v => decide (v = 1), ?_⟩
  rw [List.map_map]
  refine (List.map_id x).symm.trans (List.map_congr_left fun v hv => ?_)
  rcases allowed_iff_of_binary.1 (List.all_eq_true.1 h v hv) with rfl | rfl <;> rfl

section Root

variable (h : p.Sized) (guess multipliers : List Rat)
include h

theorem completed_root {zs : List Bool} (hlength : zs.length = p.size) :
    (p.root multipliers).completed (p.opens guess (p.reduced p.objective multipliers)) zs =
      ⟨p.rows.map fun row => row.threshold - dot row.coefficients (zs.map bit), p.value (zs.map bit),
        p.thresholdSum multipliers + dot (p.reduced p.objective multipliers) (zs.map bit)⟩ := by
  have hreduced := map_getD_range _ (length_reduced h h.objective multipliers)
  unfold opens
  rw [completed_foldr (List.range p.size) _ Constraint.threshold zs rfl (hlength.trans List.length_range.symm),
    map_getD_range _ h.objective, hreduced]
  refine Branch.mk.injEq .. |>.mpr ⟨?_, zero_add _, ?_⟩
  · refine List.map_congr_left fun row hrow => ?_
    rw [map_getD_range _ (h.coefficients row hrow)]
  · change p.thresholdSum multipliers + _ - _ + _ = _
    ring

/-- **The completions of the first branch are the feasible points of zeros and ones.** -/
theorem meets_root_iff {zs : List Bool} :
    (p.root multipliers).Meets (p.rows.map Constraint.sense) (p.opens guess (p.reduced p.objective multipliers)) zs ↔
      p.feasible .binary (zs.map bit) = true := by
  have hopens : (p.opens guess (p.reduced p.objective multipliers)).length = p.size :=
    (length_foldr _).trans List.length_range
  unfold Branch.Meets
  rw [feasible_iff, hopens, List.length_map]
  refine and_congr_right fun hlength => ?_
  rw [completed_root h guess multipliers hlength, allReachable_map, and_iff_right (all_allowed_bit zs)]
  simp only [reachable_iff_holds]

end Root

def bestFound (p : Problem) (guess multipliers : List Rat) : Best :=
  searchFrom (p.rows.map Constraint.sense) (p.opens guess (p.reduced p.objective multipliers)) (p.root multipliers)
    [] none

theorem searchWhole_of_none {guess multipliers : List Rat} (h : p.bestFound guess multipliers = none) :
    p.searchWhole guess multipliers = .infeasible := by
  unfold bestFound root at h
  unfold searchWhole
  dsimp only
  rw [h]

theorem searchWhole_of_some {guess multipliers : List Rat} {value : Rat} {point : List Bool}
    (h : p.bestFound guess multipliers = some (value, point)) :
    p.searchWhole guess multipliers = .optimal (point.map bit) := by
  unfold bestFound root at h
  unfold searchWhole
  dsimp only
  rw [h]
  rfl

/-- **The search tells the truth**, whatever the guess and the multipliers are that guide it. -/
theorem searchWhole_exact (h : p.Sized) (guess multipliers : List Rat) :
    (p.searchWhole guess multipliers).Exact .binary p := by
  have hceiled : (p.root multipliers).Ceiled (p.rows.map Constraint.sense)
      (p.opens guess (p.reduced p.objective multipliers)) := by
    intro zs hmeets
    obtain ⟨hlength, -, hrows⟩ := feasible_iff.1 ((meets_root_iff h guess multipliers).1 hmeets)
    rw [List.length_map] at hlength
    rw [completed_root h guess multipliers hlength]
    exact dot_le_reduced h hrows h.objective multipliers
  have hsearched : Searched (p.rows.map Constraint.sense) (p.opens guess (p.reduced p.objective multipliers))
      (p.root multipliers) [] none (p.bestFound guess multipliers) :=
    searched_searchFrom _ _ [] none (roomy_foldr _ (List.range p.size)) hceiled
  cases hfound : p.bestFound guess multipliers with
  | none =>
    rw [hfound] at hsearched
    rw [searchWhole_of_none hfound]
    refine fun y => Bool.eq_false_iff.2 fun hy => ?_
    obtain ⟨zs, rfl⟩ := exists_map_bit (feasible_iff.1 hy).2.1
    cases hsearched.covers zs ((meets_root_iff h guess multipliers).2 hy)
  | some best =>
    rw [hfound] at hsearched
    obtain ⟨zs, hmeets, heq⟩ := hsearched.source.resolve_left nofun
    rw [Option.some_inj] at heq
    subst heq
    rw [searchWhole_of_some hfound]
    have hfeasible := (meets_root_iff h guess multipliers).1 hmeets
    refine ⟨hfeasible, fun y hy => ?_⟩
    obtain ⟨zs', rfl⟩ := exists_map_bit (feasible_iff.1 hy).2.1
    have hle := of_decide_eq_true (hsearched.covers zs' ((meets_root_iff h guess multipliers).2 hy))
    rw [completed_root h guess multipliers (by simpa using (feasible_iff.1 hy).1),
      completed_root h guess multipliers (by simpa using (feasible_iff.1 hfeasible).1)] at hle
    exact hle

end Problem

theorem solve_binary_exact {p : Problem} (h : p.Sized) : (solve .binary p).Exact .binary p := by
  unfold solve
  cases hrelax : p.relax with
  | optimal x multipliers => exact Problem.searchWhole_exact h x multipliers
  | infeasible => exact (Problem.relax_exact h).2 hrelax .binary
  | unknown => exact Problem.searchWhole_exact h _ _

example : solve .binary ⟨3, [5, 3, 4], [⟨[1, 0, 2], .atMost, 1⟩, ⟨[1, 1, 1], .equal, 2⟩]⟩ = .optimal [1, 1, 0] := by
  decide +kernel

/-- **What the solver says is true**, for shares as for zeros and ones, unless it says that it could not tell. -/
theorem solve_exact {mode : Mode} {p : Problem} (h : p.Sized) (hdecided : solve mode p ≠ .undecided) :
    (solve mode p).Exact mode p := by
  cases mode with
  | binary => exact solve_binary_exact h
  | fractional =>
    unfold solve at hdecided ⊢
    cases hrelax : p.relax with
    | optimal x multipliers => exact (Problem.relax_exact h).1 x multipliers hrelax
    | infeasible => exact (Problem.relax_exact h).2 hrelax .fractional
    | unknown =>
      rw [hrelax] at hdecided
      exact absurd rfl hdecided

end Lineup.Linear
