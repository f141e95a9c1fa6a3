import Lineup.Engine.Exhaustive
import Lineup.Proofs.Whole
/-!
# Optimum — the exhaustive engine finds the first of the best teams

The search goes through the masks from 0 on and keeps the first point of the greatest value among those that meet all
rows.  `Engine.BestOf` is what it knows after some of the masks: it is kept from one mask to the next, so after all of
them it speaks of every team.
-/
namespace Lineup

/-! ## Teams, masks and points -/

namespace Program

def mask (p : Program) (ids : List Nat) : Nat := Nat.ofBits fun k : Fin p.ids.length => decide (p.ids[k] ∈ ids)

def chosenBy (p : Program) (mask : Nat) : List Nat :=
  (List.range p.ids.length).filterMap fun k => if mask.testBit k then p.ids[k]? else none

theorem mask_lt (p : Program) (ids : List Nat) : p.mask ids < 2 ^ p.ids.length := Nat.ofBits_lt_two_pow _

theorem mem_chosenBy {p : Program} {mask id : Nat} :
    id ∈ p.chosenBy mask ↔ ∃ k, mask.testBit k = true ∧ p.ids[k]? = some id := by
  unfold chosenBy
  rw [List.mem_filterMap]
  constructor
  · rintro ⟨k, -, h⟩
    split at h
    · rename_i hbit
      exact ⟨k, hbit, h⟩
    · cases h
  · rintro ⟨k, hbit, h⟩
    exact ⟨k, List.mem_range.2 (List.getElem?_eq_some_iff.1 h).1, by rw [if_pos hbit, h]⟩

theorem chosenBy_subset (p : Program) (mask : Nat) : p.chosenBy mask ⊆ p.ids := fun _ h =>
  have ⟨_, _, hid⟩ := mem_chosenBy.1 h
  List.mem_of_getElem? hid

end Program

namespace Engine

theorem length_pointOf (count mask : Nat) : (pointOf count mask).length = count := by
  unfold pointOf
  rw [List.length_map, List.length_range]

theorem getElem?_pointOf {count k : Nat} (h : k < count) (mask : Nat) :
    (pointOf count mask)[k]? = some (if mask.testBit k then 1.0 else 0.0) := by
  unfold pointOf
  rw [List.getElem?_map, List.getElem?_range h, Option.map_some]

theorem all_isBit_pointOf (count mask : Nat) : (pointOf count mask).all Number.isBit = true := by
  unfold pointOf
  rw [List.all_map, List.all_eq_true]
  exact fun k _ => Number.isBit_ite (mask.testBit k)

theorem all_isFinite_pointOf (count mask : Nat) : (pointOf count mask).all Float.isFinite = true :=
  List.all_eq_true.2 fun x hx =>
    (Number.steps_of_isBit (List.all_eq_true.1 (all_isBit_pointOf count mask) x hx)).1

theorem map_bit_pointOf (count mask : Nat) : (pointOf count mask).map Number.bit = pointOf count mask := by
  unfold pointOf
  rw [List.map_map]
  exact List.map_congr_left fun k _ => Number.bit_ite (mask.testBit k)

theorem beq_one_pointOf {count k mask : Nat} {x : Float} (h : (pointOf count mask)[k]? = some x) :
    (x == 1.0) = mask.testBit k := by
  have hk : k < count := by
    have := (List.getElem?_eq_some_iff.1 h).1
    rwa [length_pointOf] at this
  rw [getElem?_pointOf hk] at h
  cases h
  rw [Number.beq_one_ite, Bool.decide_eq_true]

theorem indicator_eq_pointOf (p : Program) (ids : List Nat) :
    p.indicator ids = pointOf p.ids.length (p.mask ids) := by
  rw [Program.indicator_eq]
  refine List.ext_getElem? fun k => ?_
  by_cases hk : k < p.ids.length
  · rw [getElem?_pointOf hk, List.getElem?_map, List.getElem?_eq_getElem hk, Option.map_some]
    unfold Program.mask
    rw [Nat.testBit_ofBits_lt _ k hk]
    simp only [decide_eq_true_eq, Fin.getElem_fin]
  · rw [List.getElem?_eq_none (by rw [List.length_map]; omega), List.getElem?_eq_none (by rw [length_pointOf]; omega)]

theorem indicator_chosenBy {p : Program} (hnodup : p.ids.Nodup) (mask : Nat) :
    p.indicator (p.chosenBy mask) = pointOf p.ids.length mask := by
  refine (Program.indicator_of_ones (length_pointOf _ mask) fun k id x hid hx => ?_).trans (map_bit_pointOf _ mask)
  rw [Program.mem_chosenBy, beq_one_pointOf hx]
  constructor
  · rintro ⟨k', hbit, hid'⟩
    rwa [(List.getElem?_inj (List.getElem?_eq_some_iff.1 hid).1 hnodup).1 (hid.trans hid'.symm)]
  · exact fun hbit => ⟨k, hbit, hid⟩

theorem pointOf_injective {count mask mask' : Nat} (h : mask < 2 ^ count) (h' : mask' < 2 ^ count)
    (heq : pointOf count mask = pointOf count mask') : mask = mask' := by
  refine Nat.eq_of_testBit_eq fun k => ?_
  by_cases hk : k < count
  · have hget := getElem?_pointOf hk mask
    exact (beq_one_pointOf hget).symm.trans (beq_one_pointOf (heq ▸ hget))
  · have hpow : 2 ^ count ≤ 2 ^ k := Nat.pow_le_pow_right (by decide) (by omega)
    rw [Nat.testBit_lt_two_pow (Nat.lt_of_lt_of_le h hpow), Nat.testBit_lt_two_pow (Nat.lt_of_lt_of_le h' hpow)]

/-! ## The search -/

def Meets (p : Program) (mask : Nat) : Prop := feasible p (pointOf p.ids.length mask) = true

def valueOf (p : Program) (mask : Nat) : Float := p.objectiveValue (pointOf p.ids.length mask)

/-- What the search knows after the masks below `count`: that none of them meets the rows, or the first among those of
the greatest value that do. -/
def BestOf (p : Program) (count : Nat) : Option (Float × List Float) → Prop
  | none => ∀ mask < count, ¬ Meets p mask
  | some (value, values) => ∃ mask < count, values = pointOf p.ids.length mask ∧ value = valueOf p mask ∧ Meets p mask ∧
      (∀ other < count, Meets p other → ¬ value < valueOf p other) ∧
      ∀ other < mask, Meets p other → valueOf p other < value

section Step

variable {p : Program} {count : Nat} {best : Option (Float × List Float)}

theorem better_of_not_meets (h : ¬ Meets p count) : better p best count = best := by
  unfold better
  dsimp only
  rw [show feasible p (pointOf p.ids.length count) = false from Bool.eq_false_iff.2 h]
  rfl

theorem better_none (h : Meets p count) :
    better p none count = some (valueOf p count, pointOf p.ids.length count) := by
  unfold better
  dsimp only
  rw [show feasible p (pointOf p.ids.length count) = true from h]
  rfl

theorem better_some (h : Meets p count) (value : Float) (values : List Float) :
    better p (some (value, values)) count =
      if value < valueOf p count then some (valueOf p count, pointOf p.ids.length count) else some (value, values) := by
  unfold better
  dsimp only
  rw [show feasible p (pointOf p.ids.length count) = true from h]
  rfl

theorem BestOf.keep (h : BestOf p count best)
    (hcount : Meets p count → ∃ found, best = some found ∧ ¬ found.1 < valueOf p count) :
    BestOf p (count + 1) best := by
  cases best with
  | none =>
    refine Nat.forall_lt_succ_right.2 ⟨h, fun hmeets => ?_⟩
    obtain ⟨found, hfound, -⟩ := hcount hmeets
    cases hfound
  | some found =>
    obtain ⟨mask, hmask, hvalues, hvalue, hmeets, hbest, hfirst⟩ := h
    refine ⟨mask, Nat.lt_succ_of_lt hmask, hvalues, hvalue, hmeets, Nat.forall_lt_succ_right.2 ⟨hbest, fun hm => ?_⟩,
      hfirst⟩
    obtain ⟨_, ⟨⟩, hle⟩ := hcount hm
    exact hle

theorem BestOf.take (hmeets : Meets p count) (hnan : ∀ mask < count + 1, Meets p mask → (valueOf p mask).isNaN = false)
    (hall : ∀ mask < count, Meets p mask → valueOf p mask < valueOf p count) :
    BestOf p (count + 1) (some (valueOf p count, pointOf p.ids.length count)) := by
  have hcount := hnan count (Nat.lt_succ_self count) hmeets
  refine ⟨count, Nat.lt_succ_self count, rfl, rfl, hmeets,
    Nat.forall_lt_succ_right.2 ⟨fun mask hmask hm => ?_, fun _ => ?_⟩, hall⟩
  · exact Number.lt_asymm hcount (hnan mask (Nat.lt_succ_of_lt hmask) hm) (hall mask hmask hm)
  · exact Number.lt_irrefl hcount

/-- **One more mask keeps what the search knows**, unless a value is no number. -/
theorem bestOf_better (hnan : ∀ mask < count + 1, Meets p mask → (valueOf p mask).isNaN = false)
    (h : BestOf p count best) : BestOf p (count + 1) (better p best count) := by
  by_cases hmeets : Meets p count
  · have hcount := hnan count (Nat.lt_succ_self count) hmeets
    cases best with
    | none =>
      rw [better_none hmeets]
      exact BestOf.take hmeets hnan fun mask hmask hm => absurd hm (h mask hmask)
    | some found =>
      obtain ⟨value, values⟩ := found
      rw [better_some hmeets]
      by_cases hlt : value < valueOf p count
      · -- the new point is better than the best, and so than all
        rw [if_pos hlt]
        obtain ⟨mask, hmask, -, rfl, hm, hbest, -⟩ := h
        refine BestOf.take hmeets hnan fun other hother hmo => ?_
        exact Number.lt_of_not_lt_of_lt (hnan mask (Nat.lt_succ_of_lt hmask) hm)
          (hnan other (Nat.lt_succ_of_lt hother) hmo) hcount (hbest other hother hmo) hlt
      · rw [if_neg hlt]
        exact h.keep fun _ => ⟨_, rfl, hlt⟩
  · rw [better_of_not_meets hmeets]
    exact h.keep fun hm => absurd hm hmeets

end Step

theorem bestOf_bestBelow {p : Program} : ∀ (count : Nat),
    (∀ mask < count, Meets p mask → (valueOf p mask).isNaN = false) → BestOf p count (bestBelow p count)
  | 0, _ => fun mask hmask => absurd hmask (Nat.not_lt_zero mask)
  | count + 1, hnan => by
    have ih := bestOf_bestBelow count fun mask hmask => hnan mask (Nat.lt_succ_of_lt hmask)
    unfold bestBelow at ih ⊢
    rw [Nat.fold_succ]
    exact bestOf_better hnan ih

/-! ## The answer -/

section Answers

variable {p : Program} (h : p.mode = .binary)
include h

theorem exhaustive_of_none (hsearch : bestBelow p (2 ^ p.ids.length) = none) :
    exhaustive p = .failed .infeasible none := by
  unfold exhaustive
  rw [h, show Nat.pow 2 _ = 2 ^ _ from rfl, hsearch]

theorem exhaustive_of_some {value : Float} {values : List Float}
    (hsearch : bestBelow p (2 ^ p.ids.length) = some (value, values)) : exhaustive p = .optimal values := by
  unfold exhaustive
  rw [h, show Nat.pow 2 _ = 2 ^ _ from rfl, hsearch]

end Answers

end Engine

/-! ## The team of the optimum -/

/-- The ids are the first of the best teams of a program: candidates who meet all rows, of whom no other such team has a
greater value, and none of equal value a lower mask. -/
structure Program.Optimum (p : Program) (ids : List Nat) : Prop where
  nodup : ids.Nodup
  subset : ids ⊆ p.ids
  feasible : Engine.feasible p (p.indicator ids) = true
  best : ∀ others ⊆ p.ids, Engine.feasible p (p.indicator others) = true →
    ¬ p.objectiveValue (p.indicator ids) < p.objectiveValue (p.indicator others)
  first : ∀ others ⊆ p.ids, Engine.feasible p (p.indicator others) = true →
    (p.objectiveValue (p.indicator others) == p.objectiveValue (p.indicator ids)) = true → p.mask ids ≤ p.mask others

namespace Prepared.Of

open Engine

variable {p : Prepared} {setup : Setup} {table : Table} {request : Request} {catalog : Catalog} {bounds : List Bound}
  {candidates : List Candidate}

/-- **The team of a point that meets the rows**: the candidates whose bits are set, none added and none cut. -/
theorem team_pointOf (h : p.Of setup table request catalog bounds candidates) (hmode : p.setup.mode = .binary)
    (hroster : p.setup.roster.Countable table.records.length) {mask : Nat}
    (hmeets : Meets p.program mask) :
    ((p.team (pointOf p.program.ids.length mask)).map Ranked.id).Nodup ∧
      (∀ id, id ∈ (p.team (pointOf p.program.ids.length mask)).map Ranked.id ↔ id ∈ p.program.chosenBy mask) ∧
      ∀ size, p.setup.roster = .fixed size → (p.team (pointOf p.program.ids.length mask)).length = size := by
  have hlength := length_pointOf p.program.ids.length mask
  have hbits := all_isBit_pointOf p.program.ids.length mask
  have hrows := List.all_eq_true.1 hmeets
  have hcount := fun size (hsize : p.setup.roster = .fixed size) =>
    h.count_ones hsize hroster hlength hbits (t := exhaustiveTolerance) (by decide) hrows
  have hperm := h.perm_team hmode hlength hbits fun size hsize => Nat.le_of_eq (hcount size hsize)
  refine ⟨(h.subperm_team hlength).2, fun id => ?_, fun size hsize => ?_⟩
  · rw [(hperm.map Ranked.id).mem_iff, h.mem_ids_ones id, Program.mem_chosenBy]
    constructor
    · rintro ⟨k, x, hid, hx, hone⟩
      exact ⟨k, (beq_one_pointOf hx).symm.trans hone, hid⟩
    · rintro ⟨k, hbit, hid⟩
      have hx := getElem?_pointOf (List.getElem?_eq_some_iff.1 hid).1 mask
      exact ⟨k, _, hid, hx, (beq_one_pointOf hx).trans hbit⟩
  · exact hperm.length_eq.trans ((length_ones (hlength.trans h.length_ids)).trans (hcount size hsize))

theorem indicator_team_pointOf (h : p.Of setup table request catalog bounds candidates)
    (hmode : p.setup.mode = .binary) (hroster : p.setup.roster.Countable table.records.length) {mask : Nat}
    (hmeets : Meets p.program mask) :
    p.program.indicator ((p.team (pointOf p.program.ids.length mask)).map Ranked.id) =
      pointOf p.program.ids.length mask := by
  obtain ⟨-, hteam, -⟩ := h.team_pointOf hmode hroster hmeets
  refine Eq.trans ?_ (indicator_chosenBy h.nodup_ids mask)
  rw [Program.indicator_eq, Program.indicator_eq]
  exact List.map_congr_left fun id _ => if_congr (hteam id) rfl rfl

theorem countable (h : p.Of setup table request catalog bounds candidates) (hcount : p.program.ids.length < 32) :
    p.setup.roster.Countable table.records.length := by
  cases hroster : p.setup.roster with
  | unbounded => trivial
  | fixed size =>
    have hsize := h.size_le hroster
    exact Or.inr ⟨by omega, by omega⟩

theorem notNaN_valueOf (h : p.Of setup table request catalog bounds candidates)
    (hnan : ∀ ids ⊆ p.program.ids, feasible p.program (p.program.indicator ids) = true →
      (p.program.objectiveValue (p.program.indicator ids)).isNaN = false) (mask : Nat) (hmeets : Meets p.program mask) :
    (valueOf p.program mask).isNaN = false := by
  have hpoint := indicator_chosenBy h.nodup_ids mask
  have hnumber := hnan _ (p.program.chosenBy_subset mask)
  rw [hpoint] at hnumber
  exact hnumber hmeets

/-- **What the search holds on to in the end makes the team of the optimum.** -/
theorem optimum_team (h : p.Of setup table request catalog bounds candidates) (hmode : p.setup.mode = .binary)
    (hroster : p.setup.roster.Countable table.records.length)
    (hnan : ∀ mask, Meets p.program mask → (valueOf p.program mask).isNaN = false) {value : Float} {values : List Float}
    (hbest : BestOf p.program (2 ^ p.program.ids.length) (some (value, values))) :
    p.program.Optimum ((p.team values).map Ranked.id) ∧
      ∀ size, p.setup.roster = .fixed size → (p.team values).length = size := by
  obtain ⟨mask, hmask, rfl, rfl, hmeets, hgreatest, hfirst⟩ := hbest
  obtain ⟨hnodup, hteam, hsize⟩ := h.team_pointOf hmode hroster hmeets
  have hpoint := h.indicator_team_pointOf hmode hroster hmeets
  have hown : p.program.mask ((p.team (pointOf p.program.ids.length mask)).map Ranked.id) = mask := by
    rw [indicator_eq_pointOf] at hpoint
    exact pointOf_injective (p.program.mask_lt _) hmask hpoint
  have hsubset := fun id hid => p.program.chosenBy_subset mask ((hteam id).1 hid)
  refine ⟨⟨hnodup, hsubset, by rw [hpoint]; exact hmeets, ?_, ?_⟩, hsize⟩
  · intro others _ hothers
    rw [indicator_eq_pointOf] at hothers
    rw [hpoint, indicator_eq_pointOf p.program others]
    exact hgreatest _ (p.program.mask_lt others) hothers
  · intro others _ hothers hequal
    rw [indicator_eq_pointOf] at hothers
    rw [hpoint, indicator_eq_pointOf p.program others] at hequal
    rw [hown]
    -- a lower mask would have a lower value
    by_contra hlower
    have hlt := hfirst _ (Nat.lt_of_not_le hlower) hothers
    rw [Number.lt_iff (hnan _ hothers) (hnan _ hmeets)] at hlt
    have hsame := (Number.steps_of_beq (hnan _ hmeets) hequal).2
    unfold valueOf at hlt hsame
    omega

end Prepared.Of

/-- **The exhaustive engine selects the first of the best teams.**  In binary mode, for programs small enough for the
masks of the engine and without a team whose value is no number: a report lists the team of the optimum, and fills a
fixed roster; a failure of the engine says that no team meets all rows; and there is nothing else that a selection can
come to. -/
theorem select_exhaustive_optimum {setup : Setup} {table : Table} {request : Request} {p : Prepared}
    (hp : prepare setup table request = .ok p)
    (hmode : (setup.override request.roster request.mode).mode = .binary) (hcount : p.program.ids.length < 32)
    (hnan : ∀ ids ⊆ p.program.ids, Engine.feasible p.program (p.program.indicator ids) = true →
      (p.program.objectiveValue (p.program.indicator ids)).isNaN = false) :
    (∀ report, select Engine.exhaustive setup table request = .ok report →
      p.program.Optimum (report.team.map Ranked.id) ∧
        ∀ size, (setup.override request.roster request.mode).roster = .fixed size → report.team.length = size) ∧
    (∀ failure, select Engine.exhaustive setup table request = .error (.solve failure) →
      failure.status = .infeasible ∧
        ∀ ids ⊆ p.program.ids, Engine.feasible p.program (p.program.indicator ids) = false) ∧
    ((∃ report, select Engine.exhaustive setup table request = .ok report) ∨
      ∃ failure, select Engine.exhaustive setup table request = .error (.solve failure)) := by
  obtain ⟨catalog, bounds, candidates, hof⟩ := prepare_eq_ok.1 hp
  rw [← hof.setup_eq] at hmode ⊢
  rw [select_of_prepare hp]
  have hnumber := hof.notNaN_valueOf hnan
  have hbest := Engine.bestOf_bestBelow (2 ^ p.program.ids.length) fun mask _ => hnumber mask
  have hbinary : p.program.mode = .binary := by
    rw [hof.program_eq]
    exact hmode
  cases hsearch : Engine.bestBelow p.program (2 ^ p.program.ids.length) with
  | none =>
    have hfinish : p.finish (Engine.exhaustive p.program) = .error (.solve ⟨.infeasible, none⟩) := by
      rw [Engine.exhaustive_of_none hbinary hsearch]
      rfl
    rw [hsearch] at hbest
    rw [hfinish]
    refine ⟨nofun, fun failure h => ?_, Or.inr ⟨_, rfl⟩⟩
    cases h
    refine ⟨rfl, fun ids _ => ?_⟩
    rw [Engine.indicator_eq_pointOf]
    exact Bool.eq_false_iff.2 (hbest _ (p.program.mask_lt ids))
  | some found =>
    obtain ⟨value, values⟩ := found
    rw [hsearch] at hbest
    have hfinish : p.finish (Engine.exhaustive p.program) = .ok (p.report values) := by
      obtain ⟨mask, -, rfl, -⟩ := hbest
      rw [Engine.exhaustive_of_some hbinary hsearch]
      exact Prepared.finish_eq_ok.2 ⟨rfl, Engine.length_pointOf _ mask, Engine.all_isFinite_pointOf _ mask, rfl⟩
    rw [hfinish]
    refine ⟨fun report h => ?_, nofun, Or.inl ⟨_, rfl⟩⟩
    cases h
    exact hof.optimum_team hmode (hof.countable hcount) hnumber hbest

/-- Of three candidates and one place, under a bound that the best of them breaks. -/
theorem select_exhaustive_optimum_of_three : ∃ p report,
    prepare .standard
        ⟨[⟨"name", .text⟩, ⟨"a", .numeric⟩], [[some "Ada", some "3"], [some "Bob", some "1"], [some "Cid", some "2"]]⟩
        ⟨"a=1", some "a<=2", some (.fixed 1), none⟩ = .ok p ∧
      select Engine.exhaustive .standard
        ⟨[⟨"name", .text⟩, ⟨"a", .numeric⟩], [[some "Ada", some "3"], [some "Bob", some "1"], [some "Cid", some "2"]]⟩
        ⟨"a=1", some "a<=2", some (.fixed 1), none⟩ = .ok report ∧
      p.program.Optimum (report.team.map Ranked.id) ∧ report.team.length = 1 := by
  generalize htable : (⟨[⟨"name", .text⟩, ⟨"a", .numeric⟩],
    [[some "Ada", some "3"], [some "Bob", some "1"], [some "Cid", some "2"]]⟩ : Table) = table
  generalize hrequest : (⟨"a=1", some "a<=2", some (.fixed 1), none⟩ : Request) = request
  have hnumbers : ((prepare .standard table request).toOption.all fun p => p.program.ids.length == 3 &&
      (List.range 8).all fun mask => !(p.program.objectiveValue (Engine.pointOf 3 mask)).isNaN) = true := by
    subst htable hrequest
    decide +kernel
  obtain ⟨report, h⟩ : ∃ report, select Engine.exhaustive .standard table request = .ok report :=
    exists_eq_ok (by subst htable hrequest; decide +kernel)
  obtain ⟨p, hp, -⟩ := select_eq_ok.1 h
  rw [hp] at hnumbers
  obtain ⟨hthree, hall⟩ := Bool.and_eq_true_iff.1 hnumbers
  rw [beq_iff_eq] at hthree
  have hroster : (Setup.standard.override request.roster request.mode).roster = .fixed 1 := by
    subst hrequest
    rfl
  obtain ⟨hsuccess, -, -⟩ := select_exhaustive_optimum hp (by subst hrequest; rfl) (by omega) fun ids _ _ => by
    have hmask := p.program.mask_lt ids
    rw [Engine.indicator_eq_pointOf, hthree]
    rw [hthree] at hmask
    exact Bool.not_eq_eq_eq_not.1 (List.all_eq_true.1 hall _ (List.mem_range.2 hmask))
  obtain ⟨hoptimum, hfull⟩ := hsuccess report h
  exact ⟨p, report, hp, h, hoptimum, hfull 1 hroster⟩

end Lineup
