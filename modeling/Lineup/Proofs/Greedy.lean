import Lineup.Proofs.Checks
import Lineup.Proofs.Exchange
import Lineup.Proofs.Finite
import Lineup.Proofs.Number.Order
import Lineup.Proofs.Standing
/-!
# Greedy — without bounds the best team is the greedy one

Without bounds a program only says how many candidates the team has, or not even that.  Any member may then give way to
any other candidate, so those of the highest scores are chosen, and among equals the first; and without a fixed size
everyone whose score is above zero.
-/
namespace Lineup

open Number

/-! ## The order of candidates -/

namespace Candidate

/-- The candidate stands before another: by its score, the higher one first, or else by its id. -/
def before (objective : Objective) (a b : Candidate) : Bool :=
  exact (b.score objective) < exact (a.score objective) ||
    (exact (a.score objective) = exact (b.score objective) && a.id ≤ b.id)

variable {objective : Objective} {a b c : Candidate}

theorem before_iff : a.before objective b = true ↔ exact (b.score objective) < exact (a.score objective) ∨
    (exact (a.score objective) = exact (b.score objective) ∧ a.id ≤ b.id) := by
  unfold before
  rw [Bool.or_eq_true, Bool.and_eq_true, decide_eq_true_iff, decide_eq_true_iff, decide_eq_true_iff]

theorem before_trans (hab : a.before objective b = true) (hbc : b.before objective c = true) :
    a.before objective c = true := by
  rw [before_iff] at hab hbc ⊢
  rcases hab with hab | ⟨hab, hid⟩
  · rcases hbc with hbc | ⟨hbc, -⟩
    · exact Or.inl (hbc.trans hab)
    · exact Or.inl (hbc ▸ hab)
  · rcases hbc with hbc | ⟨hbc, hid'⟩
    · exact Or.inl (hab ▸ hbc)
    · exact Or.inr ⟨hab.trans hbc, hid.trans hid'⟩

theorem before_total (a b : Candidate) : (a.before objective b || b.before objective a) = true := by
  rw [Bool.or_eq_true, before_iff, before_iff]
  rcases lt_trichotomy (exact (a.score objective)) (exact (b.score objective)) with hlt | heq | hgt
  · exact Or.inr (Or.inl hlt)
  · rcases Nat.le_total a.id b.id with hid | hid
    · exact Or.inl (Or.inr ⟨heq, hid⟩)
    · exact Or.inr (Or.inr ⟨heq.symm, hid⟩)
  · exact Or.inl (Or.inl hgt)

theorem pairwise_before (objective : Objective) (candidates : List Candidate) :
    (candidates.mergeSort (before objective)).Pairwise fun a b => a.before objective b = true := by
  refine List.pairwise_mergeSort ?_ ?_ candidates
  · intro a b c
    exact before_trans
  · intro a b
    exact before_total a b

theorem score_ne_minusZero (objective : Objective) (c : Candidate) : c.score objective ≠ -0.0 := by
  rw [score_eq]
  exact foldl_add_ne_minusZero (fun k : Criterion => k.weight * c.value k.metric) _ zero_ne_minusZero

end Candidate

/-! ## The order of a team -/

theorem pairwise_team (p : Prepared) (values : List Float) :
    (p.team values).Pairwise fun x y => (x.byScore y).isLE = true :=
  (Ranked.pairwise_byScore _).sublist (cap_sublist p.setup.roster _)

theorem Candidate.before_iff_byScore {objective : Objective} {a b : Candidate} {x y : Float}
    (ha : (a.score objective).isFinite = true) (hb : (b.score objective).isFinite = true) :
    ((a.entry objective x).byScore (b.entry objective y)).isLE = true ↔ a.before objective b = true := by
  unfold Ranked.byScore
  change ((order (b.score objective) (a.score objective)).then (compare a.id b.id)).isLE = true ↔ _
  rw [before_iff, order_eq_compare (notNaN_of_isFinite hb) (notNaN_of_isFinite ha) (b.score_ne_minusZero objective)
    (a.score_ne_minusZero objective), Ordering.isLE_then_iff_or, Int.compare_eq_lt, Int.compare_eq_eq, Nat.isLE_compare,
    exact_lt_iff hb ha, exact_eq_iff ha hb, eq_comm]

/-- What holds for whoever stands before one for whom it holds, holds for the first of a list. -/
theorem filter_eq_take {α : Type} {chosen : α → Bool} : ∀ {xs : List α},
    (xs.Pairwise fun x y => chosen y = true → chosen x = true) → xs.filter chosen = xs.take (xs.countP chosen)
  | [], _ => rfl
  | x :: xs, h => by
    obtain ⟨hx, hxs⟩ := List.pairwise_cons.1 h
    by_cases hc : chosen x = true
    · rw [List.filter_cons_of_pos hc, List.countP_cons_of_pos hc, List.take_succ_cons, filter_eq_take hxs]
    · have hnone : ∀ y ∈ x :: xs, ¬ chosen y = true :=
        List.forall_mem_cons.2 ⟨hc, fun y hy hchosen => hc (hx y hy hchosen)⟩
      rw [List.filter_eq_nil_iff.2 hnone, List.countP_eq_zero.2 hnone, List.take_zero]

/-! ## The program without bounds -/

theorem Request.readBounds_of_blank {request : Request} (h : ∀ text ∈ request.bounds, Text.allBlank text = true)
    (catalog : Catalog) : request.readBounds catalog = .ok [] := by
  unfold readBounds
  cases hbounds : request.bounds with
  | none => rfl
  | some text => exact if_pos (h text hbounds)

theorem areInts_ones {count : Nat} (h : count < 2 ^ 53) :
    AreInts (List.replicate count 1.0) (List.replicate count 1) := by
  refine ⟨?_, by simpa using h⟩
  clear h
  induction count with
  | zero => exact .nil
  | succ count ih => exact .cons isInt_one ih

theorem Row.integral_teamSize {size count : Nat} (hle : size ≤ count) (h : count < 2 ^ 53) :
    (Row.teamSize size count).Integral := by
  refine ⟨⟨_, areInts_ones h⟩, size, isInt_ofNat (by omega), ?_⟩
  rw [Int.natAbs_natCast]
  omega

def Prepared.scoreOf (p : Prepared) (table : Table) (id : Nat) : Float :=
  dot p.objective.weights (table.numbersOf p.objective id)

namespace Prepared.Of

variable {p : Prepared} {setup : Setup} {table : Table} {request : Request} {catalog : Catalog}
  {candidates : List Candidate} {team : List Nat}

theorem scored (h : p.Of setup table request catalog [] candidates) (hcount : p.program.ids.length < 32)
    (hscores : ∃ ns, AreInts (p.screening.eligible.map (·.score p.objective)) ns) :
    p.program.Scored (p.scoreOf table) := by
  refine ⟨⟨?_, fun row hrow => ?_⟩, h.objective_eq_map, List.pairwise_lt_range.sublist h.sublist_ids⟩
  · rw [h.program_eq]
    exact hscores
  · rcases h.mem_rows.1 hrow with ⟨b, hb, -⟩ | ⟨size, hroster, rfl⟩
    · exact absurd hb List.not_mem_nil
    · have hsize := h.size_le hroster
      rw [h.length_ids] at hcount hsize
      exact Row.integral_teamSize hsize (by omega)

/-- **Without bounds the only question is how many candidates there are.** -/
theorem feasible_indicator_iff (h : p.Of setup table request catalog [] candidates) (hcount : p.program.ids.length < 32)
    (hnodup : team.Nodup) (hsubset : team ⊆ p.program.ids) :
    Engine.feasible p.program (p.program.indicator team) = true ↔
      ∀ size, p.setup.roster = .fixed size → team.length = size := by
  have hlength : team.length ≤ p.program.ids.length := (List.subperm_of_subset hnodup hsubset).length_le
  have hrow : ∀ size, p.setup.roster = .fixed size →
      ((Row.teamSize size p.screening.eligible.length).holds (p.program.indicator team)
        Engine.exhaustiveTolerance = true ↔ team.length = size) := by
    intro size hroster
    have hsize := h.size_le hroster
    change decide ((Row.activity _ _ - Float.ofNat size).abs ≤ Engine.exhaustiveTolerance) = true ↔ _
    rw [decide_eq_true_iff, h.activity_teamSize hnodup hsubset, Nat.min_eq_left (by omega),
      abs_sub_le_slight_iff (isInt_ofNat (by omega)) (isInt_ofNat (by omega)) isSlight_exhaustiveTolerance,
      Int.natCast_inj]
  unfold Engine.feasible
  rw [List.all_eq_true]
  constructor
  · intro hall size hroster
    exact (hrow size hroster).1 (hall _ (h.mem_rows.2 (Or.inr ⟨size, hroster, rfl⟩)))
  · intro hsize row hmem
    rcases h.mem_rows.1 hmem with ⟨b, hb, -⟩ | ⟨size, hroster, rfl⟩
    · exact absurd hb List.not_mem_nil
    · exact (hrow size hroster).2 (hsize size hroster)

theorem exists_feasible (h : p.Of setup table request catalog [] candidates) (hcount : p.program.ids.length < 32) :
    ∃ team : List Nat, Engine.feasible p.program (p.program.indicator team) = true := by
  cases hroster : p.setup.roster with
  | fixed size =>
    have hsize := h.size_le hroster
    refine ⟨p.program.ids.take size,
      (h.feasible_indicator_iff hcount ?_ (List.take_subset _ _)).2 fun size' hsize' => ?_⟩
    · exact h.nodup_ids.sublist (List.take_sublist _ _)
    · rw [hroster] at hsize'
      cases hsize'
      rw [List.length_take, Nat.min_eq_left hsize]
  | unbounded =>
    refine ⟨[], (h.feasible_indicator_iff hcount List.nodup_nil (List.nil_subset _)).2 fun size hsize => ?_⟩
    rw [hroster] at hsize
    cases hsize

/-! ## The team of a point -/

theorem ones_indicator (h : p.Of setup table request catalog [] candidates) (team : List Nat) :
    ((entries p.screening.eligible p.objective (p.program.indicator team)).filter fun r => r.value == 1.0) =
      (p.screening.eligible.filter fun c => c.id ∈ team).map (·.entry p.objective 1.0) := by
  unfold entries
  rw [Program.indicator_eq, h.ids, List.map_map, List.zipWith_map_right, List.zipWith_self, List.filter_map]
  refine (congrArg (List.map _) (List.filter_congr fun c _ => beq_one_ite (c.id ∈ team))).trans ?_
  refine List.map_congr_left fun c hc => ?_
  exact congrArg (c.entry p.objective) (if_pos (of_decide_eq_true (List.mem_filter.1 hc).2))

/-- **The team of a point, in order**: its members, as the candidates are ordered. -/
theorem team_indicator (h : p.Of setup table request catalog [] candidates) (hmode : p.setup.mode = .binary)
    (hscores : ∀ c ∈ p.screening.eligible, (c.score p.objective).isFinite = true) (hnodup : team.Nodup)
    (hsubset : team ⊆ p.program.ids) (hsize : ∀ size, p.setup.roster = .fixed size → team.length = size) :
    p.team (p.program.indicator team) =
      ((p.screening.eligible.mergeSort (Candidate.before p.objective)).filter fun c => c.id ∈ team).map
        (·.entry p.objective 1.0) := by
  have hlength : (p.program.indicator team).length = p.program.ids.length := by
    rw [Program.indicator_eq, List.length_map]
  have hperm := h.perm_team hmode hlength (p.program.all_isBit_indicator team) fun size hroster => by
    rw [Program.countP_indicator h.nodup_ids hnodup hsubset, hsize size hroster]
  rw [h.ones_indicator] at hperm
  have hsorted := (List.mergeSort_perm p.screening.eligible (Candidate.before p.objective)).filter fun c => c.id ∈ team
  refine List.Perm.eq_of_pairwise (fun x y hx hy hxy hyx => ?_) (pairwise_team p _) ?_
    (hperm.trans (hsorted.map _).symm)
  · -- no two candidates have one id
    obtain ⟨a, ha, rfl⟩ := List.mem_map.1 (hperm.mem_iff.1 hx)
    obtain ⟨b, hb, rfl⟩ := List.mem_map.1 hy
    have hids : (p.screening.eligible.map Candidate.id).Nodup := h.ids ▸ h.nodup_ids
    rw [Ranked.byScore_isLE_iff] at hxy hyx
    have hid : a.id = b.id := by
      change _ ∨ (_ ∧ a.id ≤ b.id) at hxy
      change _ ∨ (_ ∧ b.id ≤ a.id) at hyx
      omega
    rw [List.inj_on_of_nodup_map hids (List.mem_filter.1 ha).1 (List.mem_mergeSort.1 (List.mem_filter.1 hb).1) hid]
  · rw [List.pairwise_map]
    refine ((Candidate.pairwise_before p.objective p.screening.eligible).filter _).imp_of_mem fun {a b} ha hb hab => ?_
    have hmem : ∀ {c},
        c ∈ (p.screening.eligible.mergeSort (Candidate.before p.objective)).filter (fun c => c.id ∈ team) →
          (c.score p.objective).isFinite = true :=
      fun hc => hscores _ (List.mem_mergeSort.1 (List.mem_filter.1 hc).1)
    exact (Candidate.before_iff_byScore (hmem ha) (hmem hb)).2 hab

/-! ## The team of the optimum -/

section Optimum

variable (h : p.Of setup table request catalog [] candidates) (hcount : p.program.ids.length < 32)
  (hscored : p.program.Scored (p.scoreOf table)) (hoptimum : p.program.Optimum team)
include h hcount hscored hoptimum

/-- **With a fixed size, whoever stands before a member is a member.** -/
theorem mem_of_before {a b : Candidate} (ha : a ∈ p.screening.eligible) (hb : b ∈ p.screening.eligible)
    (hbefore : a.before p.objective b = true) (hmem : b.id ∈ team) : a.id ∈ team := by
  by_contra hout
  have hfeasible : Engine.feasible p.program (p.program.indicator (a.id :: team.erase b.id)) = true := by
    have haid : a.id ∈ p.program.ids := h.ids ▸ List.mem_map_of_mem ha
    refine (h.feasible_indicator_iff hcount ?_ ?_).2 fun size hsize => ?_
    · exact List.nodup_cons.2 ⟨fun hmem => hout (List.erase_subset hmem), hoptimum.nodup.erase _⟩
    · exact List.cons_subset.2 ⟨haid, fun id hid => hoptimum.subset (List.erase_subset hid)⟩
    · rw [← (h.feasible_indicator_iff hcount hoptimum.nodup hoptimum.subset).1 hoptimum.feasible size hsize,
        List.length_cons, List.length_erase_of_mem hmem]
      have := List.length_pos_of_mem hmem
      omega
  obtain ⟨hle, hfirst⟩ := hscored.exchange hoptimum hmem (h.ids ▸ List.mem_map_of_mem ha) hout hfeasible
  unfold Prepared.scoreOf at hle hfirst
  rw [← h.score_eq ha, ← h.score_eq hb] at hle hfirst
  rcases Candidate.before_iff.1 hbefore with hlt | ⟨heq, hid⟩
  · exact absurd hle (not_le.2 hlt)
  · exact absurd (hfirst heq) (Nat.not_lt_of_le hid)

theorem filter_eq_take_of_fixed {size : Nat} (hroster : p.setup.roster = .fixed size) :
    ((p.screening.eligible.mergeSort (Candidate.before p.objective)).filter fun c => c.id ∈ team) =
      (p.screening.eligible.mergeSort (Candidate.before p.objective)).take size := by
  have hlength :
      (p.screening.eligible.mergeSort (Candidate.before p.objective)).countP (fun c => c.id ∈ team) = size := by
    have hperm := perm_filter_mem h.nodup_ids hoptimum.nodup hoptimum.subset
    rw [h.ids, List.filter_map] at hperm
    have hteam := hperm.length_eq
    rw [List.length_map] at hteam
    rw [(List.mergeSort_perm _ _).countP_eq, List.countP_eq_length_filter,
      ← (h.feasible_indicator_iff hcount hoptimum.nodup hoptimum.subset).1 hoptimum.feasible size hroster]
    exact hteam
  rw [← hlength]
  refine filter_eq_take ((Candidate.pairwise_before p.objective _).imp_of_mem fun {a b} ha hb hab hmem => ?_)
  rw [decide_eq_true_iff] at hmem ⊢
  exact h.mem_of_before hcount hscored hoptimum (List.mem_mergeSort.1 ha) (List.mem_mergeSort.1 hb) hab hmem

theorem mem_iff_pos_of_unbounded (hroster : p.setup.roster = .unbounded) {c : Candidate}
    (hc : c ∈ p.screening.eligible) :
    c.id ∈ team ↔ 0 < exact (c.score p.objective) := by
  have hfeasible : ∀ others : List Nat, others.Nodup → others ⊆ p.program.ids →
      Engine.feasible p.program (p.program.indicator others) = true := fun others hnodup hsubset =>
    (h.feasible_indicator_iff hcount hnodup hsubset).2 fun size hsize => by
      rw [hroster] at hsize
      cases hsize
  have hid : c.id ∈ p.program.ids := h.ids ▸ List.mem_map_of_mem hc
  rw [h.score_eq hc]
  constructor
  · intro hmem
    exact hscored.pos_of_mem hoptimum hmem
      (hfeasible _ (hoptimum.nodup.erase _) fun id hid => hoptimum.subset (List.erase_subset hid))
  · intro hpos
    by_contra hout
    exact absurd (hscored.nonpos_of_not_mem hoptimum hid hout (hfeasible _ (List.nodup_cons.2 ⟨hout, hoptimum.nodup⟩)
      (List.cons_subset.2 ⟨hid, hoptimum.subset⟩))) (not_le.2 hpos)

end Optimum

/-- **Without bounds the search finds a team, and it is that of the optimum.** -/
theorem finish_exhaustive (h : p.Of setup table request catalog [] candidates) (hcount : p.program.ids.length < 32)
    (hscored : p.program.Scored (p.scoreOf table)) (hmode : p.setup.mode = .binary) :
    ∃ team, p.program.Optimum team ∧
      p.finish (Engine.exhaustive p.program) = .ok (p.report (p.program.indicator team)) := by
  have hbinary : p.program.mode = .binary := by
    rw [h.program_eq]
    exact hmode
  have hnan : ∀ mask, Engine.Meets p.program mask → (Engine.valueOf p.program mask).isNaN = false := fun mask _ =>
    notNaN_of_isFinite (Program.isFinite_objectiveValue hscored.integral (Engine.all_isBit_pointOf _ mask))
  have hbest := Engine.bestOf_bestBelow (2 ^ p.program.ids.length) fun mask _ => hnan mask
  cases hsearch : Engine.bestBelow p.program (2 ^ p.program.ids.length) with
  | none =>
    rw [hsearch] at hbest
    obtain ⟨team, hteam⟩ := h.exists_feasible hcount
    rw [Engine.indicator_eq_pointOf] at hteam
    exact absurd hteam (hbest _ (p.program.mask_lt team))
  | some found =>
    obtain ⟨value, values⟩ := found
    rw [hsearch] at hbest
    obtain ⟨hoptimum, -⟩ := h.optimum_team hmode (h.countable hcount) hnan hbest
    obtain ⟨mask, -, rfl, -, hmeets, -⟩ := hbest
    refine ⟨_, hoptimum, ?_⟩
    rw [h.indicator_team_pointOf hmode (h.countable hcount) hmeets, Engine.exhaustive_of_some hbinary hsearch]
    exact Prepared.finish_eq_ok.2 ⟨rfl, Engine.length_pointOf _ mask, Engine.all_isFinite_pointOf _ mask, rfl⟩

end Prepared.Of

/-- **Without bounds the exhaustive engine is greedy.**  In binary mode, for fewer than 32 candidates with whole scores
that add up without rounding, a selection always has a report.  A fixed roster lists the first candidates by score,
those of equal score by id; an unbounded one lists all whose score is above zero, in the same order. -/
theorem select_exhaustive_greedy {setup : Setup} {table : Table} {request : Request} {p : Prepared}
    (hp : prepare setup table request = .ok p)
    (hmode : (setup.override request.roster request.mode).mode = .binary)
    (hbounds : ∀ text ∈ request.bounds, Text.allBlank text = true) (hcount : p.screening.eligible.length < 32)
    (hscores : ∃ ns, AreInts (p.screening.eligible.map (·.score p.objective)) ns) :
    ∃ report, select Engine.exhaustive setup table request = .ok report ∧
      (∀ size, (setup.override request.roster request.mode).roster = .fixed size →
        report.team = ((p.screening.eligible.mergeSort (Candidate.before p.objective)).take size).map
          (·.entry p.objective 1.0)) ∧
      ((setup.override request.roster request.mode).roster = .unbounded →
        report.team = ((p.screening.eligible.mergeSort (Candidate.before p.objective)).filter
          fun c => 0 < exact (c.score p.objective)).map (·.entry p.objective 1.0)) := by
  obtain ⟨catalog, bounds, candidates, hof⟩ := prepare_eq_ok.1 hp
  obtain rfl : bounds = [] := by
    have hread := hof.bounds_eq
    rw [Request.readBounds_of_blank hbounds] at hread
    cases hread
    rfl
  rw [← hof.length_ids] at hcount
  rw [← hof.setup_eq] at hmode ⊢
  have hscored := hof.scored hcount hscores
  have hfinite : ∀ c ∈ p.screening.eligible, (c.score p.objective).isFinite = true := by
    obtain ⟨ns, hns⟩ := hscores
    exact fun c hc => isFinite_of_forall₂ hns.1 _ (List.mem_map_of_mem hc)
  obtain ⟨team, hoptimum, hfinish⟩ := hof.finish_exhaustive hcount hscored hmode
  have hteam := hof.team_indicator hmode hfinite hoptimum.nodup hoptimum.subset
    ((hof.feasible_indicator_iff hcount hoptimum.nodup hoptimum.subset).1 hoptimum.feasible)
  refine ⟨_, (select_of_prepare hp).trans hfinish, fun size hroster => ?_, fun hroster => ?_⟩
  · refine hteam.trans (congrArg (List.map _) ?_)
    exact hof.filter_eq_take_of_fixed hcount hscored hoptimum hroster
  · refine hteam.trans (congrArg (List.map _) (List.filter_congr fun c hc => decide_eq_decide.2 ?_))
    exact hof.mem_iff_pos_of_unbounded hcount hscored hoptimum hroster (List.mem_mergeSort.1 hc)

/-- Of two candidates of one score the first has the only place; without a size, those above zero are in. -/
theorem select_exhaustive_greedy_of_ties : ∃ one all,
    select Engine.exhaustive ⟨.fixed 1, .binary⟩
        ⟨[⟨"name", .text⟩, ⟨"a", .numeric⟩], [[some "Ada", some "2"], [some "Bob", some "2"], [some "Cid", some "0"]]⟩
        ⟨"a=1", some " ", none, none⟩ = .ok one ∧
      select Engine.exhaustive ⟨.unbounded, .binary⟩
        ⟨[⟨"name", .text⟩, ⟨"a", .numeric⟩], [[some "Ada", some "2"], [some "Bob", some "2"], [some "Cid", some "0"]]⟩
        ⟨"a=1", some " ", none, none⟩ = .ok all ∧
      one.team.map Ranked.id = [0] ∧ all.team.map Ranked.id = [0, 1] := by
  generalize htable : (⟨[⟨"name", .text⟩, ⟨"a", .numeric⟩],
    [[some "Ada", some "2"], [some "Bob", some "2"], [some "Cid", some "0"]]⟩ : Table) = table
  generalize hrequest : (⟨"a=1", some " ", none, none⟩ : Request) = request
  have hbounds : ∀ text ∈ request.bounds, Text.allBlank text = true := by
    subst hrequest
    intro text htext
    cases htext
    decide
  have hsetup : ∀ roster, Setup.override ⟨roster, .binary⟩ request.roster request.mode = ⟨roster, .binary⟩ := by
    subst hrequest
    exact fun roster => rfl
  -- the records are in the order of the team already
  have hprepare : ∀ roster ∈ [Roster.fixed 1, Roster.unbounded], ∃ p, prepare ⟨roster, .binary⟩ table request = .ok p ∧
      p.screening.eligible.length < 32 ∧ AreInts (p.screening.eligible.map (·.score p.objective)) [2, 2, 0] ∧
      (p.screening.eligible.Pairwise fun a b => a.before p.objective b = true) ∧
      (p.screening.eligible.take 1).map Candidate.id = [0] ∧
      (p.screening.eligible.filter fun c => 0 < exact (c.score p.objective)).map Candidate.id = [0, 1] := by
    subst htable hrequest
    intro roster hroster
    refine exists_ok_of_decide ?_
    revert roster
    decide +kernel
  obtain ⟨p, hp, hcount, hscores, hsorted, hfirst, -⟩ := hprepare (.fixed 1) (by decide)
  obtain ⟨q, hq, hcount', hscores', hsorted', -, hpositive⟩ := hprepare .unbounded (by decide)
  obtain ⟨one, hone, hteam, -⟩ :=
    select_exhaustive_greedy hp (by rw [hsetup]) hbounds hcount ⟨_, hscores⟩
  obtain ⟨all, hall, -, hteam'⟩ :=
    select_exhaustive_greedy hq (by rw [hsetup]) hbounds hcount' ⟨_, hscores'⟩
  rw [hsetup] at hteam hteam'
  refine ⟨one, all, hone, hall, ?_, ?_⟩
  · rw [hteam 1 rfl, List.mergeSort_of_pairwise hsorted, List.map_map]
    exact hfirst
  · rw [hteam' rfl, List.mergeSort_of_pairwise hsorted', List.map_map]
    exact hpositive

end Lineup
