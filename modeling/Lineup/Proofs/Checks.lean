import Lineup.Proofs.Labels
import Lineup.Proofs.Number.Zeros
import Lineup.Proofs.Prepared
import Lineup.Proofs.Rows
import Lineup.Proofs.Team
/-!
# Checks — what a report says of the rows of its program

A report evaluates each row at the point that chooses the team, over all variables.  The zeros of that point leave no
trace in a sum, so the check of a bound is the sum of the metric over the members of the team, and the check of a fixed
roster is their number.
-/
namespace Lineup

open Number (isBit steps unitSteps)

/-! ## The size of a team -/

/-- **A roster fills the team in fractional mode, and caps it in either mode.** -/
theorem length_rank {candidates : List Candidate} {a : Assignment} {objective : Objective} {mode : Mode} {size : Nat} :
    (rank candidates a objective mode (.fixed size)).length ≤ size ∧
      (mode = .fractional → size ≤ (a.ranked candidates objective).length →
        (rank candidates a objective mode (.fixed size)).length = size) := by
  unfold rank Roster.cap
  refine ⟨List.length_take_le _ _, ?_⟩
  rintro rfl hroom
  unfold chosen
  simp only [List.length_take, List.length_mergeSort]
  omega

/-! ## Points of teams -/

theorem filter_eq_of_sublist {α : Type} [DecidableEq α] {xs ys : List α} (hsub : xs.Sublist ys) (hys : ys.Nodup)
    {chosen : α → Bool} (h : ∀ y ∈ ys, chosen y = true → y ∈ xs) : xs.filter chosen = ys.filter chosen := by
  refine (hsub.filter chosen).eq_of_length (List.Perm.length_eq ?_)
  refine (List.perm_ext_iff_of_nodup ((hys.sublist hsub).filter _) (hys.filter _)).2 fun y => ?_
  simp only [List.mem_filter]
  constructor
  · rintro ⟨hy, hc⟩
    exact ⟨hsub.subset hy, hc⟩
  · rintro ⟨hy, hc⟩
    exact ⟨h y hy hc, hc⟩

def Report.members (r : Report) (records : Nat) : List Nat :=
  (List.range records).filter fun id => id ∈ r.team.map Ranked.id

theorem Program.all_isBit_indicator (p : Program) (ids : List Nat) : (p.indicator ids).all isBit = true := by
  rw [Program.indicator_eq, List.all_map, List.all_eq_true]
  exact fun id _ => Number.isBit_ite (id ∈ ids)

theorem Program.countP_indicator {p : Program} (hnodup : p.ids.Nodup) {ids : List Nat} (hids : ids.Nodup)
    (hsubset : ids ⊆ p.ids) : (p.indicator ids).countP (· == 1.0) = ids.length := by
  rw [Program.indicator_eq, List.countP_map, List.countP_congr (q := fun id => decide (id ∈ ids)) fun id _ => by
    rw [Function.comp_apply, Number.beq_one_ite (id ∈ ids)], List.countP_eq_length_filter]
  refine ((List.perm_ext_iff_of_nodup (hnodup.filter _) hids).2 fun id => ?_).length_eq
  simp only [List.mem_filter, decide_eq_true_eq]
  exact ⟨fun h => h.2, fun h => ⟨hsubset h, h⟩⟩

namespace Prepared.Of

variable {p : Prepared} {setup : Setup} {table : Table} {request : Request} {catalog : Catalog} {bounds : List Bound}
  {candidates : List Candidate} {values : List Float}

theorem length_team (h : p.Of setup table request catalog bounds candidates)
    (hlength : values.length = p.program.ids.length) {size : Nat} (hroster : p.setup.roster = .fixed size) :
    (p.team values).length ≤ size ∧ (p.setup.mode = .fractional → (p.team values).length = size) := by
  unfold team
  rw [hroster]
  refine ⟨length_rank.1, fun hmode => length_rank.2 hmode ?_⟩
  rw [h.ranked_eq hlength, ← List.length_map (f := Ranked.id), ids_entries (hlength.trans h.length_ids),
    List.length_map, ← h.length_ids]
  exact h.size_le hroster

theorem ids_team_subset (h : p.Of setup table request catalog bounds candidates)
    (hlength : values.length = p.program.ids.length) : (p.team values).map Ranked.id ⊆ p.program.ids := by
  have hsub := List.map_subset Ranked.id (h.subperm_team hlength).1.subset
  rwa [ids_entries (hlength.trans h.length_ids), ← h.ids] at hsub

theorem sublist_ids (h : p.Of setup table request catalog bounds candidates) :
    p.program.ids.Sublist (List.range table.records.length) := by
  rw [h.ids, h.screening_eq, ← Table.ids_candidates h.candidates_eq]
  exact List.filter_sublist.map _

theorem members_eq (h : p.Of setup table request catalog bounds candidates) {ids : List Nat}
    (hids : ids ⊆ p.program.ids) :
    ((List.range table.records.length).filter fun id => id ∈ ids) =
      (p.screening.eligible.filter fun c => c.id ∈ ids).map Candidate.id := by
  rw [← filter_eq_of_sublist h.sublist_ids List.nodup_range fun id _ hid => hids (of_decide_eq_true hid), h.ids,
    List.filter_map]
  rfl

theorem map_numberOf?_members (h : p.Of setup table request catalog bounds candidates) {ids : List Nat}
    (hids : ids ⊆ p.program.ids) {metric : String} (hm : metric ∈ p.objective.metrics ++ bounds.map Bound.metric) :
    ((List.range table.records.length).filter fun id => id ∈ ids).map (fun id => table.numberOf? id metric) =
      ((p.screening.eligible.filter fun c => c.id ∈ ids).map fun c => c.value metric).map some := by
  rw [h.members_eq hids, List.map_map, List.map_map]
  exact List.map_congr_left fun c hc => h.numberOf?_eq (List.mem_filter.1 hc).1 hm

/-- **The check of a bound adds up the metric over the team.** -/
theorem activity_bound (h : p.Of setup table request catalog bounds candidates) {b : Bound} (hb : b ∈ bounds)
    (ordinal : Nat) (ids : List Nat) :
    (b.rowOver ordinal p.screening.eligible).activity (p.program.indicator ids) =
      ((p.screening.eligible.filter fun c => c.id ∈ ids).map fun c => c.value b.metric).foldl (· + ·) 0.0 := by
  have hselect := Number.dot_select (fun c : Candidate => c.value b.metric) (fun c => decide (c.id ∈ ids))
    p.screening.eligible fun c hc => h.isFinite_value hc (List.mem_append_right _ (List.mem_map_of_mem hb))
  simp only [decide_eq_true_eq] at hselect
  rw [Program.indicator_eq, h.ids, List.map_map]
  exact hselect

theorem activity_teamSize (h : p.Of setup table request catalog bounds candidates) {ids : List Nat} (hnodup : ids.Nodup)
    (hids : ids ⊆ p.program.ids) (size : Nat) :
    (Row.teamSize size p.screening.eligible.length).activity (p.program.indicator ids) =
      Float.ofNat (min ids.length (2 ^ 53)) := by
  have hlength : (p.program.indicator ids).length = p.screening.eligible.length := by
    rw [Program.indicator_eq, List.length_map, h.length_ids]
  rw [← Program.countP_indicator h.nodup_ids hnodup hids, ← Number.sum_bits (p.program.all_isBit_indicator ids),
    ← dot_ones, hlength]
  rfl

end Prepared.Of

theorem sub_self_near {x t : Float} (hx : x.isFinite = true) (ht : 0.0 ≤ t) : (x - x).abs ≤ t := by
  obtain ⟨hnan, hsub⟩ := Number.steps_sub hx hx
  rw [Int.sub_self, Number.settle_zero] at hsub
  have ht' := Number.steps_le_of_le ht
  rw [Number.le_iff (by rw [Number.isNaN_abs]; exact hnan) (Number.notNaN_of_le ht).2, Number.steps_abs, hsub]
  rw [Number.steps_zero] at ht'
  exact ht'

theorem Sense.holds_teamSize {count size : Nat} (hcount : count ≤ 2 ^ 53) (hsize : size ≤ 2 ^ 53) :
    Sense.equal.holds (Float.ofNat count) (Float.ofNat size) selectionTolerance = true ↔ count = size := by
  have hfin : (Float.ofNat count).isFinite = true := Number.isFinite_ofNat (by omega)
  constructor
  · intro h
    have hsteps : steps (Float.ofNat count) = (min count (2 ^ 53) * unitSteps : Nat) := by
      rw [Nat.min_eq_left hcount, ← Number.settle_whole hcount]
      exact (Number.steps_ofNat count).2
    exact Number.eq_of_near hfin hsteps (Or.inl ⟨hcount, hsize⟩) steps_selectionTolerance_lt (of_decide_eq_true h)
  · rintro rfl
    exact decide_eq_true (sub_self_near hfin (by decide))

namespace Prepared.Of

variable {p : Prepared} {setup : Setup} {table : Table} {request : Request} {catalog : Catalog} {bounds : List Bound}
  {candidates : List Candidate} {size : Nat}

theorem satisfied_teamSize (h : p.Of setup table request catalog bounds candidates) {ids : List Nat}
    (hnodup : ids.Nodup) (hids : ids ⊆ p.program.ids) (hle : ids.length ≤ size) (hsize : size ≤ 2 ^ 53) :
    ((Row.teamSize size p.screening.eligible.length).check (p.program.indicator ids)).satisfied = true ↔
      ids.length = size := by
  change Sense.equal.holds ((Row.teamSize size _).activity _) (Float.ofNat size) selectionTolerance = true ↔ _
  rw [h.activity_teamSize hnodup hids size, Nat.min_eq_left (hle.trans hsize)]
  exact Sense.holds_teamSize (hle.trans hsize) hsize

theorem rows_eq_of_fixed (h : p.Of setup table request catalog bounds candidates)
    (hroster : p.setup.roster = .fixed size) :
    p.program.rows = (bounds.zipIdx.map fun (b, ordinal) => b.rowOver ordinal p.screening.eligible) ++
      [Row.teamSize size p.screening.eligible.length] := by
  rw [h.rows_eq, hroster, Roster.rows]

theorem rows_eq_of_unbounded (h : p.Of setup table request catalog bounds candidates)
    (hroster : p.setup.roster = .unbounded) :
    p.program.rows = bounds.zipIdx.map fun (b, ordinal) => b.rowOver ordinal p.screening.eligible := by
  rw [h.rows_eq, hroster, Roster.rows, List.append_nil]

end Prepared.Of

/-- **The checks of a report tell the truth about its team.**  A fixed roster is filled in fractional mode and never
exceeded.  There is one check for each row of the program, in order: that of a bound has achieved the sum of the metric
over the records of the team, from 0 in the order of the table; that of a fixed roster comes last, has achieved the
number of members, as far as ones add up in doubles, and is satisfied when the team is full; and there is none without
one. -/
theorem checks_tell_team {engine : Engine} {setup : Setup} {table : Table} {request : Request} {report : Report}
    (h : select engine setup table request = .ok report) :
    ∃ p catalog bounds, prepare setup table request = .ok p ∧ table.catalog = .ok catalog ∧
      request.readBounds catalog = .ok bounds ∧
      (∀ size, (setup.override request.roster request.mode).roster = .fixed size → report.team.length ≤ size ∧
        ((setup.override request.roster request.mode).mode = .fractional → report.team.length = size)) ∧
      report.checks.map (fun c => (c.label, c.sense, c.threshold)) =
        p.program.rows.map (fun row => (row.label, row.sense, row.rhs)) ∧
      (∀ c ∈ report.checks, c.satisfied = c.sense.holds c.achieved c.threshold selectionTolerance) ∧
      (∀ (k : Nat) (b : Bound), bounds[k]? = some b → ∃ (check : Check) (cells : List Float),
        report.checks[k]? = some check ∧ check.sense = b.sense ∧ check.threshold = b.threshold ∧
        (report.members table.records.length).map (fun id => table.numberOf? id b.metric) = cells.map some ∧
        check.achieved = cells.foldl (· + ·) 0.0) ∧
      (∀ size, (setup.override request.roster request.mode).roster = .fixed size →
        report.checks.length = bounds.length + 1 ∧ ∃ check, report.checks.getLast? = some check ∧
          check.label = Row.teamSizeLabel ∧ check.achieved = Float.ofNat (min report.team.length (2 ^ 53)) ∧
          (size ≤ 2 ^ 53 → (check.satisfied = true ↔ report.team.length = size))) ∧
      ((setup.override request.roster request.mode).roster = .unbounded →
        report.checks.length = bounds.length ∧ ∀ c ∈ report.checks, c.label ≠ Row.teamSizeLabel) := by
  obtain ⟨p, hp, hfinish⟩ := select_eq_ok.1 h
  obtain ⟨catalog, bounds, candidates, hof⟩ := prepare_eq_ok.1 hp
  obtain ⟨-, hlength, -, rfl⟩ := Prepared.finish_eq_ok.1 hfinish
  rw [← hof.setup_eq]
  have hteam := hof.ids_team_subset hlength
  have hnodup := (hof.subperm_team hlength).2
  generalize (engine p.program).values = values at *
  have hcount : (p.report values).team.length = ((p.team values).map Ranked.id).length := (List.length_map _).symm
  refine ⟨p, catalog, bounds, hp, hof.catalog_eq, hof.bounds_eq, fun size hroster => hof.length_team hlength hroster,
    ?_, ?_, fun k b hb => ?_, fun size hroster => ?_, fun hroster => ?_⟩
  · rw [p.checks_report, List.map_map]
    rfl
  · rw [p.checks_report, List.forall_mem_map]
    exact fun row _ => rfl
  · have hmem := List.mem_of_getElem? hb
    refine ⟨(b.rowOver k p.screening.eligible).check _, _, ?_, rfl, rfl,
      hof.map_numberOf?_members hteam (List.mem_append_right _ (List.mem_map_of_mem hmem)), hof.activity_bound hmem k _⟩
    rw [p.checks_report, List.getElem?_map, hof.getElem?_rows hb]
    rfl
  · have hrows := hof.rows_eq_of_fixed hroster
    refine ⟨?_, (Row.teamSize size p.screening.eligible.length).check
      (p.program.indicator ((p.team values).map Ranked.id)), ?_, rfl, ?_, fun hsmall => ?_⟩
    · rw [p.checks_report, hrows]
      simp
    · rw [p.checks_report, hrows, List.map_append]
      exact List.getLast?_concat
    · rw [hcount]
      exact hof.activity_teamSize hnodup hteam size
    · rw [hcount]
      exact hof.satisfied_teamSize hnodup hteam (hcount.symm.trans_le (hof.length_team hlength hroster).1) hsmall
  · have hrows := hof.rows_eq_of_unbounded hroster
    refine ⟨?_, ?_⟩
    · rw [p.checks_report, hrows]
      simp
    · rw [p.checks_report, List.forall_mem_map, hrows, List.forall_mem_map]
      exact fun numbered _ => numbered.1.label_ne_teamSize numbered.2 p.screening.eligible

/-- Of three candidates with shares and two places, under a bound that the team breaks. -/
theorem checks_tell_team_of_shares : ∃ report,
    select (fun _ => .optimal [0.5, 0.25, 1.0]) ⟨.fixed 2, .fractional⟩
      ⟨[⟨"name", .text⟩, ⟨"a", .numeric⟩], [[some "Ada", some "3"], [some "Bob", some "1"], [some "Cid", some "2"]]⟩
      ⟨"a=1", some "a<=3", none, none⟩ = .ok report ∧ report.team.length = 2 ∧
      ∃ check, report.checks.getLast? = some check ∧ check.satisfied = true := by
  generalize htable : (⟨[⟨"name", .text⟩, ⟨"a", .numeric⟩],
    [[some "Ada", some "3"], [some "Bob", some "1"], [some "Cid", some "2"]]⟩ : Table) = table
  generalize hrequest : (⟨"a=1", some "a<=3", none, none⟩ : Request) = request
  obtain ⟨report, h⟩ : ∃ report,
      select (fun _ => .optimal [0.5, 0.25, 1.0]) ⟨.fixed 2, .fractional⟩ table request = .ok report :=
    exists_eq_ok (by subst htable hrequest; decide +kernel)
  have hsetup : (Setup.override ⟨.fixed 2, .fractional⟩ request.roster request.mode) = ⟨.fixed 2, .fractional⟩ := by
    subst hrequest
    rfl
  obtain ⟨p, catalog, bounds, -, -, -, hteam, -, -, -, hlast, -⟩ := checks_tell_team h
  rw [hsetup] at hteam hlast
  have hfull := (hteam 2 rfl).2 rfl
  obtain ⟨-, check, hcheck, -, -, hsatisfied⟩ := hlast 2 rfl
  exact ⟨report, h, hfull, check, hcheck, (hsatisfied (by decide)).2 hfull⟩

end Lineup
