import Lineup.Engine.Exhaustive
import Lineup.Number.Whole
import Lineup.Proofs.Alignment
import Lineup.Proofs.Number.Range
import Lineup.Report.Json
/-!
# Finite — which numbers of a report are finite

All numbers that are read are finite, and so are the values that an engine may answer with.  What is made of them are
sums of products: the scores, the objective at the answer, the activities of the rows at the team, and the sum of the
scores.  Each of them is finite exactly when no step of its sum leaves the range of doubles, and this is all that stands
between a report and a number that is written as `null`.
-/
namespace Lineup

open Number

/-! ## Sums of products -/

def DotInRange (coefficients values : List Float) : Prop :=
  (∀ ax ∈ coefficients.zip values, |exact ax.1 * exact ax.2| < rangeLimit) ∧
    SumInRange 0.0 (List.zipWith (· * ·) coefficients values)

instance (coefficients values : List Float) : Decidable (DotInRange coefficients values) :=
  inferInstanceAs (Decidable (_ ∧ _))

theorem dot_eq_foldl (coefficients values : List Float) :
    dot coefficients values = (List.zipWith (· * ·) coefficients values).foldl (· + ·) 0.0 := by
  unfold dot
  rw [← List.map_uncurry_zip_eq_zipWith, List.foldl_map]
  rfl

/-- **A sum of products is finite when its coefficients are and no step of it leaves the range.** -/
theorem isFinite_dot_iff {coefficients values : List Float} (hvalues : ∀ x ∈ values, x.isFinite = true) :
    (dot coefficients values).isFinite = true ↔
      (∀ ax ∈ coefficients.zip values, ax.1.isFinite = true) ∧ DotInRange coefficients values := by
  have hright : ∀ ax ∈ coefficients.zip values, ax.2.isFinite = true := fun ax hax =>
    hvalues _ (List.of_mem_zip hax).2
  rw [dot_eq_foldl, isFinite_foldl_add_iff isFinite_zero, ← List.map_uncurry_zip_eq_zipWith, List.forall_mem_map,
    DotInRange, ← List.map_uncurry_zip_eq_zipWith, ← and_assoc]
  refine and_congr_left fun _ => ⟨fun h => ?_, fun h ax hax => ?_⟩
  · have hleft : ∀ ax ∈ coefficients.zip values, ax.1.isFinite = true := fun ax hax => (isFinite_of_mul (h ax hax)).1
    exact ⟨hleft, fun ax hax => (isFinite_mul_exact (hleft ax hax) (hright ax hax)).1 (h ax hax)⟩
  · exact (isFinite_mul_exact (h.1 ax hax) (hright ax hax)).2 (h.2 ax hax)

theorem forall_mem_zip_fst {α β : Type} {P : α → Prop} {xs : List α} {ys : List β} (h : xs.length = ys.length) :
    (∀ xy ∈ xs.zip ys, P xy.1) ↔ ∀ x ∈ xs, P x := by
  conv => rhs; rw [← List.map_fst_zip (Nat.le_of_eq h), List.forall_mem_map]

/-! ## The numbers of a report -/

namespace Json.Value

mutual

def reals : Value → List Float
  | .real x => [x]
  | .list elements => realsAll elements
  | .record members => realsMembers members
  | _ => []

def realsAll : List Value → List Float
  | [] => []
  | v :: vs => v.reals ++ realsAll vs

def realsMembers : List (String × Value) → List Float
  | [] => []
  | (_, v) :: members => v.reals ++ realsMembers members

end

theorem mem_realsAll_map {α : Type} {f : α → Value} {x : Float} : ∀ {xs : List α},
    x ∈ realsAll (xs.map f) ↔ ∃ a ∈ xs, x ∈ (f a).reals
  | [] => by simp [realsAll]
  | a :: xs => by rw [List.map_cons, realsAll, List.mem_append, mem_realsAll_map, List.exists_mem_cons_iff]

end Json.Value

section Members

open Json.Value (reals realsAll realsMembers mem_realsAll_map)

variable {x : Float}

theorem Ranked.mem_reals_toJson {r : Ranked} : x ∈ r.toJson.reals ↔ x = r.score ∨ x = r.value := by
  simp only [toJson, reals, realsMembers, List.nil_append, List.append_nil, List.mem_append, List.mem_singleton]

theorem Exclusion.reals_toJson (e : Exclusion) : e.toJson.reals = [] := by
  have htexts : realsAll (e.missing.map .text) = [] :=
    List.eq_nil_iff_forall_not_mem.2 fun x hx => by
      obtain ⟨_, _, h⟩ := mem_realsAll_map.1 hx
      exact List.not_mem_nil h
  simp only [toJson, reals, realsMembers, htexts, List.nil_append]

theorem Check.mem_reals_toJson {c : Check} : x ∈ c.toJson.reals ↔ x = c.threshold ∨ x = c.achieved := by
  simp only [toJson, reals, realsMembers, List.nil_append, List.append_nil, List.mem_append, List.mem_singleton]

/-- **The doubles in the text of a report.** -/
theorem Report.mem_reals_toJson {r : Report} : x ∈ r.toJson.reals ↔
    (∃ m ∈ r.team, x = m.score ∨ x = m.value) ∨ x = r.teamScore ∨ x = r.objectiveValue ∨
      ∃ c ∈ r.checks, x = c.threshold ∨ x = c.achieved := by
  have hroster : r.roster.toJson.reals = [] := by cases r.roster <;> rfl
  have hexcluded : realsAll (r.excluded.map Exclusion.toJson) = [] :=
    List.eq_nil_iff_forall_not_mem.2 fun x hx => by
      obtain ⟨e, _, h⟩ := mem_realsAll_map.1 hx
      rw [e.reals_toJson] at h
      exact List.not_mem_nil h
  simp only [toJson, reals, realsMembers, hroster, hexcluded, List.nil_append, List.append_nil, List.mem_append,
    List.mem_singleton, mem_realsAll_map, Ranked.mem_reals_toJson, Check.mem_reals_toJson]

theorem Report.forall_reals_toJson {r : Report} : (∀ x ∈ r.toJson.reals, x.isFinite = true) ↔
    (∀ m ∈ r.team, m.score.isFinite = true ∧ m.value.isFinite = true) ∧ r.teamScore.isFinite = true ∧
      r.objectiveValue.isFinite = true ∧ ∀ c ∈ r.checks, c.threshold.isFinite = true ∧ c.achieved.isFinite = true := by
  simp only [Report.mem_reals_toJson, or_imp, forall_and, forall_eq, forall_exists_index, and_imp]
  constructor
  · rintro ⟨hteam, hteamScore, hobjective, hchecks⟩
    exact ⟨⟨fun m hm => hteam.1 _ m hm rfl, fun m hm => hteam.2 _ m hm rfl⟩, hteamScore, hobjective,
      fun c hc => hchecks.1 _ c hc rfl, fun c hc => hchecks.2 _ c hc rfl⟩
  · rintro ⟨hteam, hteamScore, hobjective, hchecks⟩
    refine ⟨⟨?_, ?_⟩, hteamScore, hobjective, ?_, ?_⟩
    · rintro _ m hm rfl
      exact hteam.1 m hm
    · rintro _ m hm rfl
      exact hteam.2 m hm
    · rintro _ c hc rfl
      exact hchecks.1 c hc
    · rintro _ c hc rfl
      exact hchecks.2 c hc

end Members

/-! ## The numbers of a program -/

def Objective.weights (objective : Objective) : List Float := objective.criteria.map Criterion.weight

def Table.numbersOf (table : Table) (objective : Objective) (id : Nat) : List Float :=
  objective.criteria.map fun k => (table.numberOf? id k.metric).getD 0.0

namespace Prepared.Of

variable {p : Prepared} {setup : Setup} {table : Table} {request : Request} {catalog : Catalog} {bounds : List Bound}
  {candidates : List Candidate} {c : Candidate}

theorem numbersOf_eq (h : p.Of setup table request catalog bounds candidates) (hc : c ∈ p.screening.eligible) :
    table.numbersOf p.objective c.id = p.objective.criteria.map fun k => c.value k.metric :=
  List.map_congr_left fun k hk => by
    rw [h.numberOf?_eq hc (List.mem_append_left _ (List.mem_map_of_mem hk)), Option.getD_some]

theorem score_eq (h : p.Of setup table request catalog bounds candidates) (hc : c ∈ p.screening.eligible) :
    c.score p.objective = dot p.objective.weights (table.numbersOf p.objective c.id) := by
  rw [h.numbersOf_eq hc]
  exact c.score_eq_dot p.objective

/-- **A score is finite when no step of it leaves the range.** -/
theorem isFinite_score_iff (h : p.Of setup table request catalog bounds candidates) (hc : c ∈ p.screening.eligible) :
    (c.score p.objective).isFinite = true ↔ DotInRange p.objective.weights (table.numbersOf p.objective c.id) := by
  have hnumbers : ∀ x ∈ table.numbersOf p.objective c.id, x.isFinite = true := by
    rw [h.numbersOf_eq hc, List.forall_mem_map]
    exact fun k hk => h.isFinite_value hc (List.mem_append_left _ (List.mem_map_of_mem hk))
  have hweights : ∀ a ∈ p.objective.weights, a.isFinite = true := by
    unfold Objective.weights
    rw [List.forall_mem_map]
    exact fun k hk => (Objective.of_read h.objective_eq k hk).1
  rw [h.score_eq hc, isFinite_dot_iff hnumbers]
  exact and_iff_right fun ax hax => hweights _ (List.of_mem_zip hax).1

theorem objective_eq_map (h : p.Of setup table request catalog bounds candidates) :
    p.program.objective =
      p.program.ids.map fun id => dot p.objective.weights (table.numbersOf p.objective id) := by
  rw [h.ids, List.map_map, h.program_eq]
  exact List.map_congr_left fun c hc => h.score_eq hc

theorem isFinite_objective_iff (h : p.Of setup table request catalog bounds candidates) :
    (∀ a ∈ p.program.objective, a.isFinite = true) ↔
      ∀ id ∈ p.program.ids, DotInRange p.objective.weights (table.numbersOf p.objective id) := by
  rw [h.objective_eq_map, h.ids, List.forall_mem_map, List.forall_mem_map, List.forall_mem_map]
  refine forall_congr' fun c => imp_congr_right fun hc => ?_
  rw [← h.score_eq hc]
  exact h.isFinite_score_iff hc

theorem isFinite_rhs (h : p.Of setup table request catalog bounds candidates)
    (hsize : ∀ size, p.setup.roster = .fixed size → size < Number.sizeLimit) {row : Row} (hrow : row ∈ p.program.rows) :
    row.rhs.isFinite = true := by
  rcases h.mem_rows.1 hrow with ⟨b, hb, ordinal, -, rfl⟩ | ⟨size, hroster, rfl⟩
  · exact (Request.of_readBounds h.bounds_eq b hb).1
  · exact isFinite_ofNat (hsize size hroster)

theorem isFinite_activity_iff (h : p.Of setup table request catalog bounds candidates) {row : Row}
    (hrow : row ∈ p.program.rows) (team : List Nat) :
    (row.activity (p.program.indicator team)).isFinite = true ↔
      DotInRange row.coefficients (p.program.indicator team) := by
  have hpoint : ∀ x ∈ p.program.indicator team, x.isFinite = true := by
    rw [Program.indicator_eq, List.forall_mem_map]
    exact fun id _ => isFinite_ite (id ∈ team)
  unfold Row.activity
  rw [isFinite_dot_iff hpoint]
  exact and_iff_right fun ax hax => h.isFinite_coefficient hrow (List.of_mem_zip hax).1

/-! ## From the program to the report -/

theorem of_mem_team (h : p.Of setup table request catalog bounds candidates) {values : List Float}
    (hlength : values.length = p.program.ids.length) {m : Ranked} (hm : m ∈ p.team values) :
    m.score ∈ p.program.objective ∧ m.value ∈ values := by
  obtain ⟨k, c, x, hc, hx, rfl⟩ := mem_entries.1 ((h.subperm_team hlength).1.subset hm)
  refine ⟨?_, List.mem_of_getElem? hx⟩
  rw [h.program_eq]
  exact List.mem_map_of_mem (List.mem_of_getElem? hc)

theorem isFinite_teamScore_iff (p : Prepared) (values : List Float) : (p.report values).teamScore.isFinite = true ↔
    (∀ m ∈ p.team values, m.score.isFinite = true) ∧ SumInRange 0.0 ((p.team values).map Ranked.score) := by
  have hsum : (p.report values).teamScore = ((p.team values).map Ranked.score).foldl (· + ·) 0.0 := List.foldl_map.symm
  rw [hsum, isFinite_foldl_add_iff isFinite_zero, List.forall_mem_map]

theorem isFinite_objectiveValue_iff (h : p.Of setup table request catalog bounds candidates) {values : List Float}
    (hlength : values.length = p.program.ids.length) (hvalues : ∀ x ∈ values, x.isFinite = true) :
    (p.report values).objectiveValue.isFinite = true ↔
      (∀ a ∈ p.program.objective, a.isFinite = true) ∧ DotInRange p.program.objective values := by
  have hlengths : p.program.objective.length = values.length := by
    rw [h.objective_eq_map, List.length_map, hlength]
  rw [← forall_mem_zip_fst (P := fun a : Float => a.isFinite = true) hlengths]
  exact isFinite_dot_iff hvalues

theorem isFinite_checks_iff (h : p.Of setup table request catalog bounds candidates)
    (hsize : ∀ size, p.setup.roster = .fixed size → size < Number.sizeLimit) (values : List Float) :
    (∀ c ∈ (p.report values).checks, c.threshold.isFinite = true ∧ c.achieved.isFinite = true) ↔
      ∀ row ∈ p.program.rows, DotInRange row.coefficients (p.program.indicator ((p.team values).map Ranked.id)) := by
  rw [p.checks_report, List.forall_mem_map]
  refine forall_congr' fun row => imp_congr_right fun hrow => ?_
  rw [← h.isFinite_activity_iff hrow]
  exact and_iff_right (h.isFinite_rhs hsize hrow)

end Prepared.Of

/-- **What a program and a report say is finite, but for sums that leave the range.**  The rows of a program are finite;
a coefficient of its objective is when no step of the score leaves the range.  All doubles in the text of a report are
finite, so that none is written as `null`, exactly when no step of these sums does: the scores of the candidates, the
sum of the scores of the team, the objective at the engine's answer, and the activities of the rows at the team. -/
theorem finite_iff_in_range {setup : Setup} {table : Table} {request : Request} {p : Prepared}
    (hp : prepare setup table request = .ok p)
    (hsize : ∀ size, (setup.override request.roster request.mode).roster = .fixed size → size < Number.sizeLimit) :
    (∀ row ∈ p.program.rows, row.rhs.isFinite = true ∧ ∀ a ∈ row.coefficients, a.isFinite = true) ∧
    ((∀ a ∈ p.program.objective, a.isFinite = true) ↔
      ∀ id ∈ p.program.ids, DotInRange p.objective.weights (table.numbersOf p.objective id)) ∧
    ∀ engine report, select engine setup table request = .ok report →
      ((∀ x ∈ report.toJson.reals, x.isFinite = true) ↔
        (∀ id ∈ p.program.ids, DotInRange p.objective.weights (table.numbersOf p.objective id)) ∧
        SumInRange 0.0 (report.team.map Ranked.score) ∧
        DotInRange p.program.objective (engine p.program).values ∧
        ∀ row ∈ p.program.rows, DotInRange row.coefficients (p.program.indicator (report.team.map Ranked.id))) := by
  obtain ⟨catalog, bounds, candidates, hof⟩ := prepare_eq_ok.1 hp
  rw [← hof.setup_eq] at hsize
  refine ⟨fun row hrow => ⟨hof.isFinite_rhs hsize hrow, fun a ha => hof.isFinite_coefficient hrow ha⟩,
    hof.isFinite_objective_iff, fun engine report h => ?_⟩
  rw [select_of_prepare hp] at h
  obtain ⟨-, hlength, hfinite, rfl⟩ := Prepared.finish_eq_ok.1 h
  have hvalues := List.all_eq_true.1 hfinite
  rw [Report.forall_reals_toJson, hof.isFinite_objectiveValue_iff hlength hvalues, hof.isFinite_objective_iff,
    hof.isFinite_checks_iff hsize, Prepared.Of.isFinite_teamScore_iff]
  constructor
  · rintro ⟨-, ⟨-, hsum⟩, ⟨hscores, hdot⟩, hrows⟩
    exact ⟨hscores, hsum, hdot, hrows⟩
  · rintro ⟨hscores, hsum, hdot, hrows⟩
    -- the scores of the team are among the coefficients of the objective
    have hmember := fun m (hm : m ∈ p.team (engine p.program).values) => hof.of_mem_team hlength hm
    have hteam := fun m hm => hof.isFinite_objective_iff.2 hscores m.score (hmember m hm).1
    exact ⟨fun m hm => ⟨hteam m hm, hvalues _ (hmember m hm).2⟩, ⟨hteam, hsum⟩, ⟨hscores, hdot⟩, hrows⟩

/-- Three finite products whose sum is finite, and a partial sum that leaves the range on the way. -/
theorem not_finite_of_partial_sum : ∃ table p report,
    Table.load (Text.Utf8.encode "name,a,b,c\nAda,1e308,1e308,-1e308\n") = .ok table ∧
      prepare .standard table ⟨"a=1,b=1,c=1", none, some (.fixed 1), none⟩ = .ok p ∧
      select Engine.exhaustive .standard table ⟨"a=1,b=1,c=1", none, some (.fixed 1), none⟩ = .ok report ∧
      ¬ ∀ x ∈ report.toJson.reals, x.isFinite = true := by
  generalize hrequest : (⟨"a=1,b=1,c=1", none, some (.fixed 1), none⟩ : Request) = request
  have hrange : ((Table.load (Text.Utf8.encode "name,a,b,c\nAda,1e308,1e308,-1e308\n")).toOption.any fun table =>
      (select Engine.exhaustive .standard table request).isOk && (prepare .standard table request).toOption.all fun p =>
        p.program.ids.contains 0 && !decide (DotInRange p.objective.weights (table.numbersOf p.objective 0))) =
          true := by
    subst hrequest
    decide +kernel
  cases hload : Table.load (Text.Utf8.encode "name,a,b,c\nAda,1e308,1e308,-1e308\n") with
  | error e => rw [hload] at hrange; cases hrange
  | ok table =>
    rw [hload] at hrange
    obtain ⟨hok, hrange⟩ := Bool.and_eq_true_iff.1 hrange
    obtain ⟨report, h⟩ := exists_eq_ok hok
    obtain ⟨p, hp, -⟩ := select_eq_ok.1 h
    rw [hp] at hrange
    obtain ⟨hid, hrange⟩ := Bool.and_eq_true_iff.1 hrange
    refine ⟨table, p, report, rfl, hp, h, fun hall => ?_⟩
    have hsize : ∀ size, (Setup.standard.override request.roster request.mode).roster = .fixed size →
        size < Number.sizeLimit := by
      subst hrequest
      rintro size ⟨⟩
      decide
    obtain ⟨hscores, -⟩ := ((finite_iff_in_range hp hsize).2.2 _ report h).1 hall
    have hscore := hscores 0 (List.contains_iff_mem.1 hid)
    rw [decide_eq_true hscore] at hrange
    cases hrange

end Lineup
