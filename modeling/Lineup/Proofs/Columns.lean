import Lineup.Catalog
import Mathlib.Data.List.Nodup
/-!
# Columns — which columns have a catalog

Columns have a catalog when no two of their names are the same up to case, one of them holds names, and there is a
metric (`ofColumns_eq_ok`).  So there is one place where a name can be looked up, and one column behind a metric.  Any
other columns are refused for the first of these that fails (`ofColumns_eq_error`).
-/
namespace Lineup

theorem Column.isMetric_iff {column : Column} :
    column.isMetric = true ↔ column.kind = .numeric ∧ descriptiveColumns.any (Text.sameName column.name) = false := by
  unfold Column.isMetric
  rw [Bool.and_eq_true, decide_eq_true_iff, Bool.not_eq_true']

theorem Column.holdsNames_of_isMetric {column : Column} (h : column.isMetric = true) : column.holdsNames = false := by
  have hany := (Column.isMetric_iff.1 h).2
  rw [List.any_eq_false] at hany
  exact Bool.eq_false_iff.2 (hany nameColumn (by decide))

structure Column.Measures (column : Column) : Prop where
  numeric : column.kind = .numeric
  not_descriptive : ∀ name ∈ ["id", "name", "dob", "nationality"], Text.sameName column.name name = false

theorem Column.isMetric_iff_measures {column : Column} : column.isMetric = true ↔ column.Measures := by
  rw [isMetric_iff, List.any_eq_false]
  simp only [Bool.not_eq_true]
  exact ⟨fun ⟨hkind, hnames⟩ => ⟨hkind, hnames⟩, fun h => ⟨h.numeric, h.not_descriptive⟩⟩

instance {column : Column} : Decidable column.Measures := decidable_of_iff _ Column.isMetric_iff_measures

namespace Catalog

theorem firstRepeat?_cons (seen names : List String) (name : String) : firstRepeat? seen (name :: names) =
    if seen.any (Text.sameName name) then some name else firstRepeat? (name :: seen) names := by
  rw [firstRepeat?]

theorem firstRepeat?_eq_none_iff : ∀ {seen names : List String}, firstRepeat? seen names = none ↔
    (∀ name ∈ names, seen.any (Text.sameName name) = false) ∧ names.Pairwise fun a b => Text.sameName b a = false
  | seen, [] => by simp [firstRepeat?]
  | seen, name :: names => by
    rw [firstRepeat?_cons]
    by_cases hany : seen.any (Text.sameName name) = true
    · rw [if_pos hany]
      refine ⟨nofun, fun ⟨hall, _⟩ => ?_⟩
      rw [hall name List.mem_cons_self] at hany
      cases hany
    · -- whoever is the same as `name` from here on is the same as one that was seen
      have hcons : ∀ n, (name :: seen).any (Text.sameName n) = false ↔
          Text.sameName n name = false ∧ seen.any (Text.sameName n) = false := fun n => by
        rw [List.any_cons, Bool.or_eq_false_iff]
      rw [if_neg hany, firstRepeat?_eq_none_iff, List.forall_mem_cons, List.pairwise_cons]
      simp only [hcons, forall₂_and, Bool.eq_false_iff.2 hany]
      tauto

theorem firstRepeat?_eq_some_iff : ∀ {seen names : List String} {name : String}, firstRepeat? seen names = some name ↔
    ∃ before after, names = before ++ name :: after ∧ firstRepeat? seen before = none ∧
      ∃ earlier ∈ before ++ seen, Text.sameName name earlier = true
  | seen, [], name => by simp [firstRepeat?]
  | seen, n :: names, name => by
    rw [firstRepeat?_cons]
    by_cases hany : seen.any (Text.sameName n) = true
    · rw [if_pos hany, Option.some.injEq]
      constructor
      · rintro rfl
        obtain ⟨earlier, hmem, hsame⟩ := List.any_eq_true.1 hany
        exact ⟨[], names, rfl, by rw [firstRepeat?], earlier, hmem, hsame⟩
      · rintro ⟨before, after, hnames, hnone, -⟩
        cases before with
        | nil => exact (List.cons.inj hnames).1
        | cons b before =>
          obtain ⟨rfl, -⟩ := List.cons.inj hnames
          rw [firstRepeat?_cons, if_pos hany] at hnone
          cases hnone
    · rw [if_neg hany, firstRepeat?_eq_some_iff]
      constructor
      · rintro ⟨before, after, rfl, hnone, earlier, hmem, hsame⟩
        refine ⟨n :: before, after, rfl, by rw [firstRepeat?_cons, if_neg hany, hnone], earlier, ?_, hsame⟩
        exact List.perm_middle.mem_iff.1 hmem
      · rintro ⟨before, after, hnames, hnone, earlier, hmem, hsame⟩
        cases before with
        | nil =>
          obtain ⟨rfl, -⟩ := List.cons.inj hnames
          exact absurd (List.any_eq_true.2 ⟨earlier, hmem, hsame⟩) hany
        | cons b before =>
          obtain ⟨rfl, rfl⟩ := List.cons.inj hnames
          rw [firstRepeat?_cons, if_neg hany] at hnone
          exact ⟨before, after, rfl, hnone, earlier, List.perm_middle.mem_iff.2 hmem, hsame⟩

def Apart (columns : List Column) : Prop := columns.Pairwise fun a b => Text.sameName b.name a.name = false

instance : DecidablePred Apart := fun columns => inferInstanceAs (Decidable (columns.Pairwise _))

theorem firstRepeat?_names_eq_none {columns : List Column} :
    firstRepeat? [] (columns.map Column.name) = none ↔ Apart columns := by
  simp [firstRepeat?_eq_none_iff, List.pairwise_map, Apart]

theorem firstRepeat?_names_eq_some {columns : List Column} {name : String} :
    firstRepeat? [] (columns.map Column.name) = some name ↔ ∃ before column after, columns = before ++ column :: after ∧
      Apart before ∧ (∃ earlier ∈ before, Text.sameName column.name earlier.name = true) ∧ name = column.name := by
  rw [firstRepeat?_eq_some_iff]
  constructor
  · rintro ⟨names, rest, hnames, hnone, earlier, hmem, hsame⟩
    obtain ⟨before, others, rfl, rfl, hothers⟩ := List.map_eq_append_iff.1 hnames
    obtain ⟨column, after, rfl, rfl, rfl⟩ := List.map_eq_cons_iff.1 hothers
    rw [List.append_nil] at hmem
    obtain ⟨column', hmem', rfl⟩ := List.mem_map.1 hmem
    exact ⟨before, column, after, rfl, firstRepeat?_names_eq_none.1 hnone, ⟨column', hmem', hsame⟩, rfl⟩
  · rintro ⟨before, column, after, rfl, hapart, ⟨earlier, hmem, hsame⟩, rfl⟩
    refine ⟨before.map Column.name, after.map Column.name, by simp, firstRepeat?_names_eq_none.2 hapart, earlier.name,
      ?_, hsame⟩
    rw [List.append_nil]
    exact List.mem_map_of_mem hmem

/-- **Which columns have a catalog, and which.** -/
theorem ofColumns_eq_ok {columns : List Column} {catalog : Catalog} : ofColumns columns = .ok catalog ↔
    Apart columns ∧ (∃ column ∈ columns, column.holdsNames = true) ∧
      columns.filter Column.isMetric ≠ [] ∧ catalog = ⟨(columns.filter Column.isMetric).map Column.name⟩ := by
  have hmap : (columns.filter Column.isMetric).map Column.name = [] ↔ columns.filter Column.isMetric = [] :=
    List.map_eq_nil_iff
  unfold ofColumns
  rw [← firstRepeat?_names_eq_none, ← List.any_eq_true, Ne, ← hmap]
  constructor
  · intro h
    split at h
    · cases h
    · rename_i hnone
      split at h
      · cases h
      · rename_i hholds
        dsimp only at h
        split at h
        · cases h
        · rename_i hmetrics
          cases h
          exact ⟨hnone, by simpa using hholds, hmetrics, rfl⟩
  · rintro ⟨hnone, hholds, hmetrics, rfl⟩
    simp [hnone, hholds, hmetrics]

section

variable {columns : List Column} {catalog : Catalog} (h : ofColumns columns = .ok catalog)
include h

theorem pairwise_name_ne : columns.Pairwise fun a b => a.name ≠ b.name := by
  refine (ofColumns_eq_ok.1 h).1.imp fun {a b} hsame heq => ?_
  rw [heq, Text.sameName_refl] at hsame
  cases hsame

theorem exists_column {metric : String} (hm : catalog.contains metric = true) :
    ∃ column ∈ columns, column.name = metric ∧ column.isMetric = true := by
  obtain ⟨-, -, -, rfl⟩ := ofColumns_eq_ok.1 h
  obtain ⟨name, hname, hbeq⟩ := List.any_eq_true.1 hm
  obtain ⟨column, hcolumn, hsame⟩ := List.mem_map.1 hname
  rw [List.mem_filter] at hcolumn
  exact ⟨column, hcolumn.1, hsame.trans (beq_iff_eq.1 hbeq), hcolumn.2⟩

theorem isMetric_of_contains {column : Column} (hmem : column ∈ columns) (hc : catalog.contains column.name = true) :
    column.isMetric = true := by
  obtain ⟨column', hmem', hsame, hmetric⟩ := exists_column h hc
  rwa [← List.inj_on_of_nodup_map (List.pairwise_map.2 (pairwise_name_ne h)) hmem' hmem hsame]

theorem exists_nameIndex : ∃ nameIndex, columns.findIdx? Column.holdsNames = some nameIndex ∧
    ∀ index, (∃ column, columns[index]? = some column ∧ column.holdsNames = true) ↔ index = nameIndex := by
  obtain ⟨hdistinct, hholds, -⟩ := ofColumns_eq_ok.1 h
  cases hindex : columns.findIdx? Column.holdsNames with
  | none =>
    obtain ⟨column, hmem, hholds⟩ := hholds
    rw [List.findIdx?_eq_none_iff.1 hindex column hmem] at hholds
    cases hholds
  | some nameIndex =>
    obtain ⟨hlt, hname, hbefore⟩ := List.findIdx?_eq_some_iff_getElem.1 hindex
    refine ⟨nameIndex, rfl, fun index => ⟨fun ⟨column, hcolumn, hsame⟩ => ?_, fun heq => ?_⟩⟩
    · obtain ⟨hlt', rfl⟩ := List.getElem?_eq_some_iff.1 hcolumn
      rcases Nat.lt_trichotomy index nameIndex with hbelow | heq | habove
      · exact absurd hsame (hbefore index hbelow)
      · exact heq
      · have hother := List.pairwise_iff_getElem.1 hdistinct nameIndex index hlt hlt' habove
        unfold Column.holdsNames at hname hsame
        rw [Text.sameName_iff] at hname hsame
        rw [Bool.eq_false_iff, Ne, Text.sameName_iff] at hother
        exact absurd (hsame.trans hname.symm) hother
    · exact ⟨_, heq ▸ List.getElem?_eq_getElem hlt, hname⟩

end

/-! ## The first fault -/

/-- Why columns have no catalog: the first reason that applies. -/
inductive Fault (columns : List Column) : SchemaError → Prop
  | repeatedColumn {before after : List Column} {column earlier : Column} : columns = before ++ column :: after →
      Apart before → earlier ∈ before → Text.sameName column.name earlier.name = true →
      Fault columns (.repeatedColumn column.name)
  | missingName : Apart columns → (∀ column ∈ columns, Text.sameName column.name "name" = false) →
      Fault columns .missingName
  | noMetrics : Apart columns → (∃ column ∈ columns, Text.sameName column.name "name" = true) →
      (∀ column ∈ columns, ¬ column.Measures) → Fault columns .noMetrics

theorem filter_isMetric (columns : List Column) :
    columns.filter Column.isMetric = columns.filter fun column => column.Measures :=
  List.filter_congr fun column _ => by rw [Bool.eq_iff_iff, Column.isMetric_iff_measures, decide_eq_true_iff]

theorem ofColumns_eq_error {columns : List Column} {e : SchemaError} :
    ofColumns columns = .error e ↔ Fault columns e := by
  have hholds : columns.any Column.holdsNames = false ↔
      ∀ column ∈ columns, Text.sameName column.name "name" = false := by
    simp [List.any_eq_false, Column.holdsNames, nameColumn]
  have hmetrics : (columns.filter Column.isMetric).map Column.name = [] ↔ ∀ column ∈ columns, ¬ column.Measures := by
    simp [List.filter_eq_nil_iff, filter_isMetric]
  constructor
  · intro h
    unfold ofColumns at h
    split at h
    · rename_i hrepeat
      cases h
      obtain ⟨before, column, after, rfl, hapart, ⟨earlier, hmem, hsame⟩, rfl⟩ := firstRepeat?_names_eq_some.1 hrepeat
      exact .repeatedColumn rfl hapart hmem hsame
    · rename_i hnone
      rw [firstRepeat?_names_eq_none] at hnone
      split at h
      · rename_i hany
        cases h
        exact .missingName hnone (hholds.1 (by simpa using hany))
      · rename_i hany
        dsimp only at h
        split at h
        · rename_i hnil
          cases h
          exact .noMetrics hnone (by simpa [Column.holdsNames, nameColumn] using hany) (hmetrics.1 hnil)
        · cases h
  · intro h
    unfold ofColumns
    cases h with
    | repeatedColumn hcolumns hapart hmem hsame =>
      rw [firstRepeat?_names_eq_some.2 ⟨_, _, _, hcolumns, hapart, ⟨_, hmem, hsame⟩, rfl⟩]
    | missingName hapart hnone =>
      rw [firstRepeat?_names_eq_none.2 hapart]
      simp [hholds.2 hnone]
    | noMetrics hapart hsome hnone =>
      have hany : columns.any Column.holdsNames = true := List.any_eq_true.2 hsome
      rw [firstRepeat?_names_eq_none.2 hapart]
      simp [hany, hmetrics.2 hnone]

/-- **Which columns have a catalog, which one, and what is said of the others.**  There is a catalog when no name
repeats, one column holds names and another can be measured by; it lists the names of all of the latter, in their order,
and repeats none.  Otherwise the first name that repeats an earlier one is at fault, as it is written there; else that
no column holds names; else that none is a metric. -/
theorem ofColumns_outcome (columns : List Column) :
    ((∃ catalog, ofColumns columns = .ok catalog) ↔ Apart columns ∧
      (∃ column ∈ columns, Text.sameName column.name "name" = true) ∧ ∃ column ∈ columns, column.Measures) ∧
    (∀ catalog, ofColumns columns = .ok catalog →
      catalog.metrics = (columns.filter fun column => column.Measures).map Column.name ∧
        catalog.metrics.Pairwise fun a b => Text.sameName b a = false) ∧
    ∀ e, ofColumns columns = .error e ↔ Fault columns e := by
  refine ⟨?_, fun catalog h => ?_, fun e => ofColumns_eq_error⟩
  · have hfilter : columns.filter Column.isMetric ≠ [] ↔ ∃ column ∈ columns, column.Measures := by
      simp [List.filter_eq_nil_iff, Column.isMetric_iff_measures]
    simp only [ofColumns_eq_ok, hfilter]
    exact ⟨fun ⟨_, hapart, hholds, hsome, _⟩ => ⟨hapart, hholds, hsome⟩,
      fun ⟨hapart, hholds, hsome⟩ => ⟨_, hapart, hholds, hsome, rfl⟩⟩
  · obtain ⟨hapart, -, -, rfl⟩ := ofColumns_eq_ok.1 h
    rw [filter_isMetric]
    exact ⟨rfl, List.pairwise_map.2 (hapart.sublist List.filter_sublist)⟩

/-- Of an identity that is a number, and of two names that come again in other cases. -/
theorem ofColumns_outcome_of_repeats :
    (∃ catalog,
      ofColumns [⟨"ID", .numeric⟩, ⟨"Name", .text⟩, ⟨"goals", .numeric⟩, ⟨"club", .text⟩, ⟨"Caps", .numeric⟩] =
        .ok catalog ∧ catalog.metrics = ["goals", "Caps"]) ∧
    ofColumns [⟨"goals", .numeric⟩, ⟨"Caps", .numeric⟩, ⟨"GOALS", .text⟩, ⟨"caps", .numeric⟩] =
      .error (.repeatedColumn "GOALS") := by
  obtain ⟨hok, hmetrics, -⟩ := ofColumns_outcome
    [⟨"ID", .numeric⟩, ⟨"Name", .text⟩, ⟨"goals", .numeric⟩, ⟨"club", .text⟩, ⟨"Caps", .numeric⟩]
  obtain ⟨-, -, herror⟩ := ofColumns_outcome
    [⟨"goals", .numeric⟩, ⟨"Caps", .numeric⟩, ⟨"GOALS", .text⟩, ⟨"caps", .numeric⟩]
  obtain ⟨catalog, hcatalog⟩ := hok.2 ⟨by decide, by decide, by decide⟩
  have hsplit : [⟨"goals", .numeric⟩, ⟨"Caps", .numeric⟩, ⟨"GOALS", .text⟩, ⟨"caps", .numeric⟩] =
      [⟨"goals", .numeric⟩, ⟨"Caps", .numeric⟩] ++ (⟨"GOALS", .text⟩ : Column) :: [⟨"caps", .numeric⟩] := rfl
  exact ⟨⟨catalog, hcatalog, (hmetrics catalog hcatalog).1.trans (by decide)⟩,
    (herror _).2 (.repeatedColumn hsplit (by decide) List.mem_cons_self (by decide))⟩

end Catalog

end Lineup
