import Mathlib.Data.List.Nodup
import Lineup.Proofs.Reading
/-!
# CriteriaGrammar — the lists of criteria that are accepted

A criterion is written as a metric, one equals sign and a finite number.  A list of criteria is accepted when each of
its items is written this way, under a metric of the catalog, and no metric stands in two of them.  Any other list is
refused for its first fault; an item that repeats a metric is at fault only if nothing else is wrong with it.
-/
namespace Lineup

open Text (isBlank trim)

namespace Criterion

variable {catalog : Catalog} {seen : List String} {item left right : List Char} {k : Criterion}

/-! ## Writing an item -/

structure Sides (item left right : List Char) : Prop where
  eq_append : item = left ++ '=' :: right
  not_mem_left : '=' ∉ left
  not_mem_right : '=' ∉ right

theorem Sides.cut?_eq (h : Sides item left right) : Text.cut? ['='] item = some (left, right) :=
  Text.cut?_singleton_iff.2 ⟨h.eq_append, h.not_mem_left⟩

theorem Sides.unique {left' right' : List Char} (h : Sides item left right) (h' : Sides item left' right') :
    left' = left ∧ right' = right := by
  have hcut := h.cut?_eq
  rw [h'.cut?_eq] at hcut
  cases hcut
  exact ⟨rfl, rfl⟩

theorem exists_sides_iff : (∃ left right, Sides item left right) ↔ item.count '=' = 1 := by
  constructor
  · rintro ⟨left, right, rfl, hleft, hright⟩
    rw [List.count_append, List.count_cons_self, List.count_eq_zero.2 hleft, List.count_eq_zero.2 hright]
  · intro h
    obtain ⟨left, right, rfl, hleft⟩ :=
      List.eq_append_cons_of_mem (List.count_pos_iff.1 (by omega : 0 < item.count '='))
    rw [List.count_append, List.count_cons_self, List.count_eq_zero.2 hleft] at h
    exact ⟨left, right, rfl, hleft, List.count_eq_zero.1 (by omega)⟩

/-- **The grammar of a criterion**: a metric before the only equals sign, and after it a number that is the weight. -/
def Written (piece : List Char) (k : Criterion) : Prop :=
  ∃ left right, Sides piece left right ∧ k.metric = String.ofList (trim left) ∧ Number.readFinite? right = some k.weight

theorem Written.not_blank {piece : List Char} (h : Written piece k) : piece.all isBlank = false := by
  obtain ⟨left, right, ⟨rfl, -, -⟩, -⟩ := h
  rw [List.all_append, List.all_cons, show isBlank '=' = false by decide, Bool.false_and, Bool.and_false]

theorem written_trim_iff {piece : List Char} : Written (trim piece) k ↔ Written piece k := by
  obtain ⟨s, t, hs, ht, hpad⟩ := Text.exists_pad piece
  have hblank : ∀ {cs : List Char}, cs.all isBlank = true → '=' ∉ cs := fun h => Text.not_mem_of_blank h (by decide)
  have hsides : ∀ {left right}, Sides (trim piece) left right → Sides piece (s ++ left) (right ++ t) := by
    rintro left right ⟨heq, hleft, hright⟩
    refine ⟨?_, by simp [hblank hs, hleft], by simp [hblank ht, hright]⟩
    rw [hpad, heq]
    simp
  have htrimLeft : ∀ left, trim (s ++ left) = trim left :=
    fun left => by simpa using Text.trim_pad hs (t := []) rfl left
  have htrimRight : ∀ right, trim (right ++ t) = trim right := fun right => Text.trim_pad (s := []) rfl ht right
  constructor
  · rintro ⟨left, right, h, hmetric, hweight⟩
    exact ⟨s ++ left, right ++ t, hsides h, by rw [hmetric, htrimLeft],
      by rw [← hweight, Number.readFinite?_congr (htrimRight right)]⟩
  · rintro ⟨left, right, h, hmetric, hweight⟩
    -- the equals sign is not among the characters that are trimmed off
    obtain ⟨left', right', h'⟩ : ∃ left right, Sides (trim piece) left right := by
      rw [exists_sides_iff, ← exists_sides_iff.1 ⟨left, right, h⟩]
      conv => rhs; rw [hpad]
      rw [List.count_append, List.count_append, List.count_eq_zero.2 (hblank hs), List.count_eq_zero.2 (hblank ht)]
      omega
    obtain ⟨rfl, rfl⟩ := (hsides h').unique h
    exact ⟨left', right', h', by rw [hmetric, htrimLeft],
      by rw [← hweight, Number.readFinite?_congr (htrimRight right')]⟩

/-! ## Reading an item -/

structure Accepted (catalog : Catalog) (piece : List Char) (k : Criterion) : Prop where
  written : Written piece k
  ne_empty : k.metric ≠ ""
  mem_catalog : k.metric ∈ catalog.metrics

theorem accepted_trim_iff {piece : List Char} : Accepted catalog (trim piece) k ↔ Accepted catalog piece k :=
  ⟨fun h => ⟨written_trim_iff.1 h.written, h.ne_empty, h.mem_catalog⟩,
    fun h => ⟨written_trim_iff.2 h.written, h.ne_empty, h.mem_catalog⟩⟩

theorem read_eq_ok_iff_accepted : read catalog seen item = .ok k ↔ Accepted catalog item k ∧ k.metric ∉ seen := by
  rw [read_eq_ok_iff]
  constructor
  · rintro ⟨left, right, heq, hleft, hright, hmetric, hne, hweight, hcatalog, hseen⟩
    exact ⟨⟨⟨left, right, ⟨heq, hleft, hright⟩, hmetric, hweight⟩, hne, hcatalog⟩, hseen⟩
  · rintro ⟨⟨⟨left, right, ⟨heq, hleft, hright⟩, hmetric, hweight⟩, hne, hcatalog⟩, hseen⟩
    exact ⟨left, right, heq, hleft, hright, hmetric, hne, hweight, hcatalog, hseen⟩

/-- What is wrong with an item after items of the metrics `seen`, in the order in which it is looked for. -/
inductive Fault (catalog : Catalog) (seen : List String) (item : List Char) : ExpressionError → Prop where
  | notOneSign (h : item.count '=' ≠ 1) : Fault catalog seen item (.malformedItem (String.ofList item))
  | blankMetric {left right : List Char} (hsides : Sides item left right) (h : left.all isBlank = true) :
      Fault catalog seen item (.malformedItem (String.ofList item))
  | notNumber {left right : List Char} (hsides : Sides item left right) (hmetric : left.all isBlank = false)
      (h : Number.readFinite? right = none) : Fault catalog seen item (.nonNumericValue (String.ofList item))
  | unknownMetric {left right : List Char} {x : Float} (hsides : Sides item left right)
      (hmetric : left.all isBlank = false) (hnumber : Number.readFinite? right = some x)
      (h : String.ofList (trim left) ∉ catalog.metrics) :
      Fault catalog seen item (.unknownMetric (String.ofList (trim left)))
  | repeatedMetric {left right : List Char} {x : Float} (hsides : Sides item left right)
      (hmetric : left.all isBlank = false) (hnumber : Number.readFinite? right = some x)
      (hcatalog : String.ofList (trim left) ∈ catalog.metrics) (h : String.ofList (trim left) ∈ seen) :
      Fault catalog seen item (.repeatedMetric (String.ofList (trim left)))

theorem Fault.congr {seen' : List String} {e : ExpressionError} (h : Fault catalog seen item e)
    (hseen : ∀ metric, metric ∈ seen ↔ metric ∈ seen') : Fault catalog seen' item e := by
  cases h with
  | notOneSign h => exact .notOneSign h
  | blankMetric hsides h => exact .blankMetric hsides h
  | notNumber hsides hmetric h => exact .notNumber hsides hmetric h
  | unknownMetric hsides hmetric hnumber h => exact .unknownMetric hsides hmetric hnumber h
  | repeatedMetric hsides hmetric hnumber hcatalog h =>
    exact .repeatedMetric hsides hmetric hnumber hcatalog ((hseen _).1 h)

theorem accepted_or_fault (catalog : Catalog) (seen : List String) (item : List Char) :
    (∃ k, Accepted catalog item k ∧ k.metric ∉ seen) ∨ ∃ e, Fault catalog seen item e := by
  by_cases hsign : item.count '=' = 1
  · obtain ⟨left, right, hsides⟩ := exists_sides_iff.2 hsign
    by_cases hblank : left.all isBlank = true
    · exact Or.inr ⟨_, .blankMetric hsides hblank⟩
    · rw [Bool.not_eq_true] at hblank
      cases hnumber : Number.readFinite? right with
      | none => exact Or.inr ⟨_, .notNumber hsides hblank hnumber⟩
      | some x =>
        by_cases hcatalog : String.ofList (trim left) ∈ catalog.metrics
        · by_cases hseen : String.ofList (trim left) ∈ seen
          · exact Or.inr ⟨_, .repeatedMetric hsides hblank hnumber hcatalog hseen⟩
          · exact Or.inl ⟨⟨_, x⟩, ⟨⟨left, right, hsides, rfl, hnumber⟩, Bound.metric_ne_empty hblank, hcatalog⟩, hseen⟩
        · exact Or.inr ⟨_, .unknownMetric hsides hblank hnumber hcatalog⟩
  · exact Or.inr ⟨_, .notOneSign hsign⟩

theorem read_of_fault {e : ExpressionError} (h : Fault catalog seen item e) : read catalog seen item = .error e := by
  have hproper : ∀ {left right : List Char}, Sides item left right → left.all isBlank = false →
      ¬ (right.contains '=' || decide (String.ofList (trim left) = "")) = true := fun hsides hmetric => by
    simp [hsides.not_mem_right, Bound.metric_ne_empty hmetric]
  unfold read
  cases h with
  | notOneSign h =>
    cases hcut : Text.cut? ['='] item with
    | none => rfl
    | some sides =>
      obtain ⟨left, right⟩ := sides
      obtain ⟨heq, hleft⟩ := Text.cut?_singleton_iff.1 hcut
      have hright : '=' ∈ right := by
        by_contra hright
        exact h (exists_sides_iff.1 ⟨left, right, heq, hleft, hright⟩)
      exact if_pos (by rw [List.contains_iff_mem.2 hright, Bool.true_or])
  | blankMetric hsides h =>
    rw [hsides.cut?_eq]
    exact if_pos (by simp [Bound.ofList_trim_eq_empty_iff.2 h])
  | notNumber hsides hmetric h =>
    rw [hsides.cut?_eq]
    dsimp only
    rw [if_neg (hproper hsides hmetric), h]
  | unknownMetric hsides hmetric hnumber h =>
    rw [hsides.cut?_eq]
    dsimp only
    rw [if_neg (hproper hsides hmetric), hnumber]
    exact if_pos (by rw [Bool.not_eq_true', Bool.eq_false_iff, Ne, Catalog.contains_iff]; exact h)
  | repeatedMetric hsides hmetric hnumber hcatalog h =>
    rw [hsides.cut?_eq]
    dsimp only
    rw [if_neg (hproper hsides hmetric), hnumber]
    dsimp only
    rw [if_neg (by simp [Catalog.contains_iff.2 hcatalog]), if_pos (List.contains_iff_mem.2 h)]

theorem read_eq_error_iff {e : ExpressionError} : read catalog seen item = .error e ↔ Fault catalog seen item e := by
  refine ⟨fun h => ?_, read_of_fault⟩
  rcases accepted_or_fault catalog seen item with ⟨k, hk⟩ | ⟨e', hfault⟩
  · rw [read_eq_ok_iff_accepted.2 hk] at h
    cases h
  · rw [read_of_fault hfault] at h
    cases h
    exact hfault

/-! ## Reading items in order -/

/-- The criteria that items spell, one for each item, no metric twice. -/
structure Listed (catalog : Catalog) (pieces : List (List Char)) (criteria : List Criterion) : Prop where
  accepted : List.Forall₂ (Accepted catalog) pieces criteria
  nodup : (criteria.map Criterion.metric).Nodup

theorem listed_map_trim_iff {pieces : List (List Char)} {criteria : List Criterion} :
    Listed catalog (pieces.map trim) criteria ↔ Listed catalog pieces criteria := by
  have hall : List.Forall₂ (Accepted catalog) (pieces.map trim) criteria ↔
      List.Forall₂ (Accepted catalog) pieces criteria := by
    rw [List.forall₂_map_left_iff]
    simp only [accepted_trim_iff]
  exact ⟨fun h => ⟨hall.1 h.accepted, h.nodup⟩, fun h => ⟨hall.2 h.accepted, h.nodup⟩⟩

theorem readAll_eq_ok_iff : ∀ {seen : List String} {items : List (List Char)} {criteria : List Criterion},
    readAll catalog seen items = .ok criteria ↔ Listed catalog items criteria ∧ ∀ k ∈ criteria, k.metric ∉ seen
  | seen, [], criteria => by
    constructor
    · intro h
      cases h
      exact ⟨⟨.nil, List.nodup_nil⟩, List.forall_mem_nil _⟩
    · rintro ⟨⟨hall, -⟩, -⟩
      cases hall
      rfl
  | seen, item :: items, criteria => by
    rw [readAll_cons_eq_ok_iff]
    constructor
    · rintro ⟨first, rest, hfirst, hrest, rfl⟩
      obtain ⟨haccepted, hnew⟩ := read_eq_ok_iff_accepted.1 hfirst
      obtain ⟨⟨hall, hnodup⟩, hapart⟩ := readAll_eq_ok_iff.1 hrest
      simp only [List.mem_cons, not_or] at hapart
      refine ⟨⟨.cons haccepted hall, List.nodup_cons.2 ⟨?_, hnodup⟩⟩,
        List.forall_mem_cons.2 ⟨hnew, fun k hk => (hapart k hk).2⟩⟩
      intro hmem
      obtain ⟨k, hk, heq⟩ := List.mem_map.1 hmem
      exact (hapart k hk).1 heq
    · rintro ⟨⟨hall, hnodup⟩, hseen⟩
      obtain ⟨first, rest, haccepted, hrest, rfl⟩ := List.forall₂_cons_left_iff.1 hall
      obtain ⟨hfirst, hnodup⟩ := List.nodup_cons.1 hnodup
      obtain ⟨hnew, hapart⟩ := List.forall_mem_cons.1 hseen
      refine ⟨first, rest, read_eq_ok_iff_accepted.2 ⟨haccepted, hnew⟩, readAll_eq_ok_iff.2 ⟨⟨hrest, hnodup⟩, ?_⟩, rfl⟩
      intro k hk
      rw [List.mem_cons, not_or]
      exact ⟨fun heq => hfirst (heq ▸ List.mem_map_of_mem hk), hapart k hk⟩

/-- **Items are read up to the first fault**, and what is a fault there depends on the criteria before it. -/
theorem readAll_eq_error_iff {e : ExpressionError} : ∀ {seen : List String} {items : List (List Char)},
    readAll catalog seen items = .error e ↔ ∃ before item after criteria, items = before ++ item :: after ∧
      readAll catalog seen before = .ok criteria ∧ Fault catalog (criteria.map Criterion.metric ++ seen) item e
  | seen, [] => by
    constructor
    · intro h
      cases h
    · rintro ⟨before, item, after, -, h, -⟩
      exact absurd h.symm (List.append_ne_nil_of_right_ne_nil _ (List.cons_ne_nil item after))
  | seen, item :: items => by
    rw [readAll_cons_eq_error_iff]
    constructor
    · rintro (h | ⟨first, hfirst, h⟩)
      · exact ⟨[], item, items, [], rfl, rfl, read_eq_error_iff.1 h⟩
      · obtain ⟨before, item', after, criteria, rfl, hbefore, hfault⟩ := readAll_eq_error_iff.1 h
        -- the reader puts the metric of each item in front of the earlier ones, the list of criteria has it behind them
        refine ⟨item :: before, item', after, first :: criteria, rfl,
          readAll_cons_eq_ok_iff.2 ⟨first, criteria, hfirst, hbefore, rfl⟩, hfault.congr fun metric => ?_⟩
        simp only [List.mem_append, List.mem_cons, List.map_cons]
        tauto
    · rintro ⟨before, item', after, criteria, heq, hbefore, hfault⟩
      cases before with
      | nil =>
        cases heq
        cases hbefore
        exact Or.inl (read_of_fault hfault)
      | cons first' before =>
        cases heq
        obtain ⟨first, rest, hfirst, hrest, rfl⟩ := readAll_cons_eq_ok_iff.1 hbefore
        refine Or.inr ⟨first, hfirst, readAll_eq_error_iff.2 ⟨before, item', after, rest, rfl, hrest,
          hfault.congr fun metric => ?_⟩⟩
        simp only [List.mem_append, List.mem_cons, List.map_cons]
        tauto

end Criterion

/-! ## Lists -/

namespace Objective

variable {catalog : Catalog} {text : String}

theorem weight?_of_mem {objective : Objective} (hnodup : objective.metrics.Nodup) {k : Criterion}
    (hk : k ∈ objective.criteria) : objective.weight? k.metric = some k.weight := by
  have hfind : objective.criteria.find? (fun k' => k'.metric = k.metric) = some k := by
    obtain ⟨before, after, heq⟩ := List.append_of_mem hk
    rw [List.find?_eq_some_iff_append]
    refine ⟨decide_eq_true rfl, before, after, heq, fun k' hk' => ?_⟩
    rw [metrics, heq, List.map_append, List.map_cons, List.nodup_middle, List.nodup_cons, List.mem_append,
      not_or] at hnodup
    have hne : k'.metric ≠ k.metric := fun hmetric => hnodup.1.1 (hmetric ▸ List.mem_map_of_mem hk')
    simpa using hne
  unfold weight?
  rw [hfind]
  rfl

theorem read_eq_ok_iff_listed {objective : Objective} : read catalog text = .ok objective ↔
    (∀ piece ∈ text.toList.splitOn ',', piece.all isBlank = false) ∧
      Criterion.Listed catalog (text.toList.splitOn ',') objective.criteria := by
  rw [read_eq_ok_iff]
  constructor
  · rintro ⟨found, hitems, hall⟩
    obtain ⟨hblank, rfl⟩ := items_eq_ok_iff.1 hitems
    exact ⟨hblank, Criterion.listed_map_trim_iff.1 (Criterion.readAll_eq_ok_iff.1 hall).1⟩
  · rintro ⟨hblank, hlisted⟩
    exact ⟨_, items_eq_ok_iff.2 ⟨hblank, rfl⟩, Criterion.readAll_eq_ok_iff.2
      ⟨Criterion.listed_map_trim_iff.2 hlisted, fun k _ => List.not_mem_nil⟩⟩

theorem read_eq_error_iff {e : ExpressionError} : read catalog text = .error e ↔
    items (.noCriteria text) text = .error e ∨
      ∃ found, items (.noCriteria text) text = .ok found ∧ Criterion.readAll catalog [] found = .error e := by
  unfold read
  cases hitems : items (.noCriteria text) text with
  | error e' => simp
  | ok found => cases hall : Criterion.readAll catalog [] found <;> simp [hall, Except.map]

/-- **The lists of criteria that are accepted are those of the grammar**: a list with commas between its items, each of
which spells a criterion under another metric of the catalog.  It gives these criteria in their order, so every metric
has the weight that was written for it.  Any other list is refused: when it is blank, or else for a blank item, or else
for the first item at fault. -/
theorem read_grammar (catalog : Catalog) (text : String) :
    (∀ objective : Objective, read catalog text = .ok objective ↔
      ∃ pieces, pieces ≠ [] ∧ (∀ piece ∈ pieces, ',' ∉ piece) ∧ text.toList = [','].intercalate pieces ∧
        Criterion.Listed catalog pieces objective.criteria) ∧
    (∀ objective : Objective, read catalog text = .ok objective →
      objective.criteria.length = (text.toList.splitOn ',').length ∧ objective.metrics.Nodup ∧
        (∀ metric ∈ objective.metrics, metric ∈ catalog.metrics) ∧
        ∀ k ∈ objective.criteria, objective.weight? k.metric = some k.weight) ∧
    ∀ e, read catalog text = .error e ↔
      (Text.allBlank text = true ∧ e = .noCriteria text) ∨
      (Text.allBlank text = false ∧ (∃ piece ∈ text.toList.splitOn ',', piece.all isBlank = true) ∧
        e = .malformedItem (Text.trimmed text)) ∨
      ((∀ piece ∈ text.toList.splitOn ',', piece.all isBlank = false) ∧
        ∃ before item after criteria, (text.toList.splitOn ',').map trim = before ++ item :: after ∧
          Criterion.Listed catalog before criteria ∧
            Criterion.Fault catalog (criteria.map Criterion.metric) item e) := by
  refine ⟨fun objective => ?_, fun objective h => ?_, fun e => ?_⟩
  · rw [read_eq_ok_iff_listed]
    constructor
    · rintro ⟨-, hlisted⟩
      exact ⟨_, List.splitOn_ne_nil ',' _, fun piece => Text.not_mem_of_mem_splitOn,
        (List.intercalate_splitOn ',').symm, hlisted⟩
    · rintro ⟨pieces, hne, hcomma, htext, hlisted⟩
      rw [htext, List.splitOn_intercalate ',' hcomma hne]
      have hwritten := hlisted.accepted.imp fun piece k h => And.intro h.written.not_blank h
      exact ⟨((List.forall₂_and_left _ _).1 hwritten).1, hlisted⟩
  · obtain ⟨-, hlisted⟩ := read_eq_ok_iff_listed.1 h
    refine ⟨hlisted.accepted.length_eq.symm, hlisted.nodup, ?_, fun k hk => weight?_of_mem hlisted.nodup hk⟩
    rintro metric hmetric
    obtain ⟨k, hk, rfl⟩ := List.mem_map.1 hmetric
    exact Catalog.contains_iff.1 (Objective.of_read h k hk).2
  · rw [read_eq_error_iff, ← or_assoc, ← items_eq_error_iff]
    refine or_congr_right ?_
    simp only [items_eq_ok_iff, Criterion.readAll_eq_error_iff, Criterion.readAll_eq_ok_iff, List.not_mem_nil,
      not_false_eq_true, implies_true, and_true, List.append_nil]
    constructor
    · rintro ⟨_, ⟨hblank, rfl⟩, h⟩
      exact ⟨hblank, h⟩
    · rintro ⟨hblank, h⟩
      exact ⟨_, ⟨hblank, rfl⟩, h⟩

/-- Of two criteria between blank characters, and of a metric that is weighted again before an item that is malformed.
-/
theorem read_grammar_of_repeats :
    read ⟨["goals", "fouls"]⟩ " goals = 1.5 ,fouls=-3" = .ok ⟨[⟨"goals", 1.5⟩, ⟨"fouls", -3.0⟩]⟩ ∧
      (Objective.mk [⟨"goals", 1.5⟩, ⟨"fouls", -3.0⟩]).weight? "fouls" = some (-3.0) ∧
      read ⟨["goals", "fouls"]⟩ "fouls=-1,goals=2, fouls =0,=" = .error (.repeatedMetric "fouls") := by
  obtain ⟨hread, hlisted, -⟩ := read_grammar ⟨["goals", "fouls"]⟩ " goals = 1.5 ,fouls=-3"
  obtain ⟨-, -, herror⟩ := read_grammar ⟨["goals", "fouls"]⟩ "fouls=-1,goals=2, fouls =0,="
  have hok := (hread ⟨[⟨"goals", 1.5⟩, ⟨"fouls", -3.0⟩]⟩).2 ⟨[" goals = 1.5 ".toList, "fouls=-3".toList],
    List.cons_ne_nil _ _, by decide, by decide, .cons ?_ (.cons ?_ .nil), by decide⟩
  · refine ⟨hok, (hlisted _ hok).2.2.2 ⟨"fouls", -3.0⟩ (by simp), (herror _).2 (Or.inr (Or.inr ⟨by decide,
      ["fouls=-1".toList, "goals=2".toList], "fouls =0".toList, ["=".toList],
      [⟨"fouls", -1.0⟩, ⟨"goals", 2.0⟩], by decide, ⟨.cons ?_ (.cons ?_ .nil), by decide⟩, ?_⟩))⟩
    · exact ⟨⟨"fouls".toList, "-1".toList, ⟨rfl, by decide, by decide⟩, rfl, by decide +kernel⟩, by decide, by decide⟩
    · exact ⟨⟨"goals".toList, "2".toList, ⟨rfl, by decide, by decide⟩, rfl, by decide +kernel⟩, by decide, by decide⟩
    · have hsides : Criterion.Sides "fouls =0".toList "fouls ".toList "0".toList := ⟨rfl, by decide, by decide⟩
      have hnumber : Number.readFinite? "0".toList = some 0.0 := by decide +kernel
      exact .repeatedMetric hsides (by decide) hnumber (by decide) (by decide)
  · exact ⟨⟨" goals ".toList, " 1.5 ".toList, ⟨rfl, by decide, by decide⟩, rfl, by decide +kernel⟩, by decide,
      by decide⟩
  · exact ⟨⟨"fouls".toList, "-3".toList, ⟨rfl, by decide, by decide⟩, rfl, by decide +kernel⟩, by decide, by decide⟩

end Objective

end Lineup
