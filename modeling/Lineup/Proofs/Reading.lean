import Lineup.Proofs.Items
import Lineup.Proofs.Stages
/-!
# Reading — what is read from criteria and bounds

Weights and thresholds are read as finite numbers, under metrics of the catalog; a text with anything else is refused as
a whole.  A bound is cut at the first place of the first token that occurs in it, and a list of bounds is refused for
the first fault.
-/
namespace Lineup

open Text (isBlank trim)

theorem Catalog.contains_iff {catalog : Catalog} {metric : String} :
    catalog.contains metric = true ↔ metric ∈ catalog.metrics := by
  simp [Catalog.contains]

/-! ## Criteria -/

namespace Criterion

variable {catalog : Catalog} {seen : List String} {k : Criterion}

theorem read_eq_ok_iff {item : List Char} : read catalog seen item = .ok k ↔
    ∃ left right, item = left ++ '=' :: right ∧ '=' ∉ left ∧ '=' ∉ right ∧ k.metric = String.ofList (trim left) ∧
      k.metric ≠ "" ∧ Number.readFinite? right = some k.weight ∧ k.metric ∈ catalog.metrics ∧ k.metric ∉ seen := by
  unfold read
  cases hcut : Text.cut? ['='] item with
  | none =>
    simp only [reduceCtorEq, false_iff]
    rintro ⟨left, right, heq, hleft, -⟩
    rw [Text.cut?_singleton_iff.2 ⟨heq, hleft⟩] at hcut
    cases hcut
  | some sides =>
    obtain ⟨left, right⟩ := sides
    obtain ⟨rfl, hleft⟩ := Text.cut?_singleton_iff.1 hcut
    dsimp only
    constructor
    · intro h
      split at h
      · cases h
      · rename_i hfault
        split at h
        · cases h
        · rename_i weight hweight
          split at h
          · cases h
          · rename_i hcatalog
            split at h
            · cases h
            · rename_i hseen
              cases h
              simp only [Bool.or_eq_true, List.contains_iff_mem, decide_eq_true_eq, not_or] at hfault
              refine ⟨left, right, rfl, hleft, hfault.1, rfl, hfault.2, hweight, ?_, by simpa using hseen⟩
              simpa [Catalog.contains_iff] using hcatalog
    · rintro ⟨left', right', heq, hleft', hright, hmetric, hne, hweight, hcatalog, hseen⟩
      -- an item has one first equals sign, so these are the sides that were cut
      obtain ⟨rfl, rfl⟩ : left' = left ∧ right' = right := by
        have := Text.cut?_singleton_iff.2 ⟨heq, hleft'⟩
        rw [hcut] at this
        cases this
        exact ⟨rfl, rfl⟩
      obtain ⟨metric, weight⟩ := k
      dsimp only at hmetric hne hweight hcatalog hseen
      subst hmetric
      simp [hright, hne, hweight, Catalog.contains_iff.2 hcatalog, hseen]

theorem readAll_cons_eq_ok_iff {item : List Char} {items : List (List Char)} {criteria : List Criterion} :
    readAll catalog seen (item :: items) = .ok criteria ↔ ∃ first rest, read catalog seen item = .ok first ∧
      readAll catalog (first.metric :: seen) items = .ok rest ∧ criteria = first :: rest := by
  rw [readAll]
  cases hitem : read catalog seen item with
  | error e => simp
  | ok first => cases hrest : readAll catalog (first.metric :: seen) items <;> simp [hrest, Except.map, eq_comm]

theorem readAll_cons_eq_error_iff {item : List Char} {items : List (List Char)} {e : ExpressionError} :
    readAll catalog seen (item :: items) = .error e ↔ read catalog seen item = .error e ∨
      ∃ first, read catalog seen item = .ok first ∧ readAll catalog (first.metric :: seen) items = .error e := by
  rw [readAll]
  cases hitem : read catalog seen item with
  | error e' => simp
  | ok first => cases hrest : readAll catalog (first.metric :: seen) items <;> simp [hrest, Except.map]

theorem exists_read_of_mem : ∀ {seen : List String} {items : List (List Char)} {criteria : List Criterion},
    readAll catalog seen items = .ok criteria → k ∈ criteria → ∃ item ∈ items, ∃ seen, read catalog seen item = .ok k
  | seen, [], criteria, h, hk => by
    cases h
    cases hk
  | seen, item :: items, criteria, h, hk => by
    obtain ⟨first, rest, hitem, hrest, rfl⟩ := readAll_cons_eq_ok_iff.1 h
    rcases List.mem_cons.1 hk with rfl | hk
    · exact ⟨item, List.mem_cons_self, seen, hitem⟩
    · obtain ⟨item', hitem', hread⟩ := exists_read_of_mem hrest hk
      exact ⟨item', List.mem_cons_of_mem item hitem', hread⟩

theorem of_readAll {items : List (List Char)} {criteria : List Criterion}
    (h : readAll catalog seen items = .ok criteria) (hk : k ∈ criteria) :
    k.weight.isFinite = true ∧ catalog.contains k.metric = true := by
  obtain ⟨item, -, seen, hread⟩ := exists_read_of_mem h hk
  obtain ⟨left, right, -, -, -, -, -, hnumber, hcatalog, -⟩ := read_eq_ok_iff.1 hread
  exact ⟨Number.isFinite_of_readFinite? hnumber, Catalog.contains_iff.2 hcatalog⟩

end Criterion

theorem Objective.read_eq_ok_iff {catalog : Catalog} {text : String} {objective : Objective} :
    read catalog text = .ok objective ↔ ∃ found, items (.noCriteria text) text = .ok found ∧
      Criterion.readAll catalog [] found = .ok objective.criteria := by
  unfold read
  cases hitems : items (.noCriteria text) text with
  | error e => simp
  | ok found =>
    obtain ⟨criteria⟩ := objective
    cases hall : Criterion.readAll catalog [] found <;> simp [hall, Except.map]

theorem Objective.of_read {catalog : Catalog} {text : String} {objective : Objective}
    (h : Objective.read catalog text = .ok objective) :
    ∀ k ∈ objective.criteria, k.weight.isFinite = true ∧ catalog.contains k.metric = true := by
  obtain ⟨found, -, hall⟩ := Objective.read_eq_ok_iff.1 h
  exact fun k hk => Criterion.of_readAll hall hk

namespace Bound

variable {catalog : Catalog} {item left right : List Char} {sense : Sense} {b : Bound}

/-! ## One bound -/

theorem foreign_of_mark : ∀ c ∈ ['<', '>', '='], Number.inNumeral c = false ∧ isBlank c = false := by
  simp only [List.mem_cons, List.not_mem_nil, or_false, forall_eq_or_imp, forall_eq]
  decide

theorem marks_not_mem {number : List Char} {x : Float} (h : Number.readFinite? number = some x) :
    ∀ c ∈ ['<', '>', '='], c ∉ number := fun c hc =>
  Number.not_mem_of_readFinite? h (foreign_of_mark c hc).1 (foreign_of_mark c hc).2

/-- Where an item is cut: at the first place of the first spelling that occurs in it. -/
def CutAt (item left : List Char) (sense : Sense) (right : List Char) : Prop :=
  ∃ earlier token later, Sense.spellings = earlier ++ (token, sense) :: later ∧ (∀ s ∈ earlier, ¬ s.1 <:+: item) ∧
    item = left ++ token ++ right ∧ ¬ token <:+: left ++ token.dropLast

theorem token_ne_nil {token : List Char} (h : (token, sense) ∈ Sense.spellings) : token ≠ [] := by
  have hall : ∀ s ∈ Sense.spellings, s.1 ≠ [] := by decide
  exact hall _ h

theorem cut?_eq_some_iff : cut? item = some (left, sense, right) ↔ CutAt item left sense right := by
  unfold cut? CutAt
  rw [List.findSome?_eq_some_iff]
  constructor
  · rintro ⟨earlier, ⟨token, sense'⟩, later, heq, hcut, hearlier⟩
    obtain ⟨⟨l, r⟩, hsides, hpair⟩ := Option.map_eq_some_iff.1 hcut
    cases hpair
    have hne := token_ne_nil (heq ▸ List.mem_append_right earlier List.mem_cons_self)
    refine ⟨earlier, token, later, heq, fun s hs => ?_, (Text.cut?_eq_some_iff hne).1 hsides⟩
    exact Text.cut?_eq_none_iff.1 (Option.map_eq_none_iff.1 (hearlier s hs))
  · rintro ⟨earlier, token, later, heq, hearlier, hsides⟩
    have hne := token_ne_nil (heq ▸ List.mem_append_right earlier List.mem_cons_self)
    refine ⟨earlier, (token, sense), later, heq, ?_, fun s hs => ?_⟩
    · dsimp only
      rw [(Text.cut?_eq_some_iff hne).2 hsides]
      rfl
    · exact Option.map_eq_none_iff.2 (Text.cut?_eq_none_iff.2 (hearlier s hs))

theorem cut?_eq_none_iff : cut? item = none ↔ ∀ s ∈ Sense.spellings, ¬ s.1 <:+: item := by
  unfold cut?
  simp only [List.findSome?_eq_none_iff, Option.map_eq_none_iff, Text.cut?_eq_none_iff]

/-- What is wrong with an item, in the order in which it is looked for. -/
inductive Fault (catalog : Catalog) (item : List Char) : ExpressionError → Prop where
  | noComparator (h : ∀ s ∈ Sense.spellings, ¬ s.1 <:+: item) : Fault catalog item (.noComparator (String.ofList item))
  | blankMetric {left right : List Char} {sense : Sense} (hcut : CutAt item left sense right)
      (h : left.all isBlank = true) : Fault catalog item (.malformedItem (String.ofList item))
  | notNumber {left right : List Char} {sense : Sense} (hcut : CutAt item left sense right)
      (hmetric : left.all isBlank = false) (h : Number.readFinite? right = none) :
      Fault catalog item (.nonNumericValue (String.ofList item))
  | unknownMetric {left right : List Char} {sense : Sense} {x : Float} (hcut : CutAt item left sense right)
      (hmetric : left.all isBlank = false) (hnumber : Number.readFinite? right = some x)
      (h : String.ofList (trim left) ∉ catalog.metrics) :
      Fault catalog item (.unknownMetric (String.ofList (trim left)))

theorem ofList_trim_eq_empty_iff {cs : List Char} : String.ofList (trim cs) = "" ↔ cs.all isBlank = true := by
  rw [← Text.trim_eq_nil_iff, ← String.toList_inj, String.toList_ofList]
  rfl

theorem metric_ne_empty (h : left.all isBlank = false) : String.ofList (trim left) ≠ "" := fun hempty =>
  Bool.false_ne_true (h.symm.trans (ofList_trim_eq_empty_iff.1 hempty))

theorem read_cases (catalog : Catalog) (item : List Char) :
    (∃ b left right, read catalog item = .ok b ∧ CutAt item left b.sense right ∧ b.metric = String.ofList (trim left) ∧
      b.metric ≠ "" ∧ Number.readFinite? right = some b.threshold ∧ b.metric ∈ catalog.metrics) ∨
    ∃ e, read catalog item = .error e ∧ Fault catalog item e := by
  unfold read
  cases hcut : cut? item with
  | none => exact Or.inr ⟨_, rfl, .noComparator (cut?_eq_none_iff.1 hcut)⟩
  | some sides =>
    obtain ⟨left, sense, right⟩ := sides
    rw [cut?_eq_some_iff] at hcut
    dsimp only
    by_cases hblank : left.all isBlank = true
    · rw [if_pos (ofList_trim_eq_empty_iff.2 hblank)]
      exact Or.inr ⟨_, rfl, .blankMetric hcut hblank⟩
    · rw [Bool.not_eq_true] at hblank
      rw [if_neg (metric_ne_empty hblank)]
      cases hnumber : Number.readFinite? right with
      | none => exact Or.inr ⟨_, rfl, .notNumber hcut hblank hnumber⟩
      | some x =>
        dsimp only
        by_cases hcatalog : catalog.contains (String.ofList (trim left)) = true
        · rw [if_neg (by simp [hcatalog])]
          exact Or.inl ⟨_, left, right, rfl, hcut, rfl, metric_ne_empty hblank, hnumber,
            Catalog.contains_iff.1 hcatalog⟩
        · rw [if_pos (by simp [hcatalog])]
          exact Or.inr ⟨_, rfl, .unknownMetric hcut hblank hnumber (hcatalog ∘ Catalog.contains_iff.2)⟩

theorem read_of_fault {e : ExpressionError} (h : Fault catalog item e) : read catalog item = .error e := by
  unfold read
  cases h with
  | noComparator h => rw [cut?_eq_none_iff.2 h]
  | blankMetric hcut h =>
    rw [cut?_eq_some_iff.2 hcut]
    exact if_pos (ofList_trim_eq_empty_iff.2 h)
  | notNumber hcut hmetric h =>
    rw [cut?_eq_some_iff.2 hcut]
    dsimp only
    rw [if_neg (metric_ne_empty hmetric), h]
  | unknownMetric hcut hmetric hnumber h =>
    rw [cut?_eq_some_iff.2 hcut]
    dsimp only
    rw [if_neg (metric_ne_empty hmetric), hnumber]
    exact if_pos (by rw [Bool.not_eq_true', Bool.eq_false_iff, Ne, Catalog.contains_iff]; exact h)

theorem read_of_cutAt (hcut : CutAt item left b.sense right) (hmetric : b.metric = String.ofList (trim left))
    (hne : b.metric ≠ "") (hnumber : Number.readFinite? right = some b.threshold)
    (hcatalog : b.metric ∈ catalog.metrics) :
    read catalog item = .ok b := by
  unfold read
  rw [cut?_eq_some_iff.2 hcut]
  dsimp only
  rw [← hmetric, if_neg hne, hnumber]
  dsimp only
  rw [if_neg (by simp [Catalog.contains_iff.2 hcatalog])]

theorem read_eq_error_iff {e : ExpressionError} : read catalog item = .error e ↔ Fault catalog item e := by
  refine ⟨fun h => ?_, read_of_fault⟩
  rcases read_cases catalog item with ⟨b, _, _, hok, -⟩ | ⟨e', herror, hfault⟩
  · rw [hok] at h
    cases h
  · rw [herror] at h
    cases h
    exact hfault

theorem read_eq_ok_iff : read catalog item = .ok b ↔ ∃ left right, CutAt item left b.sense right ∧
    b.metric = String.ofList (trim left) ∧ b.metric ≠ "" ∧ Number.readFinite? right = some b.threshold ∧
      b.metric ∈ catalog.metrics := by
  constructor
  · intro h
    rcases read_cases catalog item with ⟨b', left, right, hok, hread⟩ | ⟨e, herror, -⟩
    · rw [hok] at h
      cases h
      exact ⟨left, right, hread⟩
    · rw [herror] at h
      cases h
  · rintro ⟨left, right, hcut, hmetric, hne, hnumber, hcatalog⟩
    exact read_of_cutAt hcut hmetric hne hnumber hcatalog

theorem of_read (h : read catalog item = .ok b) : b.threshold.isFinite = true ∧ catalog.contains b.metric = true := by
  obtain ⟨left, right, -, -, -, hnumber, hcatalog⟩ := read_eq_ok_iff.1 h
  exact ⟨Number.isFinite_of_readFinite? hnumber, Catalog.contains_iff.2 hcatalog⟩

/-! ## Lists of bounds -/

theorem readAll_eq_ok_iff {text : String} {bounds : List Bound} : readAll catalog text = .ok bounds ↔
    (∀ piece ∈ text.toList.splitOn ',', piece.all isBlank = false) ∧
      List.Forall₂ (fun piece b => read catalog (trim piece) = .ok b) (text.toList.splitOn ',') bounds := by
  unfold readAll
  cases hitems : items (.noBounds text) text with
  | error e =>
    simp only [reduceCtorEq, false_iff, not_and]
    intro hblank
    rw [items_eq_ok_iff.2 ⟨hblank, rfl⟩] at hitems
    cases hitems
  | ok found =>
    obtain ⟨hblank, rfl⟩ := items_eq_ok_iff.1 hitems
    dsimp only
    rw [mapM_eq_ok_iff, List.forall₂_map_left_iff]
    exact ⟨fun h => ⟨hblank, h⟩, And.right⟩

theorem forall_read_iff {items : List (List Char)} :
    (∀ item ∈ items, ∃ b, read catalog item = .ok b) ↔ ∀ item ∈ items, ∀ e, ¬ Fault catalog item e := by
  refine forall_congr' fun item => imp_congr_right fun _ => ?_
  constructor
  · rintro ⟨b, hok⟩ e hfault
    rw [read_of_fault hfault] at hok
    cases hok
  · intro hnone
    rcases read_cases catalog item with ⟨b, _, _, hok, -⟩ | ⟨e, -, hfault⟩
    · exact ⟨b, hok⟩
    · exact absurd hfault (hnone e)

/-- **A list is refused for its first fault**: that of the whole text, or else that of the first item at fault. -/
theorem readAll_eq_error_iff {text : String} {e : ExpressionError} : readAll catalog text = .error e ↔
    (Text.allBlank text = true ∧ e = .noBounds text) ∨
    (Text.allBlank text = false ∧ (∃ piece ∈ text.toList.splitOn ',', piece.all isBlank = true) ∧
      e = .malformedItem (Text.trimmed text)) ∨
    ((∀ piece ∈ text.toList.splitOn ',', piece.all isBlank = false) ∧
      ∃ before item after, (text.toList.splitOn ',').map trim = before ++ item :: after ∧
        (∀ earlier ∈ before, ∀ e', ¬ Fault catalog earlier e') ∧ Fault catalog item e) := by
  unfold readAll
  rw [← or_assoc, ← items_eq_error_iff]
  cases hitems : items (.noBounds text) text with
  | error e' =>
    dsimp only
    rw [Except.error.injEq, Except.error.injEq]
    constructor
    · exact Or.inl
    · rintro (h | ⟨hblank, -⟩)
      · exact h
      · rw [items_eq_ok_iff.2 ⟨hblank, rfl⟩] at hitems
        cases hitems
  | ok found =>
    obtain ⟨hblank, rfl⟩ := items_eq_ok_iff.1 hitems
    simp only [reduceCtorEq, false_or, mapM_eq_error_iff, forall_read_iff, read_eq_error_iff]
    exact ⟨fun h => ⟨hblank, h⟩, And.right⟩

theorem of_readAll {text : String} {bounds : List Bound} (h : readAll catalog text = .ok bounds) (hb : b ∈ bounds) :
    b.threshold.isFinite = true ∧ catalog.contains b.metric = true := by
  unfold readAll at h
  split at h
  · cases h
  · obtain ⟨item, -, hread⟩ := exists_of_mem_mapM h hb
    exact of_read hread

end Bound

/-! ## Requests -/

theorem Request.of_readBounds {request : Request} {catalog : Catalog} {bounds : List Bound}
    (h : request.readBounds catalog = .ok bounds) :
    ∀ b ∈ bounds, b.threshold.isFinite = true ∧ catalog.contains b.metric = true := by
  unfold Request.readBounds at h
  split at h
  · split at h
    · cases h
      intro b hb
      cases hb
    · exact fun b hb => Bound.of_readAll h hb
  · cases h
    intro b hb
    cases hb

/-- **Whatever a request names is in the catalog.** -/
theorem Request.contains_of_read {request : Request} {catalog : Catalog} {objective : Objective} {bounds : List Bound}
    (hobjective : Objective.read catalog request.criteria = .ok objective)
    (hbounds : request.readBounds catalog = .ok bounds) {metric : String}
    (hm : metric ∈ objective.metrics ++ bounds.map Bound.metric) : catalog.contains metric = true := by
  rcases List.mem_append.1 hm with hm | hm
  · obtain ⟨k, hk, rfl⟩ := List.mem_map.1 hm
    exact (Objective.of_read hobjective k hk).2
  · obtain ⟨b, hb, rfl⟩ := List.mem_map.1 hm
    exact (Request.of_readBounds hbounds b hb).2

end Lineup
