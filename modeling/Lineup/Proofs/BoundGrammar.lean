import Mathlib.Data.List.Count
import Lineup.Proofs.Reading
/-!
# BoundGrammar — the lists of bounds that are accepted

A bound is written as a metric, one of the tokens `<=`, `>=`, `==` and `=`, and a finite number.  The reader looks for
the tokens in this order, not from the left, yet it accepts exactly what is written this way: around the token of a
bound there is no other place where it could cut.  Whatever it refuses, it refuses for the first fault.
-/
namespace Lineup

open Text (Tight isBlank trim)

namespace Bound

variable {catalog : Catalog} {item left right : List Char} {sense : Sense} {b : Bound}

/-! ## Writing an item -/

def tokensOf : Sense → List (List Char)
  | .atMost => [['<', '=']]
  | .atLeast => [['>', '=']]
  | .equal => [['='], ['=', '=']]

theorem mem_spellings_iff {token : List Char} : (token, sense) ∈ Sense.spellings ↔ token ∈ tokensOf sense := by
  cases sense <;> simp [Sense.spellings, tokensOf, or_comm]

/-- **The grammar of a bound**: its metric, a token of its sense and a number that is its threshold. -/
def Written (item : List Char) (b : Bound) : Prop :=
  ∃ token number, token ∈ tokensOf b.sense ∧ Number.readFinite? number = some b.threshold ∧
    Spelled token b.metric.toList number item

/-- A metric that can stand before a token without being taken for something else. -/
structure Plain (metric : String) : Prop where
  ne_empty : metric ≠ ""
  tight : Tight metric.toList
  unmixed : ∀ c ∈ [',', '<', '>', '='], c ∉ metric.toList

theorem written_of_read {piece : List Char} (h : read catalog (trim piece) = .ok b) :
    Written piece b ∧ b.metric ≠ "" ∧ b.metric ∈ catalog.metrics := by
  obtain ⟨left, right, ⟨earlier, token, later, hspellings, -, heq, -⟩, hmetric, hne, hnumber, hcatalog⟩ :=
    read_eq_ok_iff.1 h
  obtain ⟨s, t, hs, ht, hpiece⟩ := Text.exists_pad piece
  obtain ⟨p, q, hp, hq, hleft⟩ := Text.exists_pad left
  have htoken : (token, b.sense) ∈ Sense.spellings := hspellings ▸ List.mem_append_right earlier List.mem_cons_self
  refine ⟨⟨token, right, mem_spellings_iff.1 htoken, hnumber,
    s ++ p, q, [], t, by simp [hs, hp], hq, rfl, ht, ?_⟩, hne, hcatalog⟩
  rw [hmetric, String.toList_ofList, hpiece, heq]
  conv => lhs; rw [hleft]
  simp

theorem not_infix_of_count {token cs : List Char} (c : Char) (h : cs.count c < token.count c) : ¬ token <:+: cs :=
  fun hin => Nat.not_lt.2 (hin.sublist.count_le c) h

theorem apart_of_mem_spellings {token : List Char} (h : (token, sense) ∈ Sense.spellings) :
    ∃ earlier later, Sense.spellings = earlier ++ (token, sense) :: later ∧
      (∀ s ∈ earlier, ∃ c ∈ ['<', '>', '='], token.count c < s.1.count c) ∧
      token.dropLast.count '=' < token.count '=' := by
  simp only [Sense.spellings, List.mem_cons, Prod.mk.injEq, List.not_mem_nil, or_false] at h
  rcases h with ⟨rfl, rfl⟩ | ⟨rfl, rfl⟩ | ⟨rfl, rfl⟩ | ⟨rfl, rfl⟩
  · exact ⟨[], _, rfl, by decide, by decide⟩
  · exact ⟨Sense.spellings.take 1, _, rfl, by simp [Sense.spellings], by decide⟩
  · exact ⟨Sense.spellings.take 2, _, rfl, by simp [Sense.spellings], by decide⟩
  · exact ⟨Sense.spellings.take 3, _, rfl, by simp [Sense.spellings], by decide⟩

/-- **Where nothing but the token holds its characters, the item is cut there**: the tokens that are looked for before
it do not occur, and it does not occur earlier. -/
theorem cutAt_of_mem_spellings {token : List Char} (htoken : (token, sense) ∈ Sense.spellings)
    (hleft : ∀ c ∈ ['<', '>', '='], c ∉ left) (hright : ∀ c ∈ ['<', '>', '='], c ∉ right) :
    CutAt (left ++ token ++ right) left sense right := by
  obtain ⟨earlier, later, hspellings, hapart, hlast⟩ := apart_of_mem_spellings htoken
  refine ⟨earlier, token, later, hspellings, fun s hs => ?_, rfl, not_infix_of_count '=' ?_⟩
  · obtain ⟨c, hc, hlt⟩ := hapart s hs
    refine not_infix_of_count c ?_
    rwa [List.count_append, List.count_append, List.count_eq_zero.2 (hleft c hc), List.count_eq_zero.2 (hright c hc),
      Nat.zero_add, Nat.add_zero]
  · rwa [List.count_append, List.count_eq_zero.2 (hleft '=' (by decide)), Nat.zero_add]

theorem read_of_written {piece : List Char} (h : Written piece b) (hplain : Plain b.metric)
    (hcatalog : b.metric ∈ catalog.metrics) : read catalog (trim piece) = .ok b := by
  obtain ⟨token, number, htoken, hnumber, hspelled⟩ := h
  obtain ⟨left, right, hsides, htrim, hright, hleft⟩ :=
    hspelled.sides hplain.tight (by simpa using hplain.ne_empty) hnumber
  rw [hsides]
  refine read_of_cutAt (cutAt_of_mem_spellings (mem_spellings_iff.2 htoken) (fun c hc => ?_) fun c hc => ?_) ?_
    hplain.ne_empty hright hcatalog
  · exact hleft c (hplain.unmixed c (List.mem_cons_of_mem ',' hc)) (foreign_of_mark c hc).2
  · exact marks_not_mem hright c hc
  · rw [htrim, String.ofList_toList]

theorem not_blank_of_written {piece : List Char} (h : Written piece b) (hplain : Plain b.metric) :
    piece.all isBlank = false := by
  obtain ⟨token, number, -, -, hspelled⟩ := h
  exact hspelled.not_blank hplain.tight (by simpa using hplain.ne_empty)

theorem comma_not_mem_of_written {piece : List Char} (h : Written piece b) (hplain : Plain b.metric) : ',' ∉ piece := by
  obtain ⟨token, number, htoken, hnumber, hspelled⟩ := h
  have hall : ∀ s ∈ Sense.spellings, ',' ∉ s.1 := by decide
  exact hspelled.not_mem hnumber (hplain.unmixed ',' List.mem_cons_self) (hall _ (mem_spellings_iff.2 htoken)) rfl rfl

theorem eq_of_written {piece : List Char} {b' : Bound} (h : Written piece b) (hplain : Plain b.metric)
    (h' : Written piece b') (hplain' : Plain b'.metric) : b = b' := by
  -- under a catalog of both metrics, the piece is read as either bound
  have hread : read ⟨[b.metric, b'.metric]⟩ (trim piece) = .ok b := read_of_written h hplain (by simp)
  rw [read_of_written h' hplain' (by simp)] at hread
  cases hread
  rfl

/-! ## Lists -/

/-- **The lists of bounds that are accepted are those of the grammar**, each with its one reading, and the others are
refused for their first fault. -/
theorem readAll_grammar (catalog : Catalog) :
    (∀ text bounds, readAll catalog text = .ok bounds → bounds ≠ [] ∧
      ∃ pieces, text.toList = [','].intercalate pieces ∧
        List.Forall₂ (fun piece b => ',' ∉ piece ∧ Written piece b ∧ b.metric ≠ "" ∧ b.metric ∈ catalog.metrics)
          pieces bounds) ∧
    (∀ pieces bounds, bounds ≠ [] →
      List.Forall₂ (fun piece b => Written piece b ∧ Plain b.metric ∧ b.metric ∈ catalog.metrics) pieces bounds →
        readAll catalog (String.ofList ([','].intercalate pieces)) = .ok bounds) ∧
    (∀ piece b b', Written piece b → Plain b.metric → Written piece b' → Plain b'.metric → b = b') ∧
    ∀ text e, readAll catalog text = .error e ↔
      (Text.allBlank text = true ∧ e = .noBounds text) ∨
      (Text.allBlank text = false ∧ (∃ piece ∈ text.toList.splitOn ',', piece.all isBlank = true) ∧
        e = .malformedItem (Text.trimmed text)) ∨
      ((∀ piece ∈ text.toList.splitOn ',', piece.all isBlank = false) ∧
        ∃ before item after, (text.toList.splitOn ',').map trim = before ++ item :: after ∧
          (∀ earlier ∈ before, ∀ e', ¬ Fault catalog earlier e') ∧ Fault catalog item e) := by
  refine ⟨fun text bounds h => ?_, fun pieces bounds hne hall => ?_, fun piece b b' => ?_, fun text e => ?_⟩
  · obtain ⟨-, hread⟩ := readAll_eq_ok_iff.1 h
    refine ⟨?_, text.toList.splitOn ',', (List.intercalate_splitOn ',').symm, ?_⟩
    · rintro rfl
      exact List.splitOn_ne_nil ',' _ (List.forall₂_nil_right_iff.1 hread)
    · refine (List.forall₂_and_left _ _).2 ⟨fun piece => Text.not_mem_of_mem_splitOn, hread.imp fun piece b => ?_⟩
      exact written_of_read
  · have hread : List.Forall₂ (fun piece b => (',' ∉ piece ∧ piece.all isBlank = false) ∧
        read catalog (trim piece) = .ok b) pieces bounds := by
      refine hall.imp fun piece b ⟨hwritten, hplain, hcatalog⟩ => ?_
      exact ⟨⟨comma_not_mem_of_written hwritten hplain, not_blank_of_written hwritten hplain⟩,
        read_of_written hwritten hplain hcatalog⟩
    obtain ⟨hpieces, hread⟩ := (List.forall₂_and_left _ _).1 hread
    have hsplit : ([','].intercalate pieces).splitOn ',' = pieces := by
      refine List.splitOn_intercalate ',' (fun piece hpiece => (hpieces piece hpiece).1) ?_
      rintro rfl
      exact hne (List.forall₂_nil_left_iff.1 hread)
    rw [readAll_eq_ok_iff, String.toList_ofList, hsplit]
    exact ⟨fun piece hpiece => (hpieces piece hpiece).2, hread⟩
  · exact eq_of_written
  · exact readAll_eq_error_iff

/-- Of two bounds between blank characters, and of an item whose first token is followed by another equals sign. -/
theorem readAll_grammar_of_overlaps :
    readAll ⟨["a", "b"]⟩ " a <= 1,b==-2.5" = .ok [⟨"a", .atMost, 1.0⟩, ⟨"b", .equal, -2.5⟩] ∧
      readAll ⟨["a", "b"]⟩ "a<==3,=" = .error (.nonNumericValue "a<==3") := by
  obtain ⟨-, hwritten, -, hrefused⟩ := readAll_grammar ⟨["a", "b"]⟩
  constructor
  · refine hwritten [" a <= 1".toList, "b==-2.5".toList] _ (List.cons_ne_nil _ _) ?_
    have hplain : ∀ metric ∈ ["a", "b"], Plain metric := by
      intro metric hmetric
      simp only [List.mem_cons, List.not_mem_nil, or_false] at hmetric
      rcases hmetric with rfl | rfl <;> exact ⟨by decide, ⟨by rintro _ ⟨⟩; rfl, by rintro _ ⟨⟩; rfl⟩, by simp⟩
    refine .cons ⟨⟨['<', '='], "1".toList, by decide, by decide +kernel, [' '], [' '], [' '], [], rfl, rfl, rfl, rfl,
      rfl⟩, hplain "a" (by decide), by decide⟩ (.cons ⟨⟨['=', '='], "-2.5".toList, by decide, by decide +kernel, [], [],
      [], [], rfl, rfl, rfl, rfl, rfl⟩, hplain "b" (by decide), by decide⟩ .nil)
  · refine (hrefused "a<==3,=" _).2 (Or.inr (Or.inr ⟨by decide, [], "a<==3".toList, ["=".toList], by decide,
      List.forall_mem_nil _, ?_⟩))
    have hcut : CutAt "a<==3".toList ['a'] .atMost ['=', '3'] :=
      ⟨[], ['<', '='], _, rfl, List.forall_mem_nil _, rfl, by decide⟩
    exact .notNumber hcut (by decide) (by decide)

end Bound

end Lineup
