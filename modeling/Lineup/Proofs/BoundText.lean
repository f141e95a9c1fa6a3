import Lineup.Proofs.Reading
/-!
# BoundText — which bounds are read back from their text

A bound is written out as its metric, the symbol of its sense and its threshold, with nothing between them.  The reader
may cut such a text somewhere else: at a comma or a token inside the metric, or at a token that the end of the metric
makes with the symbol.  `Legible` says when it does not, and this depends on the sense, as some tokens are looked for
before others.
-/
namespace Lineup

open Text (Tight isBlank trim)

namespace Bound

variable {catalog : Catalog} {item metric number left right : List Char} {sense : Sense} {b : Bound}

/-- A metric whose bounds of this sense can be read back. -/
structure Legible (metric : String) (sense : Sense) : Prop where
  ne_empty : metric ≠ ""
  tight : Tight metric.toList
  no_comma : ',' ∉ metric.toList
  no_atMost : ¬ ['<', '='] <:+: metric.toList
  no_atLeast : sense = .atLeast → ¬ ['>', '='] <:+: metric.toList
  no_equal : sense = .equal → '=' ∉ metric.toList ∧ ∀ c ∈ metric.toList.getLast?, c ≠ '<' ∧ c ≠ '>'

/-! ## The place of a cut -/

theorem cutAt_iff_index : CutAt item left sense right ↔ ∃ k token, Sense.spellings[k]? = some (token, sense) ∧
    (∀ s ∈ Sense.spellings.take k, ¬ s.1 <:+: item) ∧ item = left ++ token ++ right ∧
      ¬ token <:+: left ++ token.dropLast := by
  constructor
  · rintro ⟨earlier, token, later, heq, hearlier, hsides⟩
    refine ⟨earlier.length, token, ?_, ?_, hsides⟩
    · rw [heq, List.getElem?_append_right (Nat.le_refl _), Nat.sub_self]
      rfl
    · rwa [heq, List.take_left]
  · rintro ⟨k, token, hk, hearlier, hsides⟩
    obtain ⟨hlt, hget⟩ := List.getElem?_eq_some_iff.1 hk
    refine ⟨_, token, Sense.spellings.drop (k + 1), ?_, hearlier, hsides⟩
    rw [← hget, List.getElem_cons_drop, List.take_append_drop]

theorem getElem?_spellings {k : Nat} {token : List Char} : Sense.spellings[k]? = some (token, sense) ↔
    (sense = .atMost ∧ k = 0 ∧ token = ['<', '=']) ∨ (sense = .atLeast ∧ k = 1 ∧ token = ['>', '=']) ∨
      (sense = .equal ∧ k = 2 ∧ token = ['=', '=']) ∨ (sense = .equal ∧ k = 3 ∧ token = ['=']) := by
  match k with
  | 0 | 1 | 2 | 3 => simp [Sense.spellings, and_comm, eq_comm]
  | _ + 4 => simp [Sense.spellings]

theorem cutAt_atMost_iff : CutAt item left .atMost right ↔
    item = left ++ ['<', '='] ++ right ∧ ¬ ['<', '='] <:+: left ++ ['<'] := by
  rw [cutAt_iff_index]
  constructor
  · rintro ⟨k, token, hk, -, hsides⟩
    obtain ⟨rfl, rfl⟩ : k = 0 ∧ token = ['<', '='] := by simpa using getElem?_spellings.1 hk
    exact hsides
  · intro hsides
    exact ⟨0, ['<', '='], rfl, List.forall_mem_nil _, hsides⟩

theorem cutAt_atLeast_iff : CutAt item left .atLeast right ↔
    ¬ ['<', '='] <:+: item ∧ item = left ++ ['>', '='] ++ right ∧ ¬ ['>', '='] <:+: left ++ ['>'] := by
  rw [cutAt_iff_index]
  constructor
  · rintro ⟨k, token, hk, hearlier, hsides⟩
    obtain ⟨rfl, rfl⟩ : k = 1 ∧ token = ['>', '='] := by simpa using getElem?_spellings.1 hk
    exact ⟨hearlier (['<', '='], .atMost) (by decide), hsides⟩
  · rintro ⟨hatMost, hsides⟩
    exact ⟨1, ['>', '='], rfl, by simpa [Sense.spellings] using hatMost, hsides⟩

theorem cutAt_equal_iff : CutAt item left .equal right ↔ ¬ ['<', '='] <:+: item ∧ ¬ ['>', '='] <:+: item ∧
    ((item = left ++ ['=', '='] ++ right ∧ ¬ ['=', '='] <:+: left ++ ['=']) ∨
      (¬ ['=', '='] <:+: item ∧ item = left ++ ['='] ++ right ∧ '=' ∉ left)) := by
  rw [cutAt_iff_index]
  constructor
  · rintro ⟨k, token, hk, hearlier, hsides⟩
    obtain ⟨rfl, rfl⟩ | ⟨rfl, rfl⟩ : k = 2 ∧ token = ['=', '='] ∨ k = 3 ∧ token = ['='] := by
      simpa using getElem?_spellings.1 hk
    · exact ⟨hearlier (['<', '='], .atMost) (by decide), hearlier (['>', '='], .atLeast) (by decide), Or.inl hsides⟩
    · exact ⟨hearlier (['<', '='], .atMost) (by decide), hearlier (['>', '='], .atLeast) (by decide),
        Or.inr ⟨hearlier (['=', '='], .equal) (by decide), by simpa [List.singleton_infix_iff] using hsides⟩⟩
  · rintro ⟨hatMost, hatLeast, hsides | ⟨hdouble, hsides⟩⟩
    · exact ⟨2, ['=', '='], rfl, by simpa [Sense.spellings] using ⟨hatMost, hatLeast⟩, hsides⟩
    · exact ⟨3, ['='], rfl, by simpa [Sense.spellings] using ⟨hatMost, hatLeast, hdouble⟩,
        by simpa [List.singleton_infix_iff] using hsides⟩

/-! ## Cutting a written bound -/

section Written

variable (hnumber : ∀ c ∈ ['<', '>', '='], c ∉ number)
include hnumber

/-- **Where the symbol of a written bound is cut**: no token that is looked for before it occurs, none earlier. -/
theorem cutAt_symbol_iff : CutAt (metric ++ sense.symbol.toList ++ number) metric sense number ↔
    ¬ ['<', '='] <:+: metric ∧ (sense = .atLeast → ¬ ['>', '='] <:+: metric) ∧
      (sense = .equal → '=' ∉ metric ∧ ∀ c ∈ metric.getLast?, c ≠ '<' ∧ c ≠ '>') := by
  have hpair : ∀ a ∈ ['<', '>', '='], ∀ cs, ¬ a :: cs <:+: number := fun a ha cs h =>
    hnumber a ha (h.subset List.mem_cons_self)
  have hatMost := hpair '<' (by decide) ['=']
  have hatLeast := hpair '>' (by decide) ['=']
  have hequal := hpair '=' (by decide)
  have hfirst : ¬ ['='] <+: number := fun h => hequal [] h.isInfix
  cases sense with
  | atMost =>
    rw [cutAt_atMost_iff]
    simp [Sense.symbol, Text.pair_infix_append_iff, List.infix_cons_iff]
  | atLeast =>
    rw [cutAt_atLeast_iff]
    simp [Sense.symbol, Text.pair_infix_append_iff, List.infix_cons_iff, hatMost]
  | equal =>
    have hcut : CutAt (metric ++ Sense.equal.symbol.toList ++ number) metric .equal number ↔
        ¬ ['<', '='] <:+: metric ∧ metric.getLast? ≠ some '<' ∧ ¬ ['>', '='] <:+: metric ∧ metric.getLast? ≠ some '>' ∧
          ¬ ['=', '='] <:+: metric ∧ metric.getLast? ≠ some '=' ∧ '=' ∉ metric := by
      rw [cutAt_equal_iff]
      simp [Sense.symbol, Text.pair_infix_append_iff, List.infix_cons_iff, hatMost, hatLeast, hequal, hfirst, and_assoc]
    have htoken : ∀ {a}, '=' ∉ metric → ¬ [a, '='] <:+: metric := fun hmark h => hmark (h.subset (by simp))
    rw [hcut]
    constructor
    · rintro ⟨hless, hlastLess, -, hlastMore, -, -, hmark⟩
      refine ⟨hless, nofun, fun _ => ⟨hmark, fun c hc => ⟨?_, ?_⟩⟩⟩
      · rintro rfl
        exact hlastLess hc
      · rintro rfl
        exact hlastMore hc
    · rintro ⟨hless, -, hall⟩
      obtain ⟨hmark, hlast⟩ := hall rfl
      exact ⟨hless, fun h => (hlast _ h).1 rfl, htoken hmark, fun h => (hlast _ h).2 rfl, htoken hmark,
        fun h => hmark (List.mem_of_getLast? h), hmark⟩

theorem eq_of_cutAt (h : CutAt (metric ++ sense.symbol.toList ++ number) left sense right) (hright : '=' ∉ right)
    (hmetric : trim left = metric) : left = metric ∧ right = number := by
  have hmark : '=' ∉ number := hnumber '=' (by decide)
  have hlength := Text.length_trim_le left
  cases sense with
  | atMost =>
    have heq : (metric ++ ['<']) ++ '=' :: number = (left ++ ['<']) ++ '=' :: right := by
      simpa [Sense.symbol] using (cutAt_atMost_iff.1 h).1
    obtain ⟨hleft, rfl⟩ := Text.eq_of_last heq hmark hright
    exact ⟨(List.append_cancel_right hleft).symm, rfl⟩
  | atLeast =>
    have heq : (metric ++ ['>']) ++ '=' :: number = (left ++ ['>']) ++ '=' :: right := by
      simpa [Sense.symbol] using (cutAt_atLeast_iff.1 h).2.1
    obtain ⟨hleft, rfl⟩ := Text.eq_of_last heq hmark hright
    exact ⟨(List.append_cancel_right hleft).symm, rfl⟩
  | equal =>
    obtain ⟨-, -, ⟨heq, -⟩ | ⟨-, heq, -⟩⟩ := cutAt_equal_iff.1 h
    · -- a second equals sign would belong to the metric, which the reader would then cut short
      have hdouble : metric ++ '=' :: number = (left ++ ['=']) ++ '=' :: right := by simpa [Sense.symbol] using heq
      obtain ⟨rfl, -⟩ := Text.eq_of_last hdouble hmark hright
      rw [hmetric, List.length_append, List.length_singleton] at hlength
      omega
    · have hsingle : metric ++ '=' :: number = left ++ '=' :: right := by simpa [Sense.symbol] using heq
      obtain ⟨rfl, rfl⟩ := Text.eq_of_last hsingle hmark hright
      exact ⟨rfl, rfl⟩

end Written

/-! ## Reading a written bound -/

theorem toList_text (b : Bound) : b.text.toList =
    b.metric.toList ++ b.sense.symbol.toList ++ (Number.plain.text b.threshold).toList := by
  simp [text]

theorem text_not_blank (b : Bound) : b.text.toList.all isBlank = false := by
  have hsymbol : b.sense.symbol.toList.all isBlank = false := by cases b.sense <;> decide
  rw [toList_text, List.all_append, List.all_append, hsymbol, Bool.and_false, Bool.false_and]

section Read

variable (hnumber : Number.finite? (Number.plain.text b.threshold) = some b.threshold)
include hnumber

theorem exists_trim_text (htight : Tight b.metric.toList) (hne : b.metric ≠ "") : ∃ number,
    trim b.text.toList = b.metric.toList ++ b.sense.symbol.toList ++ number ∧
      Number.readFinite? number = some b.threshold := by
  obtain ⟨p, q, hp, hq, hpad⟩ := Text.exists_pad (Number.plain.text b.threshold).toList
  have hcore := Number.trim_ne_nil_of_readFinite? hnumber
  refine ⟨p ++ trim (Number.plain.text b.threshold).toList, ?_, ?_⟩
  · have htext : b.text.toList = [] ++ (b.metric.toList ++ (b.sense.symbol.toList ++ p) ++
        trim (Number.plain.text b.threshold).toList) ++ q := by
      rw [toList_text]
      conv => lhs; rw [hpad]
      simp
    rw [htext, Text.trim_pad rfl hq,
      Text.trim_of_tight (htight.append (Text.tight_trim _) (by simpa using hne) hcore (b.sense.symbol.toList ++ p))]
    simp
  · have htrim := Text.trim_pad hp (t := []) rfl (trim (Number.plain.text b.threshold).toList)
    rw [List.append_nil, Text.trim_of_tight (Text.tight_trim _)] at htrim
    rw [Number.readFinite?_congr htrim]
    exact hnumber

theorem comma_mem_text_iff : ',' ∈ b.text.toList ↔ ',' ∈ b.metric.toList := by
  have hdigits : ',' ∉ (Number.plain.text b.threshold).toList := Number.not_mem_of_readFinite? hnumber rfl rfl
  have hsymbol : ',' ∉ b.sense.symbol.toList := by cases b.sense <;> decide
  rw [toList_text, List.mem_append, List.mem_append]
  simp [hdigits, hsymbol]

/-- **The bounds that are read back from their text** are those with a legible metric. -/
theorem readAll_text_iff (hcatalog : b.metric ∈ catalog.metrics) :
    readAll catalog b.text = .ok [b] ↔ Legible b.metric b.sense := by
  constructor
  · intro h
    obtain ⟨piece, rest, hread, hrest, hpieces⟩ := List.forall₂_cons_right_iff.1 (readAll_eq_ok_iff.1 h).2
    obtain rfl := List.forall₂_nil_right_iff.1 hrest
    obtain rfl : piece = b.text.toList := by
      have hjoin : [','].intercalate (b.text.toList.splitOn ',') = b.text.toList := List.intercalate_splitOn ','
      rwa [hpieces, List.intercalate_singleton] at hjoin
    have hcomma : ',' ∉ b.text.toList := Text.not_mem_of_mem_splitOn (hpieces ▸ List.mem_singleton_self _)
    obtain ⟨left, right, hcut, hmetric, hne, hright, -⟩ := read_eq_ok_iff.1 hread
    have hleft : trim left = b.metric.toList := by rw [hmetric, String.toList_ofList]
    have htight : Tight b.metric.toList := hleft ▸ Text.tight_trim left
    obtain ⟨number, htrim, hvalue⟩ := exists_trim_text hnumber htight hne
    rw [htrim] at hcut
    obtain ⟨rfl, rfl⟩ := eq_of_cutAt (marks_not_mem hvalue) hcut (marks_not_mem hright '=' (by decide)) hleft
    obtain ⟨hatMost, hatLeast, hequal⟩ := (cutAt_symbol_iff (marks_not_mem hvalue)).1 hcut
    exact ⟨hne, htight, mt (comma_mem_text_iff hnumber).2 hcomma, hatMost, hatLeast, hequal⟩
  · intro h
    obtain ⟨number, htrim, hvalue⟩ := exists_trim_text hnumber h.tight h.ne_empty
    have hcut : CutAt (trim b.text.toList) b.metric.toList b.sense number := by
      rw [htrim]
      exact (cutAt_symbol_iff (marks_not_mem hvalue)).2 ⟨h.no_atMost, h.no_atLeast, h.no_equal⟩
    have hread : read catalog (trim b.text.toList) = .ok b :=
      read_of_cutAt hcut (by rw [Text.trim_of_tight h.tight, String.ofList_toList]) h.ne_empty hvalue hcatalog
    rw [readAll_eq_ok_iff, List.splitOn_eq_singleton (mt (comma_mem_text_iff hnumber).1 h.no_comma)]
    exact ⟨List.forall_mem_singleton.2 (text_not_blank b), .cons hread .nil⟩

end Read

/-- Of a metric that ends in a character of a token: it is read back from an upper limit, but not from an equality. -/
theorem readAll_text_iff_of_mark :
    readAll ⟨["x>", "a>=b"]⟩ (Bound.mk "x>" .atMost 2.5).text = .ok [⟨"x>", .atMost, 2.5⟩] ∧
      readAll ⟨["x>", "a>=b"]⟩ (Bound.mk "a>=b" .atMost (-0.5)).text = .ok [⟨"a>=b", .atMost, -0.5⟩] ∧
      readAll ⟨["x>", "a>=b"]⟩ (Bound.mk "x>" .equal 2.5).text ≠ .ok [⟨"x>", .equal, 2.5⟩] := by
  have hfirst := @readAll_text_iff ⟨["x>", "a>=b"]⟩ ⟨"x>", .atMost, 2.5⟩ (by decide +kernel) (by decide)
  have hsecond := @readAll_text_iff ⟨["x>", "a>=b"]⟩ ⟨"a>=b", .atMost, -0.5⟩ (by decide +kernel) (by decide)
  have hthird := @readAll_text_iff ⟨["x>", "a>=b"]⟩ ⟨"x>", .equal, 2.5⟩ (by decide +kernel) (by decide)
  refine ⟨hfirst.2 ⟨by decide, ⟨by rintro _ ⟨⟩; rfl, by rintro _ ⟨⟩; rfl⟩, by decide, by decide, nofun, nofun⟩,
    hsecond.2 ⟨by decide, ⟨by rintro _ ⟨⟩; rfl, by rintro _ ⟨⟩; rfl⟩, by decide, by decide, nofun, nofun⟩, fun h => ?_⟩
  exact ((hthird.1 h).no_equal rfl).2 '>' rfl |>.2 rfl

end Bound

end Lineup
