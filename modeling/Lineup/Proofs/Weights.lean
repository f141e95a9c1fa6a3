import Lineup.Proofs.Cells
import Lineup.Proofs.Reading
/-!
# Weights — which metrics can be weighted

A catalog may list names that no list of criteria can spell: the empty name, and those that hold a comma or an equals
sign.  Every other metric of a loaded table can be weighted, with any number and with blank characters wherever a user
likes.
-/
namespace Lineup

open Text (trim)

/-- A name that a list of criteria can spell. -/
def CanSpell (metric : String) : Prop := metric ≠ "" ∧ ',' ∉ metric.toList ∧ '=' ∉ metric.toList

namespace Objective

variable {catalog : Catalog}

theorem canSpell_of_read {text : String} {objective : Objective} (h : read catalog text = .ok objective)
    {metric : String} (hm : metric ∈ objective.metrics) : CanSpell metric := by
  obtain ⟨k, hk, rfl⟩ := List.mem_map.1 hm
  obtain ⟨found, hitems, hall⟩ := read_eq_ok_iff.1 h
  obtain ⟨-, rfl⟩ := items_eq_ok_iff.1 hitems
  obtain ⟨item, hitem, seen, hread⟩ := Criterion.exists_read_of_mem hall hk
  obtain ⟨piece, hpiece, rfl⟩ := List.mem_map.1 hitem
  obtain ⟨left, right, heq, hleft, -, hmetric, hne, -⟩ := Criterion.read_eq_ok_iff.1 hread
  have hsub : ∀ {c : Char}, c ∈ k.metric.toList → c ∈ left := fun hc => by
    rw [hmetric, String.toList_ofList] at hc
    exact Text.mem_of_mem_trim hc
  refine ⟨hne, fun hcomma => Text.not_mem_of_mem_splitOn hpiece (Text.mem_of_mem_trim ?_), fun h => hleft (hsub h)⟩
  rw [heq]
  exact List.mem_append_left _ (hsub hcomma)

theorem read_of_spelled {metric text : String} {number : List Char} {x : Float}
    (htext : Spelled ['='] metric.toList number text.toList) (hmetric : metric ∈ catalog.metrics)
    (htight : Text.Tight metric.toList) (hspell : CanSpell metric) (hnumber : Number.readFinite? number = some x) :
    read catalog text = .ok ⟨[⟨metric, x⟩]⟩ := by
  obtain ⟨hne, hcomma, hequals⟩ := hspell
  have hnil : metric.toList ≠ [] := by simpa using hne
  have hsingle : ',' ∉ text.toList := htext.not_mem hnumber hcomma (by decide) rfl rfl
  obtain ⟨left, right, hsides, htrim, hright, hleft⟩ := htext.sides htight hnil hnumber
  refine read_eq_ok_iff.2 ⟨[trim text.toList], ?_, ?_⟩
  · rw [items_eq_ok_iff, List.splitOn_eq_singleton hsingle]
    exact ⟨List.forall_mem_singleton.2 (htext.not_blank htight hnil), rfl⟩
  · have hread : Criterion.read catalog [] (trim text.toList) = .ok ⟨metric, x⟩ := by
      refine Criterion.read_eq_ok_iff.2 ⟨left, right, by simpa using hsides, hleft '=' hequals rfl,
        Number.not_mem_of_readFinite? hright rfl rfl, ?_, hne, hright, hmetric, List.not_mem_nil⟩
      rw [htrim, String.ofList_toList]
    unfold Criterion.readAll
    rw [hread]
    rfl

end Objective

/-- **The metrics of a loaded table that can be weighted** are those with a name that criteria can spell, and for these
every number is taken as their weight. -/
theorem weighted_iff_canSpell {bytes : List UInt8} {table : Table} {catalog : Catalog}
    (hload : Table.load bytes = .ok table) (hcatalog : table.catalog = .ok catalog) {metric : String}
    (hmetric : metric ∈ catalog.metrics) :
    ((∃ text objective, Objective.read catalog text = .ok objective ∧ metric ∈ objective.metrics) ↔ CanSpell metric) ∧
    (CanSpell metric →
      ∀ (number : String) (x : Float), Number.finite? number = some x →
        ∀ a b c d : String, Text.allBlank a = true → Text.allBlank b = true → Text.allBlank c = true →
          Text.allBlank d = true →
            Objective.read catalog (a ++ metric ++ b ++ "=" ++ c ++ number ++ d) = .ok ⟨[⟨metric, x⟩]⟩) := by
  have htight : Text.Tight metric.toList := by
    obtain ⟨column, hcolumn, rfl, -⟩ :=
      Catalog.exists_column (mapError_eq_ok.1 hcatalog) (Catalog.contains_iff.2 hmetric)
    exact ((Table.WellFormed.of_load hload).names column hcolumn).tight
  have hread : CanSpell metric → ∀ (number : String) (x : Float), Number.finite? number = some x →
      ∀ a b c d : String, Text.allBlank a = true → Text.allBlank b = true → Text.allBlank c = true →
        Text.allBlank d = true →
          Objective.read catalog (a ++ metric ++ b ++ "=" ++ c ++ number ++ d) = .ok ⟨[⟨metric, x⟩]⟩ := by
    intro hspell number x hnumber a b c d ha hb hc hd
    refine Objective.read_of_spelled ⟨a.toList, b.toList, c.toList, d.toList, ha, hb, hc, hd, ?_⟩ hmetric htight hspell
      hnumber
    simp
  refine ⟨⟨fun ⟨text, objective, hok, hm⟩ => Objective.canSpell_of_read hok hm, fun hspell => ?_⟩, hread⟩
  obtain ⟨x, hx⟩ : ∃ x, Number.finite? "1" = some x := ⟨1.0, by decide +kernel⟩
  exact ⟨_, _, hread hspell "1" x hx "" "" "" "" rfl rfl rfl rfl, by simp [Objective.metrics]⟩

/-- Of a metric of two words, next to one that holds an equals sign. -/
theorem weighted_iff_canSpell_of_words : ∃ table catalog,
    Table.load (Text.Utf8.encode "name,top speed,a=b,\nAda,3,4,5\n") = .ok table ∧ table.catalog = .ok catalog ∧
      catalog.metrics = ["top speed", "a=b", ""] ∧
      Objective.read catalog "\ttop speed  = -1.5e1 " = .ok ⟨[⟨"top speed", -15.0⟩]⟩ ∧
      ¬ ∃ text objective, Objective.read catalog text = .ok objective ∧ "a=b" ∈ objective.metrics := by
  generalize hbytes : Text.Utf8.encode "name,top speed,a=b,\nAda,3,4,5\n" = bytes
  obtain ⟨table, hload, catalog, hcatalog, hmetrics⟩ : ∃ table, Table.load bytes = .ok table ∧
      ∃ catalog, table.catalog = .ok catalog ∧ catalog.metrics = ["top speed", "a=b", ""] := by
    obtain ⟨table, hload, htable⟩ : ∃ table, Table.load bytes = .ok table ∧
        (table.catalog.toOption.any fun catalog => decide (catalog.metrics = ["top speed", "a=b", ""])) = true :=
      exists_ok_of_decide (by subst hbytes; decide +kernel)
    exact ⟨table, hload, exists_ok_of_decide htable⟩
  have hwords := @weighted_iff_canSpell bytes table catalog hload hcatalog "top speed" (by simp [hmetrics])
  have hequals := @weighted_iff_canSpell bytes table catalog hload hcatalog "a=b" (by simp [hmetrics])
  refine ⟨table, catalog, hload, hcatalog, hmetrics, ?_, fun h => ?_⟩
  · exact hwords.2 ⟨by decide, by decide, by decide⟩ "-1.5e1" (-15.0)
      (by decide +kernel) "\t" "  " " " " " rfl rfl rfl rfl
  · exact (hequals.1.1 h).2.2 (by decide)

end Lineup
