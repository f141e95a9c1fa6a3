import Mathlib.Data.List.Induction
import Mathlib.Data.List.Nodup
import Mathlib.Data.List.Perm.Subperm
import Std.Data.TreeMap
/-!
# Keyed — maps made from lists of pairs

A map made from a list has the keys of the list, each once.  Where a key stands more than once, the last pair with it
counts; where none does, the map has exactly the pairs of the list.
-/
namespace Lineup

theorem getElem?_concat_eq_some_iff {α : Type} {xs : List α} {x y : α} {i : Nat} :
    (xs ++ [x])[i]? = some y ↔ xs[i]? = some y ∨ (i = xs.length ∧ x = y) := by
  rcases Nat.lt_trichotomy i xs.length with hlt | rfl | hgt
  · rw [List.getElem?_append_left hlt]
    exact ⟨Or.inl, fun h => h.resolve_right fun ⟨heq, _⟩ => Nat.ne_of_lt hlt heq⟩
  · simp
  · rw [List.getElem?_eq_none (by rw [List.length_append, List.length_singleton]; omega),
      List.getElem?_eq_none (Nat.le_of_lt hgt)]
    exact ⟨nofun, fun h => h.elim nofun fun ⟨heq, _⟩ => absurd heq (Nat.ne_of_gt hgt)⟩

section Keyed

variable {κ ν : Type} [Ord κ] [Std.TransOrd κ]

theorem getElem?_ofList_concat (l : List (κ × ν)) (w : κ × ν) (k : κ) : (Std.TreeMap.ofList (l ++ [w]))[k]? =
    if compare w.1 k = .eq then some w.2 else (Std.TreeMap.ofList l)[k]? := by
  rw [Std.TreeMap.ofList_eq_insertMany_empty, Std.TreeMap.insertMany_append, Std.TreeMap.insertMany_list_singleton,
    Std.TreeMap.getElem?_insert]
  rfl

variable [Std.LawfulEqOrd κ] {l : List (κ × ν)}

/-- **The last pair with a key counts.** -/
theorem getElem?_ofList_eq_some_iff {k : κ} {v : ν} : (Std.TreeMap.ofList l)[k]? = some v ↔
    ∃ i : Nat, l[i]? = some (k, v) ∧ ∀ j, i < j → (l.map Prod.fst)[j]? ≠ some k := by
  induction l using List.reverseRecOn with
  | nil => simp [Std.TreeMap.ofList_nil]
  | append_singleton l w ih =>
    rw [getElem?_ofList_concat, List.map_append, List.map_singleton]
    simp only [ne_eq, getElem?_concat_eq_some_iff, List.length_map]
    split
    · rename_i hkey
      obtain rfl := Std.LawfulEqOrd.eq_of_compare hkey
      constructor
      · intro h
        cases h
        refine ⟨l.length, Or.inr ⟨rfl, rfl⟩, fun j hj h => ?_⟩
        rcases h with h | ⟨rfl, -⟩
        · rw [List.getElem?_eq_none (by rw [List.length_map]; exact Nat.le_of_lt hj)] at h
          cases h
        · exact Nat.lt_irrefl _ hj
      · rintro ⟨i, hi | ⟨-, hw⟩, hlater⟩
        · exact absurd (Or.inr ⟨rfl, rfl⟩) (hlater l.length (List.getElem?_eq_some_iff.1 hi).1)
        · exact congrArg some (congrArg Prod.snd hw)
    · rename_i hkey
      have hne : w.1 ≠ k := fun heq => hkey (heq ▸ Std.ReflOrd.compare_self)
      have hpair : w ≠ (k, v) := fun heq => hne (congrArg Prod.fst heq)
      rw [ih]
      simp only [hne, hpair, and_false, or_false]

theorem getElem?_ofList_iff {k : κ} {v : ν} (h : l.Pairwise fun a b => a.1 ≠ b.1) :
    (Std.TreeMap.ofList l)[k]? = some v ↔ (k, v) ∈ l := by
  rw [getElem?_ofList_eq_some_iff]
  constructor
  · rintro ⟨i, hi, -⟩
    exact List.mem_of_getElem? hi
  · intro hmem
    obtain ⟨i, hi⟩ := List.getElem?_of_mem hmem
    refine ⟨i, hi, fun j hij hj => ?_⟩
    obtain ⟨hlt, hi⟩ := List.getElem?_eq_some_iff.1 hi
    rw [List.getElem?_map, Option.map_eq_some_iff] at hj
    obtain ⟨w, hw, hkey⟩ := hj
    obtain ⟨hlt', hw⟩ := List.getElem?_eq_some_iff.1 hw
    refine List.pairwise_iff_getElem.1 h i j hlt hlt' hij ?_
    rw [hi, hw, hkey]

variable [BEq κ] [LawfulBEq κ]

theorem mem_keys_ofList {k : κ} : k ∈ (Std.TreeMap.ofList l).keys ↔ k ∈ l.map Prod.fst := by
  rw [Std.TreeMap.mem_keys, Std.TreeMap.mem_ofList, List.contains_iff_mem]

/-- **A map has as many keys as its list has pairs when no two of them share a key, and fewer otherwise.** -/
theorem size_ofList_eq_length_iff : (Std.TreeMap.ofList l).size = l.length ↔ (l.map Prod.fst).Nodup := by
  constructor
  · intro h
    have hsub : (Std.TreeMap.ofList l).keys.Subperm (l.map Prod.fst) :=
      Std.TreeMap.nodup_keys.subperm fun k hk => mem_keys_ofList.1 hk
    have hperm := hsub.perm_of_length_le (Nat.le_of_eq (by rw [List.length_map, Std.TreeMap.length_keys, h]))
    exact hperm.nodup_iff.1 Std.TreeMap.nodup_keys
  · intro h
    exact Std.TreeMap.size_ofList ((List.pairwise_map.1 h).imp fun hne heq => hne (Std.LawfulEqOrd.eq_of_compare heq))

end Keyed

end Lineup
