import Lineup.Proofs.Team
/-!
# Standing — who makes a team, and in which order

A team is listed by score, and its roster takes from the front of an order: in binary mode that of the scores, in
fractional mode that of the values.  Ids break all ties, so both orders are strict among candidates with distinct ids,
and a team does not depend on the order in which the candidates are given, whatever their scores are.
-/
namespace Lineup

open Number (key)

/-! ## Orders -/

namespace Ranked

def Leads (x y : Ranked) : Prop := key y.score < key x.score ∨ (key x.score = key y.score ∧ x.id < y.id)

def Precedes (x y : Ranked) : Prop := key y.value < key x.value ∨ (key x.value = key y.value ∧ x.Leads y)

variable {x y z : Ranked}

theorem byScore_isLE_iff : (x.byScore y).isLE = true ↔
    key y.score < key x.score ∨ (key y.score = key x.score ∧ x.id ≤ y.id) := by
  unfold byScore Number.order
  rw [Ordering.isLE_then_iff_or, Int.compare_eq_lt, Int.compare_eq_eq, Nat.isLE_compare]

theorem byValue_isLE_iff : (x.byValue y).isLE = true ↔
    key y.value < key x.value ∨ (key y.value = key x.value ∧ (x.byScore y).isLE = true) := by
  unfold byValue Number.order
  rw [Ordering.isLE_then_iff_or, Int.compare_eq_lt, Int.compare_eq_eq]

theorem pairwise_byScore (team : List Ranked) :
    (team.mergeSort fun x y => (x.byScore y).isLE).Pairwise fun x y => (x.byScore y).isLE = true := by
  refine List.pairwise_mergeSort (fun a b c hab hbc => ?_) (fun a b => ?_) team
  · rw [byScore_isLE_iff] at hab hbc ⊢
    omega
  · rw [Bool.or_eq_true, byScore_isLE_iff, byScore_isLE_iff]
    omega

theorem pairwise_byValue (team : List Ranked) :
    (team.mergeSort fun x y => (x.byValue y).isLE).Pairwise fun x y => (x.byValue y).isLE = true := by
  refine List.pairwise_mergeSort (fun a b c hab hbc => ?_) (fun a b => ?_) team
  · rw [byValue_isLE_iff, byScore_isLE_iff] at hab hbc ⊢
    omega
  · rw [Bool.or_eq_true, byValue_isLE_iff, byValue_isLE_iff, byScore_isLE_iff, byScore_isLE_iff]
    omega

theorem id_eq_of_byScore (hxy : (x.byScore y).isLE = true) (hyx : (y.byScore x).isLE = true) : x.id = y.id := by
  rw [byScore_isLE_iff] at hxy hyx
  omega

theorem id_eq_of_byValue (hxy : (x.byValue y).isLE = true) (hyx : (y.byValue x).isLE = true) : x.id = y.id := by
  rw [byValue_isLE_iff, byScore_isLE_iff] at hxy hyx
  omega

theorem precedes_of_isLE (h : (x.byValue y).isLE = true) (hne : x.id ≠ y.id) : x.Precedes y := by
  rw [byValue_isLE_iff, byScore_isLE_iff] at h
  unfold Precedes Leads
  omega

end Ranked

theorem cap_sublist {α : Type} (roster : Roster) (xs : List α) : (roster.cap xs).Sublist xs := by
  cases roster with
  | fixed size => exact List.take_sublist size xs
  | unbounded => exact List.Sublist.refl xs

theorem map_cap {α β : Type} (f : α → β) (roster : Roster) (xs : List α) :
    (roster.cap xs).map f = roster.cap (xs.map f) := by
  cases roster with
  | fixed size => exact List.map_take
  | unbounded => rfl

/-! ## Entries with distinct ids -/

section Distinct

variable {xs ys : List Ranked} (hids : (xs.map Ranked.id).Nodup)
include hids

theorem mergeSort_eq_of_perm {le : Ranked → Ranked → Bool} (h : xs.Perm ys)
    (hsort : ∀ zs : List Ranked, (zs.mergeSort le).Pairwise fun x y => le x y = true)
    (hid : ∀ x y, le x y = true → le y x = true → x.id = y.id) : xs.mergeSort le = ys.mergeSort le := by
  -- sorted permutations of one list differ only among entries on both sides of one another, and ids tell these apart
  refine List.Perm.eq_of_pairwise (fun x y hx hy hxy hyx => ?_) (hsort xs) (hsort ys)
    ((List.mergeSort_perm xs le).trans (h.trans (List.mergeSort_perm ys le).symm))
  exact List.inj_on_of_nodup_map hids (List.mem_mergeSort.1 hx) (h.mem_iff.2 (List.mem_mergeSort.1 hy))
    (hid x y hxy hyx)

theorem precedes_of_not_mem_take {size : Nat} {r s : Ranked}
    (hr : r ∈ (xs.mergeSort fun x y => (x.byValue y).isLE).take size) (hs : s ∈ xs)
    (hout : s ∉ (xs.mergeSort fun x y => (x.byValue y).isLE).take size) : r.Precedes s := by
  have hsorted := Ranked.pairwise_byValue xs
  have hmem : s ∈ xs.mergeSort fun x y => (x.byValue y).isLE := List.mem_mergeSort.2 hs
  rw [← List.take_append_drop size (xs.mergeSort _)] at hsorted hmem
  have hdrop := (List.mem_append.1 hmem).resolve_left hout
  refine Ranked.precedes_of_isLE ((List.pairwise_append.1 hsorted).2.2 r hr s hdrop) fun hid => hout ?_
  rw [← List.inj_on_of_nodup_map hids (List.mem_mergeSort.1 (List.mem_of_mem_take hr)) hs hid]
  exact hr

end Distinct

/-! ## Teams -/

def Assignment.Values (a : Assignment) (candidates : List Candidate) (objective : Objective) (r : Ranked) : Prop :=
  ∃ c ∈ candidates, ∃ value, a.value? c.id = some value ∧ r = c.entry objective value

section Ranking

variable {candidates candidates' : List Candidate} {a : Assignment} {objective : Objective}

theorem mem_ranked_iff {r : Ranked} : r ∈ a.ranked candidates objective ↔ a.Values candidates objective r := by
  unfold Assignment.ranked Assignment.Values
  rw [List.mem_filterMap]
  refine exists_congr fun c => and_congr_right fun _ => ?_
  rw [Option.map_eq_some_iff]
  exact exists_congr fun value => and_congr_right fun _ => eq_comm

theorem ids_ranked : ∀ {candidates : List Candidate}, (a.ranked candidates objective).map Ranked.id =
    (candidates.filter fun c => (a.value? c.id).isSome).map Candidate.id
  | [] => rfl
  | c :: candidates => by
    have ih := @ids_ranked candidates
    unfold Assignment.ranked at ih ⊢
    rw [List.filterMap_cons, List.filter_cons]
    cases a.value? c.id with
    | none => exact ih
    | some value => exact congrArg (c.id :: ·) ih

theorem nodup_ids_ranked (hids : (candidates.map Candidate.id).Nodup) :
    ((a.ranked candidates objective).map Ranked.id).Nodup := by
  rw [ids_ranked]
  exact hids.sublist (List.filter_sublist.map Candidate.id)

theorem rank_fractional_fixed_perm (size : Nat) : (rank candidates a objective .fractional (.fixed size)).Perm
    (((a.ranked candidates objective).mergeSort fun x y => (x.byValue y).isLE).take size) := by
  refine perm_rank_of_room fun size' hsize' => ?_
  cases hsize'
  exact List.length_take_le _ _

end Ranking

end Lineup
