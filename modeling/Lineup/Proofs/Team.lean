import Lineup.Proofs.Cells
import Lineup.Proofs.Number.Alike
/-!
# Team — from the values of an answer to the members of a team

An answer lists its values in the order of the variables, and an assignment keys them by the candidates' ids.  As no id
stands twice, each candidate finds its own value again: `entries` is what the ranking works on, whatever it then leaves
out and however it orders the rest.
-/
namespace Lineup

def Candidate.entry (objective : Objective) (c : Candidate) (value : Float) : Ranked :=
  ⟨c.id, c.name, c.score objective, value⟩

def entries (candidates : List Candidate) (objective : Objective) (values : List Float) : List Ranked :=
  List.zipWith (Candidate.entry objective) candidates values

section Entries

variable {candidates : List Candidate} {objective : Objective} {values : List Float}

theorem map_entries {α : Type} {f : Ranked → α} {g : Candidate → α} (hfg : ∀ c x, f (c.entry objective x) = g c) :
    ∀ {candidates : List Candidate} {values : List Float}, values.length = candidates.length →
      (entries candidates objective values).map f = candidates.map g
  | [], [], _ => rfl
  | c :: _, x :: _, h => congrArg₂ List.cons (hfg c x) (map_entries hfg (Nat.succ.inj h))

theorem ids_entries (h : values.length = candidates.length) :
    (entries candidates objective values).map Ranked.id = candidates.map Candidate.id :=
  map_entries (fun _ _ => rfl) h

theorem mem_entries {r : Ranked} : r ∈ entries candidates objective values ↔
    ∃ (k : Nat) (c : Candidate) (x : Float), candidates[k]? = some c ∧ values[k]? = some x ∧
      r = c.entry objective x := by
  unfold entries
  rw [List.mem_iff_getElem?]
  refine exists_congr fun k => ?_
  rw [List.getElem?_zipWith_eq_some]
  exact ⟨fun ⟨c, x, hc, hx, hr⟩ => ⟨c, x, hc, hx, hr.symm⟩, fun ⟨c, x, hc, hx, hr⟩ => ⟨c, x, hc, hx, hr.symm⟩⟩

theorem ranked_eq_entries (objective : Objective) (h : values.length = candidates.length)
    (hids : (candidates.map Candidate.id).Nodup) (objectiveValue : Float) :
    Assignment.ranked ⟨.ofList ((candidates.map Candidate.id).zip values), objectiveValue⟩ candidates objective =
      entries candidates objective values := by
  have hkeys : ((candidates.map Candidate.id).zip values).Pairwise fun a b => a.1 ≠ b.1 := by
    refine List.pairwise_map.1 ?_
    rw [List.map_fst_zip (by rw [List.length_map]; exact Nat.le_of_eq h.symm)]
    exact hids
  have hvalue : ∀ cx ∈ candidates.zip values,
      (Std.TreeMap.ofList ((candidates.map Candidate.id).zip values))[cx.1.id]? = some cx.2 := by
    intro cx hcx
    refine (getElem?_ofList_iff hkeys).2 ?_
    rw [List.zip_map_left]
    exact List.mem_map.2 ⟨cx, hcx, rfl⟩
  unfold Assignment.ranked entries
  rw [← List.map_uncurry_zip_eq_zipWith]
  -- the candidates are the first sides of the pairs of candidates and values
  conv =>
    lhs
    arg 2
    rw [← List.map_fst_zip (Nat.le_of_eq h.symm)]
  rw [List.filterMap_map]
  calc
    _ = (candidates.zip values).filterMap (some ∘ Function.uncurry (Candidate.entry objective)) := by
      refine List.filterMap_congr fun cx hcx => ?_
      rw [Function.comp_apply, Assignment.value?, hvalue cx hcx]
      rfl
    _ = _ := by rw [List.filterMap_eq_map]

end Entries

/-! ## Ranking -/

theorem subperm_cap {α : Type} (roster : Roster) (xs : List α) : (roster.cap xs).Subperm xs := by
  cases roster with
  | fixed size => exact (List.take_sublist size xs).subperm
  | unbounded => exact List.Subperm.refl xs

theorem cap_of_length_le {α : Type} {roster : Roster} {xs : List α}
    (h : ∀ size, roster = .fixed size → xs.length ≤ size) : roster.cap xs = xs := by
  cases roster with
  | fixed size => exact List.take_of_length_le (h size rfl)
  | unbounded => rfl

theorem subperm_chosen (ranked : List Ranked) (mode : Mode) (roster : Roster) :
    (chosen ranked mode roster).Subperm ranked := by
  unfold chosen
  cases mode with
  | binary => exact List.filter_sublist.subperm
  | fractional =>
    cases roster with
    | fixed size => exact (List.take_sublist size _).subperm.trans (List.mergeSort_perm ranked _).subperm
    | unbounded => exact List.filter_sublist.subperm

/-- **A ranking leaves out and puts in order, and nothing else.** -/
theorem subperm_rank (candidates : List Candidate) (a : Assignment) (objective : Objective) (mode : Mode)
    (roster : Roster) : (rank candidates a objective mode roster).Subperm (a.ranked candidates objective) :=
  ((subperm_cap roster _).trans (List.mergeSort_perm _ _).subperm).trans (subperm_chosen _ mode roster)

theorem perm_rank_of_room {candidates : List Candidate} {a : Assignment} {objective : Objective} {mode : Mode}
    {roster : Roster}
    (h : ∀ size, roster = .fixed size → (chosen (a.ranked candidates objective) mode roster).length ≤ size) :
    (rank candidates a objective mode roster).Perm (chosen (a.ranked candidates objective) mode roster) := by
  unfold rank
  rw [cap_of_length_le fun size hsize => by rw [List.length_mergeSort]; exact h size hsize]
  exact List.mergeSort_perm _ _

theorem nodup_map_of_subperm {α β : Type} {f : α → β} {xs ys : List α} (h : xs.Subperm ys) (hys : (ys.map f).Nodup) :
    (xs.map f).Nodup := by
  obtain ⟨zs, hperm, hsub⟩ := h
  exact (hperm.map f).nodup_iff.1 (hys.sublist (hsub.map f))

namespace Prepared.Of

variable {p : Prepared} {setup : Setup} {table : Table} {request : Request} {catalog : Catalog} {bounds : List Bound}
  {candidates : List Candidate} {values : List Float}

theorem ranked_eq (h : p.Of setup table request catalog bounds candidates)
    (hlength : values.length = p.program.ids.length) (objectiveValue : Float) :
    Assignment.ranked ⟨.ofList (p.program.ids.zip values), objectiveValue⟩ p.screening.eligible p.objective =
      entries p.screening.eligible p.objective values := by
  have hnodup := h.nodup_ids
  rw [h.ids] at hnodup ⊢
  exact ranked_eq_entries p.objective (hlength.trans h.length_ids) hnodup objectiveValue

/-- **The members of a team are candidates with their own values**, no two of them with one id. -/
theorem subperm_team (h : p.Of setup table request catalog bounds candidates)
    (hlength : values.length = p.program.ids.length) :
    (p.team values).Subperm (entries p.screening.eligible p.objective values) ∧
      ((p.team values).map Ranked.id).Nodup := by
  have hsub := subperm_rank p.screening.eligible
    ⟨.ofList (p.program.ids.zip values), p.program.objectiveValue values⟩ p.objective p.setup.mode p.setup.roster
  rw [h.ranked_eq hlength] at hsub
  refine ⟨hsub, nodup_map_of_subperm hsub ?_⟩
  rw [ids_entries (hlength.trans h.length_ids), ← h.ids]
  exact h.nodup_ids

end Prepared.Of

/-! ## Values of 0 and 1 -/

/-- **A bit is close enough to 1 when it is 1.** -/
theorem near_one_iff {x : Float} (h : Number.isBit x = true) :
    decide ((x - 1.0).abs < selectionTolerance) = (x == 1.0) := by
  have halike := Number.alike_bit h
  have hbit : decide ((Number.bit x - 1.0).abs < selectionTolerance) = (x == 1.0) := by
    unfold Number.bit
    cases hx : x == 1.0 <;> rfl
  have hnan : (Number.bit x - 1.0).abs.isNaN = false := by
    unfold Number.bit
    cases hx : x == 1.0 <;> rfl
  have hdiff := (halike.sub_right 1.0).abs
  rw [← hbit, Bool.eq_iff_iff, decide_eq_true_iff, decide_eq_true_iff]
  exact ⟨hdiff.lt_of_lt (hdiff.1.trans hnan) rfl, hdiff.symm.lt_of_lt hnan rfl⟩

theorem chosen_bits {ranked : List Ranked} (roster : Roster) (h : ∀ r ∈ ranked, Number.isBit r.value = true) :
    chosen ranked .binary roster = ranked.filter fun r => r.value == 1.0 := by
  unfold chosen
  exact List.filter_congr fun r hr => near_one_iff (h r hr)

theorem length_ones {objective : Objective} : ∀ {candidates : List Candidate}
    {values : List Float}, values.length = candidates.length →
    ((entries candidates objective values).filter fun r => r.value == 1.0).length = values.countP (· == 1.0)
  | [], [], _ => rfl
  | c :: candidates, x :: values, h => by
    have ih := @length_ones objective candidates values (Nat.succ.inj h)
    unfold entries at ih ⊢
    rw [List.zipWith_cons_cons, List.filter_cons, List.countP_cons]
    change (if (x == 1.0) = true then _ else _ : List Ranked).length = _
    split
    · rw [List.length_cons, ih]
    · exact ih

/-- **The team of whole candidates**: those whose value is 1, when the roster has room for them. -/
theorem perm_rank_ones {candidates : List Candidate} (objective : Objective) {values : List Float} {roster : Roster}
    (hlength : values.length = candidates.length) (hids : (candidates.map Candidate.id).Nodup)
    (hbits : values.all Number.isBit = true) (hroom : ∀ size, roster = .fixed size → values.countP (· == 1.0) ≤ size)
    (objectiveValue : Float) :
    (rank candidates ⟨.ofList ((candidates.map Candidate.id).zip values), objectiveValue⟩ objective .binary roster).Perm
      ((entries candidates objective values).filter fun r => r.value == 1.0) := by
  have hranked := ranked_eq_entries objective hlength hids objectiveValue
  have hchosen : chosen (entries candidates objective values) .binary roster =
      (entries candidates objective values).filter fun r => r.value == 1.0 := by
    refine chosen_bits roster fun r hr => ?_
    obtain ⟨k, c, x, -, hx, rfl⟩ := mem_entries.1 hr
    exact List.all_eq_true.1 hbits x (List.mem_of_getElem? hx)
  rw [← hchosen, ← hranked]
  refine perm_rank_of_room fun size hsize => ?_
  rw [hranked, hchosen, length_ones hlength]
  exact hroom size hsize

theorem Program.indicator_eq (p : Program) (ids : List Nat) :
    p.indicator ids = p.ids.map fun id => if id ∈ ids then 1.0 else 0.0 := by
  unfold Program.indicator
  refine List.map_congr_left fun id _ => ?_
  rw [Std.TreeSet.contains_ofList]
  simp only [List.contains_iff_mem]

theorem Program.indicator_of_ones {p : Program} {values : List Float} {team : List Nat}
    (hlength : values.length = p.ids.length)
    (hteam : ∀ (k id : Nat) (x : Float), p.ids[k]? = some id → values[k]? = some x → (id ∈ team ↔ (x == 1.0) = true)) :
    p.indicator team = values.map Number.bit := by
  rw [Program.indicator_eq]
  refine List.ext_getElem? fun k => ?_
  rw [List.getElem?_map, List.getElem?_map]
  cases hid : p.ids[k]? with
  | none =>
    rw [List.getElem?_eq_none_iff] at hid
    rw [List.getElem?_eq_none (hlength ▸ hid)]
    rfl
  | some id =>
    obtain ⟨x, hx⟩ : ∃ x, values[k]? = some x := by
      obtain ⟨hlt, -⟩ := List.getElem?_eq_some_iff.1 hid
      exact ⟨_, List.getElem?_eq_getElem (hlength ▸ hlt)⟩
    rw [hx, Option.map_some, Option.map_some]
    unfold Number.bit
    by_cases hone : (x == 1.0) = true
    · rw [if_pos ((hteam k id x hid hx).2 hone), if_pos hone]
    · rw [if_neg (fun hmem => hone ((hteam k id x hid hx).1 hmem)), if_neg hone]

end Lineup
