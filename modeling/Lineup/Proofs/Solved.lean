import Lineup.Proofs.Failures
import Lineup.Proofs.Keyed
/-!
# Solved — which answers of an engine are taken

An answer is taken when it is optimal and has one finite value for each variable (`solve_takes_optimal`).  The
assignment that it becomes has the ids of the variables in ascending order; where two variables stand for one id, the
value of the later one is kept.  Any other answer is refused for its status, its length or its values, in this order.
-/
namespace Lineup

open Std (TreeMap)

/-- **The assignment of a program's values**: each id of a variable once, in ascending order, with the value of the last
variable that stands for it. -/
structure Assignment.Of (a : Assignment) (p : Program) (values : List Float) : Prop where
  ascending : (a.entries.map Prod.fst).Pairwise (· < ·)
  mem_ids : ∀ id, id ∈ a.entries.map Prod.fst ↔ id ∈ p.ids
  mem_entries : ∀ id x, (id, x) ∈ a.entries ↔ a.value? id = some x
  last : ∀ id x, a.value? id = some x ↔
    ∃ k : Nat, p.ids[k]? = some id ∧ values[k]? = some x ∧ ∀ j, k < j → p.ids[j]? ≠ some id
  only : p.ids.Nodup → ∀ (k id : Nat), p.ids[k]? = some id → a.value? id = values[k]?
  length_entries : a.entries.length = p.ids.length ↔ p.ids.Nodup
  objectiveValue_eq : a.objectiveValue = p.objectiveValue values

section

variable {p : Program} {values : List Float} (h : values.length = p.ids.length)
include h

theorem value?_zip_iff (id : Nat) (x : Float) : (TreeMap.ofList (p.ids.zip values))[id]? = some x ↔
    ∃ k : Nat, p.ids[k]? = some id ∧ values[k]? = some x ∧ ∀ j, k < j → p.ids[j]? ≠ some id := by
  simp only [getElem?_ofList_eq_some_iff, List.getElem?_zip_eq_some, and_assoc, List.map_fst_zip (Nat.le_of_eq h.symm)]

theorem Assignment.Of.of_zip : Assignment.Of ⟨.ofList (p.ids.zip values), p.objectiveValue values⟩ p values := by
  have hfst : (p.ids.zip values).map Prod.fst = p.ids := List.map_fst_zip (Nat.le_of_eq h.symm)
  constructor
  · simpa [entries] using (TreeMap.ofList (p.ids.zip values)).ordered_keys.imp Nat.compare_eq_lt.1
  · simp [entries, hfst]
  · simp [entries, value?]
  · exact value?_zip_iff h
  · intro hnodup k id hid
    obtain ⟨hlt, -⟩ := List.getElem?_eq_some_iff.1 hid
    rw [List.getElem?_eq_getElem (h ▸ hlt)]
    refine (value?_zip_iff h id _).2 ⟨k, hid, List.getElem?_eq_getElem _, fun j hj hsame => ?_⟩
    exact Nat.ne_of_lt hj ((List.getElem?_inj hlt hnodup).1 (hid.trans hsame.symm))
  · have hzip : (p.ids.zip values).length = p.ids.length := by simp [h]
    unfold entries
    rw [TreeMap.length_toList, ← hzip, size_ofList_eq_length_iff, hfst]
  · rfl

end

/-- **Which answers are taken, what becomes of them, and why the others are refused.** -/
theorem Program.solve_takes_optimal (p : Program) (engine : Engine) :
    ((∃ a, p.solve engine = .ok a) ↔ (engine p).status = .optimal ∧ (engine p).values.length = p.ids.length ∧
      ∀ x ∈ (engine p).values, x.isFinite = true) ∧
    (∀ a, p.solve engine = .ok a → a.Of p (engine p).values) ∧
    ∀ failure, p.solve engine = .error failure ↔
      ((engine p).status ≠ .optimal ∧ failure = ⟨(engine p).status, (engine p).message⟩) ∨
      ((engine p).status = .optimal ∧ (engine p).values.length ≠ p.ids.length ∧ failure = ⟨.notSolved,
        some s!"engine returned {(engine p).values.length} values for {p.ids.length} variables"⟩) ∨
      ((engine p).status = .optimal ∧ (engine p).values.length = p.ids.length ∧
        (∃ x ∈ (engine p).values, x.isFinite = false) ∧
        failure = ⟨.notSolved, some "engine returned a non-finite value"⟩) := by
  unfold solve
  refine ⟨?_, fun a ha => ?_, fun failure => ?_⟩
  · simp only [assignment_eq_ok, List.all_eq_true]
    exact ⟨fun ⟨a, hstatus, hlength, hfinite, _⟩ => ⟨hstatus, hlength, hfinite⟩,
      fun ⟨hstatus, hlength, hfinite⟩ => ⟨_, hstatus, hlength, hfinite, rfl⟩⟩
  · obtain ⟨-, hlength, -, rfl⟩ := assignment_eq_ok.1 ha
    exact .of_zip hlength
  · simp only [assignment_eq_error, List.all_eq_false, Bool.not_eq_true]

/-- Two variables stand for the id 3, and the second has its value. -/
theorem Program.solve_takes_optimal_of_repeats :
    ∃ a, Program.solve ⟨.fractional, .unbounded, [3, 1, 3], [1.0, 1.0, 1.0], []⟩ (fun _ => .optimal [0.25, 0.5, 0.75]) =
      .ok a ∧ a.value? 3 = some 0.75 ∧ a.entries.length ≠ 3 := by
  generalize hp : (⟨.fractional, .unbounded, [3, 1, 3], [1.0, 1.0, 1.0], []⟩ : Program) = p
  obtain ⟨hiff, hof, -⟩ := solve_takes_optimal p fun _ => .optimal [0.25, 0.5, 0.75]
  obtain ⟨a, ha⟩ := hiff.2 ⟨rfl, by subst hp; rfl, by decide +kernel⟩
  refine ⟨a, ha, ((hof a ha).last 3 0.75).2 ⟨2, by subst hp; rfl, rfl, fun j hj => ?_⟩, fun hlength => ?_⟩
  · subst hp
    rw [List.getElem?_eq_none (show [3, 1, 3].length ≤ j from hj)]
    exact nofun
  · subst hp
    exact absurd ((hof a ha).length_entries.1 hlength) (by decide)

end Lineup
