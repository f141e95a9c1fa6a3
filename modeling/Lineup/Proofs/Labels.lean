import Mathlib.Data.List.Nodup
import Lineup.Proofs.Formulation
import Lineup.Proofs.Number.Written
import Lineup.Proofs.Text.Pieces
/-!
# Labels — every row of a program has a label of its own

The label of a bound ends in an underscore and the place of the bound in the list.  Whatever the metric is called, the
last underscore of the label is this one, so the labels of different places differ, and none of them is the label of the
row that fixes the size of the team.
-/
namespace Lineup

variable {candidates : List Candidate}

namespace Bound

theorem toList_label (b : Bound) (ordinal : Nat) (candidates : List Candidate) :
    (b.rowOver ordinal candidates).label.toList =
      (b.metric.toList ++ '_' :: b.sense.shortName.toList) ++ '_' :: Nat.toDigits 10 ordinal := by
  have hlabel : (b.rowOver ordinal candidates).label =
      b.metric ++ "_" ++ b.sense.shortName ++ "_" ++ ordinal.repr := rfl
  simp [hlabel, Nat.repr_eq_ofList_toDigits]

theorem ordinal_eq_of_label_eq {b b' : Bound} {ordinal ordinal' : Nat}
    (h : (b.rowOver ordinal candidates).label = (b'.rowOver ordinal' candidates).label) : ordinal = ordinal' := by
  have hlist := congrArg String.toList h
  rw [toList_label, toList_label] at hlist
  exact Number.toDigits_injective
    (Text.eq_of_last hlist (Number.not_mem_toDigits rfl ordinal) (Number.not_mem_toDigits rfl ordinal')).2

/-- A label that is made for a bound ends in a digit. -/
theorem label_ne_teamSize (b : Bound) (ordinal : Nat) (candidates : List Candidate) :
    (b.rowOver ordinal candidates).label ≠ Row.teamSizeLabel := by
  intro h
  have hlist : (b.metric.toList ++ '_' :: b.sense.shortName.toList) ++ '_' :: Nat.toDigits 10 ordinal =
      "team".toList ++ '_' :: "size".toList := by
    rw [← toList_label b ordinal candidates, h]
    rfl
  obtain ⟨-, hdigits⟩ := Text.eq_of_last hlist (Number.not_mem_toDigits rfl ordinal) (by decide)
  have hletter : 's' ∈ Nat.toDigits 10 ordinal := by
    rw [hdigits]
    decide
  exact Number.not_mem_toDigits rfl ordinal hletter

end Bound

/-- **No two rows of a program have the same label.** -/
theorem Program.nodup_labels (candidates : List Candidate) (objective : Objective) (bounds : List Bound)
    (roster : Roster) (mode : Mode) :
    ((Program.over candidates objective bounds roster mode).rows.map Row.label).Nodup := by
  have hordinals : (bounds.zipIdx.map Prod.snd).Nodup := by
    rw [List.zipIdx_map_snd]
    exact List.nodup_range'
  have hbounds : ((bounds.zipIdx.map fun numbered => numbered.1.rowOver numbered.2 candidates).map
      Row.label).Nodup := by
    rw [List.map_map]
    exact List.pairwise_map.2 ((List.pairwise_map.1 hordinals).imp fun hne h => hne (Bound.ordinal_eq_of_label_eq h))
  unfold Program.over
  rw [List.map_append, List.nodup_append]
  refine ⟨hbounds, ?_, ?_⟩
  · cases roster with
    | fixed size => exact List.nodup_singleton _
    | unbounded => exact List.nodup_nil
  · intro label hlabel label' hlabel'
    obtain ⟨row, hrow, rfl⟩ := List.mem_map.1 hlabel
    obtain ⟨⟨b, ordinal⟩, -, rfl⟩ := List.mem_map.1 hrow
    obtain ⟨row', hrow', rfl⟩ := List.mem_map.1 hlabel'
    obtain ⟨size, -, rfl⟩ := Roster.mem_rows.1 hrow'
    exact b.label_ne_teamSize ordinal candidates

end Lineup
