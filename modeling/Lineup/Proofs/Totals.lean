import Lineup.Proofs.Number.Integers
import Lineup.Proofs.Rows
import Lineup.Proofs.Team
import Lineup.Proofs.WellPosed
/-!
# Totals — the score of a team and the value that was solved for

The coefficient of a candidate in the objective is its score.  For zeros and ones the objective therefore comes to the
sum of the scores of the ones, in the order of the variables, and the report adds the same scores in the order of the
team.  Where nothing is rounded the order does not matter, and the two totals are one number (`totals_agree`).
-/
namespace Lineup

open Number

theorem Program.eq_over {candidates : List Candidate} {objective : Objective} {bounds : List Bound} {roster : Roster}
    {mode : Mode} {p : Program} (h : ofCandidates candidates objective bounds roster mode = .ok p) :
    p = .over candidates objective bounds roster mode :=
  ((ofCandidates_eq_ok (exists_ofCandidates_iff.1 ⟨p, h⟩).2).1 h).2

/-- **At zeros and ones the objective is the sum of the scores of the ones**, to the last bit. -/
theorem dot_scores {candidates : List Candidate} {objective : Objective} {values : List Float}
    (hfinite : ∀ c ∈ candidates, (c.score objective).isFinite = true) (hlength : values.length = candidates.length)
    (hbits : values.all isBit = true) : dot (candidates.map (·.score objective)) values =
      (((entries candidates objective values).filter fun r => r.value == 1.0).map Ranked.score).foldl (· + ·) 0.0 := by
  have hstrip : dot (candidates.map (·.score objective)) values =
      dot (candidates.map (·.score objective)) (values.map bit) :=
    eq_of_alike (alike_dot_bits (by simpa using hfinite) hbits) (dot_ne_minusZero _ _) (dot_ne_minusZero _ _)
  have hfst : (candidates.zip values).map (fun cx => cx.1.score objective) = candidates.map (·.score objective) := by
    have h := congrArg (List.map (·.score objective)) (List.map_fst_zip (Nat.le_of_eq hlength.symm))
    rwa [List.map_map] at h
  have hsnd : (candidates.zip values).map (fun cx => if cx.2 == 1.0 then 1.0 else 0.0) = values.map bit := by
    have h := congrArg (List.map bit) (List.map_snd_zip (Nat.le_of_eq hlength))
    rwa [List.map_map] at h
  have hones : ((entries candidates objective values).filter fun r => r.value == 1.0).map Ranked.score =
      ((candidates.zip values).filter fun cx => cx.2 == 1.0).map fun cx => cx.1.score objective := by
    unfold entries
    rw [← List.map_uncurry_zip_eq_zipWith, List.filter_map, List.map_map]
    rfl
  rw [hstrip, ← hfst, ← hsnd, hones]
  refine dot_select (fun cx : Candidate × Float => cx.1.score objective) (fun cx => cx.2 == 1.0) _ fun cx hcx => ?_
  exact hfinite cx.1 (List.of_mem_zip hcx).1

/-- **The coefficients are the scores, and the two totals of a report are one number** where the scores are integers and
the team has room for every candidate whose value is 1. -/
theorem totals_agree (candidates : List Candidate) (objective : Objective) (bounds : List Bound) (roster : Roster)
    (mode : Mode) (p : Program) (hp : Program.ofCandidates candidates objective bounds roster mode = .ok p) :
    p.objective = candidates.map (·.score objective) ∧
      ∀ (engine : Engine) (a : Assignment) (ns : List Int) (excluded : List Exclusion),
        (candidates.map Candidate.id).Nodup → AreInts (candidates.map (·.score objective)) ns →
        (engine p).values.all isBit = true →
        (∀ size, roster = .fixed size → (engine p).values.countP (· == 1.0) ≤ size) → p.solve engine = .ok a →
          (Report.assemble p a (rank candidates a objective .binary roster) excluded).teamScore =
            (Report.assemble p a (rank candidates a objective .binary roster) excluded).objectiveValue := by
  obtain rfl := Program.eq_over hp
  refine ⟨rfl, fun engine a ns excluded hids hints hbits hroom ha => ?_⟩
  obtain ⟨-, hlength, -, rfl⟩ := Program.assignment_eq_ok.1 ha
  generalize (engine _).values = values at *
  replace hlength : values.length = candidates.length := hlength.trans (List.length_map _)
  have hscores : (entries candidates objective values).map Ranked.score = candidates.map (·.score objective) :=
    map_entries (fun _ _ => rfl) hlength
  -- the ones are some of the candidates, so no sum of their scores is rounded either
  obtain ⟨ms, -, hones⟩ := hints.subperm (hscores ▸ (List.filter_sublist.map Ranked.score).subperm)
  have hperm := perm_rank_ones objective hlength hids hbits hroom (dot (candidates.map (·.score objective)) values)
  have hfinite : ∀ c ∈ candidates, (c.score objective).isFinite = true := by simpa using isFinite_of_forall₂ hints.1
  have hsum := hones.foldl_add_eq (hperm.map Ranked.score)
  rw [List.foldl_map, ← dot_scores hfinite hlength hbits] at hsum
  exact hsum

/-- Of two candidates with the scores 6 and 15, which are added one way and then the other; the metric is weighted
twice. -/
theorem totals_agree_on_two : ∃ p a, Program.ofCandidates [⟨0, "Ada", .ofList [("a", 2.0)], .empty⟩,
      ⟨1, "Bob", .ofList [("a", 5.0)], .empty⟩] ⟨[⟨"a", 1.0⟩, ⟨"a", 2.0⟩]⟩ [] (.fixed 2) .binary = .ok p ∧
    p.solve (fun _ => .optimal [1.0, 1.0]) = .ok a ∧
    (Report.assemble p a (rank [⟨0, "Ada", .ofList [("a", 2.0)], .empty⟩, ⟨1, "Bob", .ofList [("a", 5.0)], .empty⟩] a
      ⟨[⟨"a", 1.0⟩, ⟨"a", 2.0⟩]⟩ .binary (.fixed 2)) []).teamScore = 21.0 := by
  generalize hcandidates : ([⟨0, "Ada", .ofList [("a", 2.0)], .empty⟩, ⟨1, "Bob", .ofList [("a", 5.0)], .empty⟩] :
    List Candidate) = candidates
  generalize hobjective : (⟨[⟨"a", 1.0⟩, ⟨"a", 2.0⟩]⟩ : Objective) = objective
  obtain ⟨p, hp, hsolve⟩ : ∃ p, Program.ofCandidates candidates objective [] (.fixed 2) .binary = .ok p ∧
      (p.solve fun _ => .optimal [1.0, 1.0]).isOk = true :=
    exists_ok_of_decide (by subst hcandidates hobjective; decide +kernel)
  obtain ⟨hscores, htotals⟩ := totals_agree candidates objective [] (.fixed 2) .binary p hp
  have hscores' : candidates.map (·.score objective) = [6.0, 15.0] := by
    subst hcandidates hobjective
    decide +kernel
  rw [hscores'] at hscores htotals
  obtain ⟨a, ha⟩ := exists_eq_ok hsolve
  refine ⟨p, a, hp, ha, ?_⟩
  rw [htotals (fun _ => .optimal [1.0, 1.0]) a [6, 15] [] (by subst hcandidates; decide) (by decide +kernel)
    (by decide +kernel) (fun size hsize => by cases hsize; decide +kernel) ha]
  obtain ⟨-, -, -, rfl⟩ := Program.assignment_eq_ok.1 ha
  change dot p.objective [1.0, 1.0] = 21.0
  rw [hscores]
  decide +kernel

end Lineup
