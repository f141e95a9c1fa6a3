import Lineup.Proofs.Failures
import Lineup.Proofs.Labels
/-!
# WellPosed — which choices have a program

A choice has a program when a team of the size that is asked for can be had and no value is missing.  Otherwise the size
comes first.  Values are then looked up in a fixed order, those of the objective candidate by candidate and after them
those of the bounds one bound at a time, and the first that is missing is named.
-/
namespace Lineup

/-! ## Values that are looked up -/

/-- **What a computation looks up, in order**: it fails for the first value that is missing, and if there is none it
gives a result. -/
def LooksUp {α : Type} (x : Except ProgramError α) (asked : List (Candidate × String)) : Prop :=
  match asked.find? fun (c, metric) => (c.metric? metric).isNone with
  | none => ∃ a, x = .ok a
  | some (c, metric) => x = .error (.missingValue c.id metric)

namespace LooksUp

variable {α β : Type} {x : Except ProgramError α} {asked asked' : List (Candidate × String)}

theorem pure (a : α) : LooksUp (.ok a) [] := ⟨a, rfl⟩

theorem required (c : Candidate) (metric : String) : LooksUp (c.required metric) [(c, metric)] := by
  unfold LooksUp Candidate.required
  cases hvalue : c.metric? metric with
  | none => simp [hvalue]
  | some value => simp [hvalue]

theorem bind {f : α → Except ProgramError β} (h : LooksUp x asked) (h' : ∀ a, x = .ok a → LooksUp (f a) asked') :
    LooksUp (x >>= f) (asked ++ asked') := by
  unfold LooksUp at h ⊢
  rw [List.find?_append]
  cases hfirst : asked.find? fun (c, metric) => (c.metric? metric).isNone with
  | none =>
    rw [hfirst] at h
    obtain ⟨a, rfl⟩ := h
    rw [Option.none_or]
    exact h' a rfl
  | some missing =>
    rw [hfirst] at h
    rw [Option.some_or, h]
    rfl

theorem map {f : α → β} (h : LooksUp x asked) : LooksUp (x >>= fun a => .ok (f a)) asked := by
  have := h.bind (f := fun a => .ok (f a)) fun a _ => pure (f a)
  rwa [List.append_nil] at this

theorem mapM {γ : Type} {f : γ → Except ProgramError α} {asks : γ → List (Candidate × String)} :
    ∀ xs : List γ, (∀ x ∈ xs, LooksUp (f x) (asks x)) → LooksUp (xs.mapM f) (xs.flatMap asks)
  | [], _ => pure []
  | x :: xs, h => by
    rw [List.mapM_cons, List.flatMap_cons]
    exact (h x List.mem_cons_self).bind fun a _ => (mapM xs fun y hy => h y (List.mem_cons_of_mem x hy)).map

theorem foldlM {γ : Type} {f : β → γ → Except ProgramError β} {asks : γ → List (Candidate × String)} :
    ∀ (xs : List γ) (b : β), (∀ b, ∀ x ∈ xs, LooksUp (f b x) (asks x)) → LooksUp (xs.foldlM f b) (xs.flatMap asks)
  | [], b, _ => pure b
  | x :: xs, b, h => by
    rw [List.foldlM_cons, List.flatMap_cons]
    exact (h b x List.mem_cons_self).bind fun b' _ => foldlM xs b' fun b y hy => h b y (List.mem_cons_of_mem x hy)

theorem exists_ok_iff (h : LooksUp x asked) : (∃ a, x = .ok a) ↔ ∀ l ∈ asked, (l.1.metric? l.2).isSome = true := by
  unfold LooksUp at h
  cases hfirst : asked.find? fun (c, metric) => (c.metric? metric).isNone with
  | none =>
    rw [hfirst] at h
    refine ⟨fun _ l hl => Option.isSome_iff_ne_none.2 ?_, fun _ => h⟩
    simpa using List.find?_eq_none.1 hfirst l hl
  | some missing =>
    rw [hfirst] at h
    have hnone := List.find?_some hfirst
    constructor
    · rintro ⟨a, ha⟩
      rw [ha] at h
      cases h
    · intro hall
      have hsome := hall missing (List.mem_of_find?_eq_some hfirst)
      rw [Option.isNone_iff_eq_none] at hnone
      rw [hnone] at hsome
      cases hsome

theorem eq_error_iff {e : ProgramError} (h : LooksUp x asked) : x = .error e ↔ ∃ before c metric after,
    asked = before ++ (c, metric) :: after ∧ (∀ l ∈ before, (l.1.metric? l.2).isSome = true) ∧ c.metric? metric = none ∧
      e = .missingValue c.id metric := by
  have hfound : x = .error e ↔ ∃ c metric,
      (asked.find? fun (c, metric) => (c.metric? metric).isNone) = some (c, metric) ∧
        e = .missingValue c.id metric := by
    unfold LooksUp at h
    cases hfirst : asked.find? fun (c, metric) => (c.metric? metric).isNone with
    | none =>
      rw [hfirst] at h
      obtain ⟨a, rfl⟩ := h
      simp
    | some missing =>
      obtain ⟨c, metric⟩ := missing
      rw [hfirst] at h
      rw [h]
      simp [eq_comm]
  rw [hfound]
  simp only [List.find?_eq_some_iff_append]
  constructor
  · rintro ⟨c, metric, ⟨hnone, before, after, heq, hbefore⟩, he⟩
    exact ⟨before, c, metric, after, heq, fun l hl => by simpa using hbefore l hl, by simpa using hnone, he⟩
  · rintro ⟨before, c, metric, after, heq, hbefore, hnone, he⟩
    refine ⟨c, metric, ⟨by simp [hnone], before, after, heq, fun l hl => ?_⟩, he⟩
    have := hbefore l hl
    cases hvalue : l.1.metric? l.2 with
    | none => simp [hvalue] at this
    | some value => rfl

end LooksUp

/-- The values that a program is made of, in the order in which they are looked up. -/
def lookups (candidates : List Candidate) (objective : Objective) (bounds : List Bound) : List (Candidate × String) :=
  (candidates.flatMap fun c => objective.metrics.map fun metric => (c, metric)) ++
    bounds.flatMap fun b => candidates.map fun c => (c, b.metric)

section

variable {candidates : List Candidate} {objective : Objective} {bounds : List Bound} {roster : Roster} {mode : Mode}

theorem mem_lookups {c : Candidate} {metric : String} : (c, metric) ∈ lookups candidates objective bounds ↔
    c ∈ candidates ∧ metric ∈ objective.metrics ++ bounds.map Bound.metric := by
  simp only [lookups, List.mem_append, List.mem_flatMap, List.mem_map, Prod.mk.injEq]
  constructor
  · rintro (⟨c', hc, metric', hm, rfl, rfl⟩ | ⟨b, hb, c', hc, rfl, rfl⟩)
    · exact ⟨hc, Or.inl hm⟩
    · exact ⟨hc, Or.inr ⟨b, hb, rfl⟩⟩
  · rintro ⟨hc, hm | ⟨b, hb, rfl⟩⟩
    · exact Or.inl ⟨c, hc, metric, hm, rfl, rfl⟩
    · exact Or.inr ⟨b, hb, c, hc, rfl, rfl⟩

theorem forall_mem_lookups : (∀ l ∈ lookups candidates objective bounds, (l.1.metric? l.2).isSome = true) ↔
    ∀ c ∈ candidates, c.Complete objective bounds :=
  ⟨fun h c hc metric hm => h (c, metric) (mem_lookups.2 ⟨hc, hm⟩),
    fun h (c, metric) hl => h c (mem_lookups.1 hl).1 metric (mem_lookups.1 hl).2⟩

theorem Candidate.looksUp_coefficient (c : Candidate) (objective : Objective) :
    LooksUp (c.coefficient objective) (objective.metrics.map fun metric => (c, metric)) := by
  have hfold := LooksUp.foldlM (f := fun total k => do return total + k.weight * (← c.required k.metric))
    objective.criteria 0.0 fun total k _ => (LooksUp.required c k.metric).map
  rw [← List.map_eq_flatMap] at hfold
  unfold Objective.metrics
  rw [List.map_map]
  exact hfold

theorem Bound.looksUp_row (b : Bound) (ordinal : Nat) (candidates : List Candidate) :
    LooksUp (b.row ordinal candidates) (candidates.map fun c => (c, b.metric)) := by
  rw [List.map_eq_flatMap]
  exact (LooksUp.mapM candidates fun c _ => LooksUp.required c b.metric).map

/-- **A team of a size that can be had is set up from these values.** -/
theorem Program.looksUp_ofCandidates (h : checkSize roster candidates.length = .ok ()) :
    LooksUp (ofCandidates candidates objective bounds roster mode) (lookups candidates objective bounds) := by
  -- the places of the bounds go into the labels and are not looked up
  have hrows : LooksUp (bounds.zipIdx.mapM fun numbered => numbered.1.row numbered.2 candidates)
      (bounds.zipIdx.flatMap fun numbered => candidates.map fun c => (c, numbered.1.metric)) :=
    LooksUp.mapM bounds.zipIdx fun numbered _ => numbered.1.looksUp_row numbered.2 candidates
  have hbounds : (bounds.zipIdx.flatMap fun numbered => candidates.map fun c => (c, numbered.1.metric)) =
      bounds.flatMap fun b => candidates.map fun c => (c, b.metric) := by
    rw [← List.flatMap_map Prod.fst fun b : Bound => candidates.map fun c => (c, b.metric), List.zipIdx_map_fst]
  rw [hbounds] at hrows
  unfold ofCandidates
  rw [h]
  exact (LooksUp.mapM candidates fun c _ => c.looksUp_coefficient objective).bind fun coefficients _ => hrows.map

end

/-! ## What a program says -/

namespace Program

/-- **The program of a choice.**  Its variables are the candidates in their order; the objective has the score of each,
and the row of each bound the value of each; a last row counts the candidates if the roster fixes their number. -/
structure Poses (p : Program) (candidates : List Candidate) (objective : Objective) (bounds : List Bound)
    (roster : Roster) (mode : Mode) : Prop where
  mode_eq : p.mode = mode
  roster_eq : p.roster = roster
  ids_eq : p.ids = candidates.map Candidate.id
  length_objective : p.objective.length = p.ids.length
  length_coefficients : ∀ row ∈ p.rows, row.coefficients.length = p.ids.length
  coefficient_of_candidate : ∀ (j : Nat) (c : Candidate), candidates[j]? = some c →
    p.objective[j]? = some (c.score objective)
  row_of_bound : ∀ (i : Nat) (b : Bound), bounds[i]? = some b → ∃ row, p.rows[i]? = some row ∧ row.sense = b.sense ∧
    row.rhs = b.threshold ∧ ∀ (j : Nat) (c : Candidate), candidates[j]? = some c →
      ∃ value, c.metric? b.metric = some value ∧ row.coefficients[j]? = some value
  rows_of_fixed : ∀ size, roster = .fixed size →
    p.rows.drop bounds.length = [⟨"team_size", List.replicate candidates.length 1.0, .equal, Float.ofNat size⟩]
  rows_of_unbounded : roster = .unbounded → p.rows.drop bounds.length = []
  nodup_labels : (p.rows.map Row.label).Nodup

section

variable {candidates : List Candidate} {objective : Objective} {bounds : List Bound} {roster : Roster} {mode : Mode}

theorem over_poses (h : ∀ c ∈ candidates, c.Complete objective bounds) :
    (Program.over candidates objective bounds roster mode).Poses candidates objective bounds roster mode where
  mode_eq := rfl
  roster_eq := rfl
  ids_eq := rfl
  length_objective := (List.length_map _).trans (List.length_map _).symm
  length_coefficients row hrow := (length_coefficients_over hrow).trans (List.length_map _).symm
  coefficient_of_candidate j c hj := by
    unfold Program.over
    rw [List.getElem?_map, hj]
    rfl
  row_of_bound i b hi := by
    refine ⟨b.rowOver i candidates, getElem?_rows_over hi, rfl, rfl, fun j c hj => ?_⟩
    obtain ⟨value, hvalue⟩ := Option.isSome_iff_exists.1
      ((h c (List.mem_of_getElem? hj)).bound (List.mem_of_getElem? hi))
    refine ⟨value, hvalue, ?_⟩
    unfold Bound.rowOver Candidate.value
    rw [List.getElem?_map, hj, Option.map_some, hvalue, Option.getD_some]
  rows_of_fixed size hroster := by
    rw [drop_rows_over, hroster]
    rfl
  rows_of_unbounded hroster := by
    rw [drop_rows_over, hroster]
    rfl
  nodup_labels := nodup_labels candidates objective bounds roster mode

theorem exists_ofCandidates_iff : (∃ p, ofCandidates candidates objective bounds roster mode = .ok p) ↔
    roster.Fits candidates.length ∧ ∀ c ∈ candidates, c.Complete objective bounds := by
  cases hsize : checkSize roster candidates.length with
  | error e =>
    rw [ofCandidates_of_checkSize hsize]
    refine ⟨nofun, fun ⟨hfits, _⟩ => ?_⟩
    rw [checkSize_eq_ok.2 hfits] at hsize
    cases hsize
  | ok u =>
    rw [(looksUp_ofCandidates hsize).exists_ok_iff, forall_mem_lookups]
    exact ⟨fun h => ⟨checkSize_eq_ok.1 hsize, h⟩, And.right⟩

/-- **A size that cannot be had comes before a value that is missing.** -/
theorem ofCandidates_eq_error_iff {e : ProgramError} : ofCandidates candidates objective bounds roster mode = .error e ↔
    checkSize roster candidates.length = .error e ∨ roster.Fits candidates.length ∧ ∃ before c metric after,
      lookups candidates objective bounds = before ++ (c, metric) :: after ∧
        (∀ l ∈ before, (l.1.metric? l.2).isSome = true) ∧ c.metric? metric = none ∧ e = .missingValue c.id metric := by
  cases hsize : checkSize roster candidates.length with
  | error e' =>
    rw [ofCandidates_of_checkSize hsize, Except.error.injEq, Except.error.injEq]
    refine ⟨Or.inl, fun h => h.elim id fun ⟨hfits, _⟩ => ?_⟩
    rw [checkSize_eq_ok.2 hfits] at hsize
    cases hsize
  | ok u =>
    rw [(looksUp_ofCandidates hsize).eq_error_iff]
    exact ⟨fun hmissing => Or.inr ⟨checkSize_eq_ok.1 hsize, hmissing⟩, fun h => h.elim nofun And.right⟩

end

/-- **Which choices have a program, what it says, and why others have none.**  There is a program exactly when the
roster can be filled and every candidate is complete.  Its rows are those of the bounds in order and the one of the
roster, and no two have one label, whatever the metrics are called.  If there is none, the size of the team is the
reason before any value is, and then the first value that is missing in the order in which they are looked up. -/
theorem ofCandidates_well_posed (candidates : List Candidate) (objective : Objective) (bounds : List Bound)
    (roster : Roster) (mode : Mode) :
    ((∃ p, ofCandidates candidates objective bounds roster mode = .ok p) ↔
      roster ≠ .fixed 0 ∧ (∀ size, roster = .fixed size → size ≤ candidates.length) ∧ candidates ≠ [] ∧
        ∀ c ∈ candidates, ∀ metric ∈ objective.metrics ++ bounds.map Bound.metric, (c.metric? metric).isSome = true) ∧
    (∀ p, ofCandidates candidates objective bounds roster mode = .ok p →
      p.Poses candidates objective bounds roster mode) ∧
    ∀ e, ofCandidates candidates objective bounds roster mode = .error e ↔
      (roster = .fixed 0 ∧ e = .emptyTeam) ∨
      (∃ size, roster = .fixed size ∧ 0 < size ∧ candidates.length < size ∧
        e = .tooFewCandidates size candidates.length) ∨
      (roster = .unbounded ∧ candidates = [] ∧ e = .noCandidates) ∨
      roster.Fits candidates.length ∧ ∃ before c metric after,
        (candidates.flatMap fun c => objective.metrics.map fun metric => (c, metric)) ++
          (bounds.flatMap fun b => candidates.map fun c => (c, b.metric)) = before ++ (c, metric) :: after ∧
        (∀ l ∈ before, (l.1.metric? l.2).isSome = true) ∧ c.metric? metric = none ∧ e = .missingValue c.id metric := by
  refine ⟨?_, fun p hp => ?_, fun e => ?_⟩
  · rw [exists_ofCandidates_iff, ← List.length_pos_iff]
    exact ⟨fun ⟨hfits, hcomplete⟩ => ⟨hfits.ne_zero, hfits.size_le, hfits.pos, hcomplete⟩,
      fun ⟨hzero, hle, hpos, hcomplete⟩ => ⟨⟨hzero, hle, hpos⟩, hcomplete⟩⟩
  · have hcomplete := (exists_ofCandidates_iff.1 ⟨p, hp⟩).2
    rw [((ofCandidates_eq_ok hcomplete).1 hp).2]
    exact over_poses hcomplete
  · rw [ofCandidates_eq_error_iff, checkSize_eq_error, List.length_eq_zero_iff, or_assoc, or_assoc]
    rfl

/-- One candidate has a program, and its two rows have labels that differ although the metric is called like a label.
Of two candidates that lack a value each, the one that the objective asks for is named, although its candidate comes
second. -/
theorem ofCandidates_well_posed_of_missing :
    (∃ p, ofCandidates [⟨7, "Ada", .ofList [("team_size", 3.0)], .empty⟩] ⟨[⟨"team_size", 1.0⟩, ⟨"team_size", 2.0⟩]⟩
        [⟨"team_size", .atMost, 2.0⟩] (.fixed 1) .binary = .ok p ∧ p.ids = [7] ∧ (p.rows.map Row.label).Nodup ∧
        p.rows.drop 1 = [⟨"team_size", [1.0], .equal, Float.ofNat 1⟩]) ∧
      ofCandidates [⟨0, "Ada", .ofList [("a", 3.0)], .empty⟩, ⟨1, "Bob", .ofList [("b", 1.0)], .empty⟩] ⟨[⟨"a", 1.0⟩]⟩
        [⟨"b", .atMost, 2.0⟩] (.fixed 1) .binary = .error (.missingValue 1 "a") := by
  constructor
  · obtain ⟨hiff, hposes, -⟩ := ofCandidates_well_posed [⟨7, "Ada", .ofList [("team_size", 3.0)], .empty⟩]
      ⟨[⟨"team_size", 1.0⟩, ⟨"team_size", 2.0⟩]⟩ [⟨"team_size", .atMost, 2.0⟩] (.fixed 1) .binary
    obtain ⟨p, hp⟩ := hiff.2
      ⟨by decide, fun size hsize => by cases hsize; decide, List.cons_ne_nil _ _, by decide +kernel⟩
    exact ⟨p, hp, (hposes p hp).ids_eq, (hposes p hp).nodup_labels, (hposes p hp).rows_of_fixed 1 rfl⟩
  · refine ((ofCandidates_well_posed _ _ _ _ _).2.2 _).2 (Or.inr (Or.inr (Or.inr ⟨?_, ?_⟩)))
    · exact ⟨by decide, fun size hsize => by cases hsize; decide, by decide⟩
    · refine ⟨[(⟨0, "Ada", .ofList [("a", 3.0)], .empty⟩, "a")], ⟨1, "Bob", .ofList [("b", 1.0)], .empty⟩, "a", _,
        rfl, ?_⟩
      exact ⟨by decide +kernel, by decide +kernel, rfl⟩

end Program

end Lineup
