import Mathlib.Data.List.Forall2
import Lineup.Proofs.Among
import Lineup.Proofs.Cells
import Lineup.Proofs.Reading
/-!
# Relevant — what a selection reads of a table

A candidate carries all cells of its record through every stage, but each stage looks at its id, its name and the
metrics that the objective or a bound names, and at nothing else.  So two tables that agree on these come to the same
program, and whatever an engine makes of it to the same result.
-/
namespace Lineup

/-! ## Lists in step -/

section Related

variable {α β : Type} {R : α → α → Prop}

theorem map_eq_of_forall₂ {f : α → β} (hf : ∀ x y, R x y → f x = f y) :
    ∀ {xs ys : List α}, List.Forall₂ R xs ys → xs.map f = ys.map f
  | _, _, .nil => rfl
  | _, _, .cons hxy hrest => by rw [List.map_cons, List.map_cons, hf _ _ hxy, map_eq_of_forall₂ hf hrest]

theorem filterMap_eq_of_forall₂ {f : α → Option β} (hf : ∀ x y, R x y → f x = f y) :
    ∀ {xs ys : List α}, List.Forall₂ R xs ys → xs.filterMap f = ys.filterMap f
  | _, _, .nil => rfl
  | _, _, .cons hxy hrest => by
    rw [List.filterMap_cons, List.filterMap_cons, hf _ _ hxy, filterMap_eq_of_forall₂ hf hrest]

end Related

/-! ## Candidates -/

structure Candidate.SameOn (metrics : List String) (c c' : Candidate) : Prop where
  id_eq : c.id = c'.id
  name_eq : c.name = c'.name
  metric?_eq : ∀ metric ∈ metrics, c.metric? metric = c'.metric? metric

namespace Candidate.SameOn

variable {c c' : Candidate} {objective : Objective} {bounds : List Bound}

theorem value_eq {metrics : List String} (h : c.SameOn metrics c') {metric : String} (hm : metric ∈ metrics) :
    c.value metric = c'.value metric := by
  unfold Candidate.value
  rw [h.metric?_eq metric hm]

theorem lacks_eq (h : c.SameOn (objective.metrics ++ bounds.map Bound.metric) c') :
    c.lacks (referencedMetrics objective bounds) = c'.lacks (referencedMetrics objective bounds) := by
  unfold Candidate.lacks
  rw [h.name_eq, List.filter_congr fun metric hm => by rw [h.metric?_eq metric (mem_referencedMetrics.1 hm)]]

theorem score_eq (h : c.SameOn (objective.metrics ++ bounds.map Bound.metric) c') :
    c.score objective = c'.score objective := by
  rw [Candidate.score_eq, Candidate.score_eq]
  refine List.foldl_ext _ _ _ fun total k hk => ?_
  rw [h.value_eq (List.mem_append_left _ (List.mem_map_of_mem hk))]

end Candidate.SameOn

/-! ## Stages -/

section Stages

variable {candidates candidates' : List Candidate} {objective : Objective} {bounds : List Bound}
  (h : List.Forall₂ (Candidate.SameOn (objective.metrics ++ bounds.map Bound.metric)) candidates candidates')
include h

/-- **A screening reads the metrics that are named.** -/
theorem forall₂_eligible : List.Forall₂ (Candidate.SameOn (objective.metrics ++ bounds.map Bound.metric))
    (screen candidates objective bounds).eligible (screen candidates' objective bounds).eligible :=
  List.rel_filter (fun c c' hc => iff_of_eq (by dsimp only; rw [hc.lacks_eq])) h

theorem excluded_eq_of_same :
    (screen candidates objective bounds).excluded = (screen candidates' objective bounds).excluded :=
  filterMap_eq_of_forall₂ (fun c c' hc => by rw [hc.lacks_eq, hc.id_eq, hc.name_eq]) h

theorem Program.over_eq_of_same (roster : Roster) (mode : Mode) :
    Program.over candidates objective bounds roster mode = Program.over candidates' objective bounds roster mode := by
  have hrow : ∀ b ∈ bounds, ∀ ordinal : Nat, b.rowOver ordinal candidates = b.rowOver ordinal candidates' := by
    intro b hb ordinal
    unfold Bound.rowOver
    rw [map_eq_of_forall₂ (fun c c' hc => hc.value_eq (List.mem_append_right _ (List.mem_map_of_mem hb))) h]
  unfold Program.over
  rw [map_eq_of_forall₂ (fun c c' hc => hc.id_eq) h, map_eq_of_forall₂ (fun c c' hc => hc.score_eq) h, h.length_eq,
    List.map_congr_left fun bo hbo => hrow bo.1 (List.fst_mem_of_mem_zipIdx hbo) bo.2]

theorem rank_eq_of_same (a : Assignment) (mode : Mode) (roster : Roster) :
    rank candidates a objective mode roster = rank candidates' a objective mode roster := by
  have hranked : a.ranked candidates objective = a.ranked candidates' objective :=
    filterMap_eq_of_forall₂ (fun c c' hc => by rw [hc.id_eq, hc.name_eq, hc.score_eq]) h
  unfold rank
  rw [hranked]

end Stages

/-- Two preparations that no engine can tell apart: the same failure, or the same program and for every answer the same
result. -/
def Interchangeable (x y : Except SelectionError Prepared) : Prop :=
  (∃ e, x = .error e ∧ y = .error e) ∨
    ∃ p q, x = .ok p ∧ y = .ok q ∧ p.program = q.program ∧ ∀ answer, p.finish answer = q.finish answer

theorem Interchangeable.bind {α : Type} {x : Except SelectionError α} {f g : α → Except SelectionError Prepared}
    (h : ∀ a, x = .ok a → Interchangeable (f a) (g a)) : Interchangeable (x >>= f) (x >>= g) := by
  cases x with
  | error e => exact Or.inl ⟨e, rfl, rfl⟩
  | ok a => exact h a rfl

theorem interchangeable_among {candidates candidates' : List Candidate} {objective : Objective} {bounds : List Bound}
    (h : List.Forall₂ (Candidate.SameOn (objective.metrics ++ bounds.map Bound.metric)) candidates candidates')
    (setup : Setup) :
    Interchangeable (prepareAmong setup candidates objective bounds)
      (prepareAmong setup candidates' objective bounds) := by
  have heligible := forall₂_eligible h
  have hprogram := Program.over_eq_of_same heligible setup.roster setup.mode
  rw [prepareAmong_eq, prepareAmong_eq, ← heligible.length_eq]
  cases Program.checkSize setup.roster (screen candidates objective bounds).eligible.length with
  | error e => exact Or.inl ⟨_, rfl, rfl⟩
  | ok u =>
    refine Or.inr ⟨_, _, rfl, rfl, hprogram, fun answer => ?_⟩
    unfold Prepared.finish Prepared.among
    simp only [hprogram, rank_eq_of_same heligible, excluded_eq_of_same h]

/-! ## Tables -/

/-- The metrics that a request names to a table; none if its criteria or its bounds cannot be read. -/
def Request.named (request : Request) (table : Table) : List String :=
  match table.catalog with
  | .error _ => []
  | .ok catalog =>
    match Objective.read catalog request.criteria, request.readBounds catalog with
    | .ok objective, .ok bounds => objective.metrics ++ bounds.map Bound.metric
    | _, _ => []

/-- The tables have the same columns and as many records, and record by record the same name and the same number, or
none, under each metric that the request names.  Nothing is said of any other cell. -/
structure Table.AgreesOn (request : Request) (table table' : Table) : Prop where
  columns_eq : table.columns = table'.columns
  length_eq : table.records.length = table'.records.length
  nameOf?_eq : ∀ id, table.nameOf? id = table'.nameOf? id
  numberOf?_eq : ∀ metric ∈ request.named table, ∀ id, table.numberOf? id metric = table'.numberOf? id metric

theorem Table.getElem_ids {table : Table} {catalog : Catalog} {candidates : List Candidate}
    (h : table.candidates catalog = .ok candidates) {k : Nat} (hk : k < candidates.length) : candidates[k].id = k := by
  have hget := List.getElem_of_eq (Table.ids_candidates h) (i := k) (by rwa [List.length_map])
  rwa [List.getElem_map, List.getElem_range] at hget

theorem Table.forall₂_candidates {table table' : Table} {catalog : Catalog} {candidates candidates' : List Candidate}
    {metrics : List String} (hcatalog : table.catalog = .ok catalog) (hcatalog' : table'.catalog = .ok catalog)
    (hcandidates : table.candidates catalog = .ok candidates)
    (hcandidates' : table'.candidates catalog = .ok candidates')
    (hmetrics : ∀ metric ∈ metrics, catalog.contains metric = true)
    (hlength : table.records.length = table'.records.length) (hname : ∀ id, table.nameOf? id = table'.nameOf? id)
    (hnumber : ∀ metric ∈ metrics, ∀ id, table.numberOf? id metric = table'.numberOf? id metric) :
    List.Forall₂ (Candidate.SameOn metrics) candidates candidates' := by
  have hlengths : candidates.length = candidates'.length := by
    have hids := congrArg List.length (Table.ids_candidates hcandidates)
    have hids' := congrArg List.length (Table.ids_candidates hcandidates')
    rw [List.length_map, List.length_range] at hids hids'
    rw [hids, hids', hlength]
  refine List.forall₂_iff_get.2 ⟨hlengths, fun k hk hk' => ?_⟩
  have hid : (candidates.get ⟨k, hk⟩).id = (candidates'.get ⟨k, hk'⟩).id :=
    (Table.getElem_ids hcandidates hk).trans (Table.getElem_ids hcandidates' hk').symm
  have hmem := List.get_mem candidates ⟨k, hk⟩
  have hmem' := List.get_mem candidates' ⟨k, hk'⟩
  refine ⟨hid, ?_, fun metric hm => ?_⟩
  · rw [Candidate.name_eq hcandidates hmem, Candidate.name_eq hcandidates' hmem', hid, hname]
  · rw [Candidate.metric?_eq hcatalog hcandidates hmem (hmetrics metric hm),
      Candidate.metric?_eq hcatalog' hcandidates' hmem' (hmetrics metric hm), hid, hnumber metric hm]

/-- **Tables that agree cannot be told apart by an engine.** -/
theorem Table.AgreesOn.interchangeable {request : Request} {table table' : Table} (h : table.AgreesOn request table')
    (setup : Setup) : Interchangeable (prepare setup table request) (prepare setup table' request) := by
  have hcatalogs : table.catalog = table'.catalog := by
    unfold Table.catalog
    rw [h.columns_eq]
  have hnumber := h.numberOf?_eq
  unfold Request.named at hnumber
  rw [prepare_eq_among, prepare_eq_among, ← hcatalogs]
  refine Interchangeable.bind fun catalog hcatalog => Interchangeable.bind fun objective hread =>
    Interchangeable.bind fun bounds hreadBounds => ?_
  have hobjective := mapError_eq_ok.1 hread
  have hbounds := mapError_eq_ok.1 hreadBounds
  rw [hcatalog] at hnumber hcatalogs
  dsimp only at hnumber
  rw [hobjective, hbounds] at hnumber
  obtain ⟨candidates, hcandidates⟩ := Table.exists_candidates (mapError_eq_ok.1 hcatalog)
  obtain ⟨candidates', hcandidates'⟩ := Table.exists_candidates (mapError_eq_ok.1 hcatalogs.symm)
  have hsame := Table.forall₂_candidates hcatalog hcatalogs.symm hcandidates hcandidates'
    (fun _ hm => Request.contains_of_read hobjective hbounds hm) h.length_eq h.nameOf?_eq hnumber
  rw [hcandidates, hcandidates']
  exact interchangeable_among hsame _

/-- **A selection depends on the names and on the metrics that are named.**  For tables that agree on these an engine,
with or without a memory, selects the same team with the same report, or the selection fails for the same reason; cells
under other columns, present or missing, make no difference. -/
theorem select_eq_of_agree {request : Request} {table table' : Table} (h : table.AgreesOn request table')
    (setup : Setup) :
    (∀ engine : Engine, select engine setup table request = select engine setup table' request) ∧
      ∀ (σ : Type) (engine : StatefulEngine σ) (state : σ),
        selectFrom engine state setup table request = selectFrom engine state setup table' request := by
  refine ⟨fun engine => ?_, fun σ engine state => ?_⟩
  all_goals
    rcases h.interchangeable setup with ⟨e, he, he'⟩ | ⟨p, q, hp, hq, hprogram, hfinish⟩
  · unfold select
    rw [he, he']
  · rw [select_of_prepare hp, select_of_prepare hq, hprogram, hfinish]
  · unfold selectFrom
    rw [he, he']
  · unfold selectFrom
    rw [hp, hq]
    dsimp only
    rw [hprogram, hfinish]

/-- Of two candidates, whose clubs and whose values of another metric differ or are missing. -/
theorem select_eq_of_agree_but_clubs : ∃ report,
    select (fun _ => .optimal [1.0, 0.0]) .standard
      ⟨[⟨"name", .text⟩, ⟨"a", .numeric⟩, ⟨"b", .numeric⟩, ⟨"club", .text⟩],
        [[some "Ada", some "3", some "1", some "X"], [some "Bob", some "1", none, none]]⟩
      ⟨"a=1", some "a<=3", some (.fixed 1), none⟩ = .ok report ∧
    select (fun _ => .optimal [1.0, 0.0]) .standard
      ⟨[⟨"name", .text⟩, ⟨"a", .numeric⟩, ⟨"b", .numeric⟩, ⟨"club", .text⟩],
        [[some "Ada", some "3", none, some "Y"], [some "Bob", some "1", some "7", some "Z"]]⟩
      ⟨"a=1", some "a<=3", some (.fixed 1), none⟩ = .ok report := by
  generalize hcolumns : ([⟨"name", .text⟩, ⟨"a", .numeric⟩, ⟨"b", .numeric⟩, ⟨"club", .text⟩] : List Column) = columns
  generalize htable : (⟨columns,
    [[some "Ada", some "3", some "1", some "X"], [some "Bob", some "1", none, none]]⟩ : Table) = table
  generalize htable' : (⟨columns,
    [[some "Ada", some "3", none, some "Y"], [some "Bob", some "1", some "7", some "Z"]]⟩ : Table) = table'
  generalize hrequest : (⟨"a=1", some "a<=3", some (.fixed 1), none⟩ : Request) = request
  obtain ⟨report, h⟩ : ∃ report, select (fun _ => .optimal [1.0, 0.0]) .standard table request = .ok report :=
    exists_eq_ok (by subst hcolumns htable hrequest; decide +kernel)
  have hnamed : request.named table = ["a", "a"] := by
    subst hcolumns htable hrequest
    decide +kernel
  have hagree : table.AgreesOn request table' := by
    refine ⟨by rw [← htable, ← htable'], by rw [← htable, ← htable']; rfl, fun id => ?_, fun metric hm id => ?_⟩
    · subst hcolumns htable htable'
      match id with
      | 0 | 1 => rfl
      | _ + 2 => rfl
    · rw [hnamed] at hm
      obtain rfl : metric = "a" := by simpa using hm
      subst hcolumns htable htable'
      match id with
      | 0 | 1 => rfl
      | _ + 2 => rfl
  exact ⟨report, h, ((select_eq_of_agree hagree .standard).1 _).symm.trans h⟩

end Lineup
