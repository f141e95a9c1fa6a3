import Lineup.Proofs.Prepared
import Lineup.Proofs.Team
/-!
# Alignment — every number in a report belongs to its record

Records that are set aside shift the places of all that follow: a candidate has one place in the table, one among the
variables and one in the team.  Its id is the place in the table throughout, so what the report says of an id is what
the table and the engine said of it.
-/
namespace Lineup

theorem Candidate.score_eq_dot (c : Candidate) (objective : Objective) :
    c.score objective =
      dot (objective.criteria.map Criterion.weight) (objective.criteria.map fun k => c.value k.metric) := by
  rw [Candidate.score_eq]
  unfold dot
  rw [List.zip_map', List.foldl_map]

namespace Prepared.Of

variable {p : Prepared} {setup : Setup} {table : Table} {request : Request} {catalog : Catalog} {bounds : List Bound}
  {candidates : List Candidate}

theorem lacks_eq (h : p.Of setup table request catalog bounds candidates) (hload : table.Loaded) {c : Candidate}
    (hc : c ∈ candidates) :
    (c.lacks (referencedMetrics p.objective bounds)).isEmpty = table.isComplete p.objective bounds c.id :=
  hload.lacks_isEmpty h.catalog_eq h.candidates_eq hc fun _ hm => h.contains_metric hm

theorem ids_eq_filter (h : p.Of setup table request catalog bounds candidates) (hload : table.Loaded) :
    p.program.ids = (List.range table.records.length).filter (table.isComplete p.objective bounds) := by
  rw [h.ids, h.screening_eq, ids_eligible, ← Table.ids_candidates h.candidates_eq, List.filter_map]
  exact congrArg (List.map Candidate.id) (List.filter_congr fun c hc => h.lacks_eq hload hc)

theorem excluded_eq_filter (h : p.Of setup table request catalog bounds candidates) (hload : table.Loaded) :
    p.screening.excluded.map Exclusion.id =
      (List.range table.records.length).filter fun id => !table.isComplete p.objective bounds id := by
  rw [h.screening_eq, ids_excluded, ← Table.ids_candidates h.candidates_eq, List.filter_map]
  exact congrArg (List.map Candidate.id) (List.filter_congr fun c hc => congrArg not (h.lacks_eq hload hc))

theorem nameOf?_eq (h : p.Of setup table request catalog bounds candidates) (hload : table.Loaded) {c : Candidate}
    (hc : c ∈ p.screening.eligible) : table.nameOf? c.id = some c.name := by
  have hmem := h.mem_candidates hc
  rw [h.screening_eq] at hc
  have hblank := (mem_eligible.1 hc).2.1
  rw [hload.allBlank_name h.candidates_eq hmem, Bool.not_eq_false'] at hblank
  rw [Candidate.name_eq h.candidates_eq hmem]
  cases hname : table.nameOf? c.id with
  | none => rw [hname] at hblank; cases hblank
  | some name => rfl

theorem numbers_eq (h : p.Of setup table request catalog bounds candidates) {c : Candidate}
    (hc : c ∈ p.screening.eligible) :
    (p.objective.criteria.map fun k => table.numberOf? c.id k.metric) =
      (p.objective.criteria.map fun k => c.value k.metric).map some := by
  rw [List.map_map]
  exact List.map_congr_left fun k hk => h.numberOf?_eq hc (List.mem_append_left _ (List.mem_map_of_mem hk))

end Prepared.Of

/-- **A report keeps the records apart.**  The variables of the program are the complete records in ascending order;
whoever is in the team has the name of its own record, the score of its own cells, and the value of its own variable;
nobody is in the team twice; and the records that are not complete are set aside in ascending order, so that no record
is lost. -/
theorem report_aligned {engine : Engine} {setup : Setup} {bytes : List UInt8} {table : Table} {request : Request}
    {report : Report} (hload : Table.load bytes = .ok table) (h : select engine setup table request = .ok report) :
    ∃ p catalog bounds, prepare setup table request = .ok p ∧ table.catalog = .ok catalog ∧
      Objective.read catalog request.criteria = .ok p.objective ∧ request.readBounds catalog = .ok bounds ∧
      p.program.ids = (List.range table.records.length).filter (table.isComplete p.objective bounds) ∧
      (∀ r ∈ report.team, ∃ k : Nat, p.program.ids[k]? = some r.id ∧ table.nameOf? r.id = some r.name ∧
        (∃ cells, (p.objective.criteria.map fun c => table.numberOf? r.id c.metric) = cells.map some ∧
          r.score = dot (p.objective.criteria.map Criterion.weight) cells) ∧
        (engine p.program).values[k]? = some r.value) ∧
      (report.team.map Ranked.id).Nodup ∧
      report.excluded.map Exclusion.id =
        (List.range table.records.length).filter (fun id => !table.isComplete p.objective bounds id) ∧
      report.eligible + report.excluded.length = table.records.length := by
  obtain ⟨p, hp, hfinish⟩ := select_eq_ok.1 h
  obtain ⟨catalog, bounds, candidates, hof⟩ := prepare_eq_ok.1 hp
  obtain ⟨-, hlength, -, rfl⟩ := Prepared.finish_eq_ok.1 hfinish
  have hloaded := Table.loaded_of_load hload
  obtain ⟨hsub, hnodup⟩ := hof.subperm_team hlength
  refine ⟨p, catalog, bounds, hp, hof.catalog_eq, hof.objective_eq, hof.bounds_eq, hof.ids_eq_filter hloaded, ?_,
    hnodup, hof.excluded_eq_filter hloaded, ?_⟩
  · intro r hr
    obtain ⟨k, c, x, hc, hx, rfl⟩ := mem_entries.1 (hsub.subset hr)
    have hmem := List.mem_of_getElem? hc
    refine ⟨k, ?_, hof.nameOf?_eq hloaded hmem, ⟨_, hof.numbers_eq hmem, c.score_eq_dot p.objective⟩, hx⟩
    rw [hof.ids, List.getElem?_map, hc]
    rfl
  · have hlengths := length_screen candidates p.objective bounds
    have hids := congrArg List.length (Table.ids_candidates hof.candidates_eq)
    rw [List.length_map, List.length_range] at hids
    rw [← hof.screening_eq, hids] at hlengths
    change p.program.ids.length + p.screening.excluded.length = _
    rw [hof.length_ids, hlengths]

/-- Of four records the second has no name and the third no value. -/
theorem report_aligned_with_gaps : ∃ table report,
    Table.load (Text.Utf8.encode "name,a\nAda,3\n,4\nBob,\nCid,5\n") = .ok table ∧
      select (fun p => .optimal (p.ids.map fun _ => 1.0)) ⟨.unbounded, .fractional⟩ table
        ⟨"a=2", some "a<=9", none, none⟩ = .ok report ∧
      (report.team.map Ranked.id).Nodup ∧ report.eligible + report.excluded.length = table.records.length := by
  generalize hengine : (fun p => .optimal (p.ids.map fun _ => 1.0) : Engine) = engine
  generalize hrequest : (⟨"a=2", some "a<=9", none, none⟩ : Request) = request
  have hok : ((Table.load (Text.Utf8.encode "name,a\nAda,3\n,4\nBob,\nCid,5\n")).toOption.any fun table =>
      (select engine ⟨.unbounded, .fractional⟩ table request).isOk) = true := by
    subst hengine hrequest
    decide +kernel
  cases hload : Table.load (Text.Utf8.encode "name,a\nAda,3\n,4\nBob,\nCid,5\n") with
  | error e => rw [hload] at hok; cases hok
  | ok table =>
    rw [hload] at hok
    obtain ⟨report, h⟩ := exists_eq_ok hok
    obtain ⟨-, -, -, -, -, -, -, -, -, hnodup, -, hall⟩ := report_aligned hload h
    exact ⟨table, report, rfl, h, hnodup, hall⟩

end Lineup
