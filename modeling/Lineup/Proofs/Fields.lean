import Lineup.Proofs.Cells
import Lineup.Proofs.Failures
import Mathlib.Data.List.InsertIdx
/-!
# Fields — where the cells of a record go

Every present cell of a record, the name apart, stands in one of the two maps of its candidate, under the name of its
column: as a number under a metric, as text under any other column.  Nothing else stands there (`candidates_mirror`).

A cell under a metric would be lost if it did not read as a number; it does, because the kind of a column was found by
reading all of its cells.  Two columns would share a place if they had the same name; the catalog allows no such
columns.
-/
namespace Lineup

theorem exists_cell_of_mem_fields {ν : Type} {f : Column × Option String → Option (String × ν)}
    (hname : ∀ field kv, f field = some kv → field.1.name = kv.1) {columns : List Column}
    (hdistinct : columns.Pairwise fun a b => a.name ≠ b.name) (hnone : ∀ column, f (column, none) = none)
    {nameIndex : Nat} {cells : List (Option String)} {key : String}
    (h : key ∈ Std.TreeMap.ofList (((columns.zip cells).eraseIdx nameIndex).filterMap f)) :
    ∃ (index : Nat) (column : Column) (text : String), index ≠ nameIndex ∧ columns[index]? = some column ∧
      column.name = key ∧ cells[index]? = some (some text) := by
  rw [Std.TreeMap.mem_iff_isSome_getElem?, Option.isSome_iff_exists] at h
  obtain ⟨v, hv⟩ := h
  obtain ⟨index, column, cell, hne, hcolumn, hcell, hf⟩ := (getElem?_fields_eq_some_iff hname hdistinct).1 hv
  cases cell with
  | none =>
    rw [hnone] at hf
    cases hf
  | some text => exact ⟨index, column, text, hne, hcolumn, hname _ _ hf, hcell⟩

namespace Candidate

/-- The cell stands under `name` in the one map where it belongs, and in neither map if it is missing. -/
def Keeps (c : Candidate) (catalog : Catalog) (name : String) : Option String → Prop
  | none => c.metrics[name]? = none ∧ c.attributes[name]? = none
  | some text =>
    if catalog.contains name then
      (∃ x, Number.finite? text = some x ∧ c.metrics[name]? = some x) ∧ c.attributes[name]? = none
    else c.metrics[name]? = none ∧ c.attributes[name]? = some text

/-- **The candidate holds the cells of a record, and nothing else.** -/
structure Mirrors (c : Candidate) (catalog : Catalog) (columns : List Column) (nameIndex : Nat)
    (cells : List (Option String)) : Prop where
  name_eq : ∃ cell, cells[nameIndex]? = some cell ∧ c.name = cell.getD ""
  keeps : ∀ (index : Nat) (column : Column), columns[index]? = some column → index ≠ nameIndex →
    ∃ cell, cells[index]? = some cell ∧ c.Keeps catalog column.name cell
  only : ∀ key, key ∈ c.metrics ∨ key ∈ c.attributes → ∃ (index : Nat) (column : Column) (text : String),
    index ≠ nameIndex ∧ columns[index]? = some column ∧ column.name = key ∧ cells[index]? = some (some text)
  size_add : c.metrics.size + c.attributes.size = (cells.eraseIdx nameIndex).countP Option.isSome

theorem name_of_attribute? {catalog : Catalog} (field : Column × Option String) (kv : String × String)
    (h : attribute? catalog field = some kv) : field.1.name = kv.1 := by
  obtain ⟨column, _ | text⟩ := field
  · cases h
  · obtain ⟨-, rfl⟩ : catalog.contains column.name = false ∧ (column.name, text) = kv := by simpa [attribute?] using h
    rfl

theorem length_readings_add {catalog : Catalog} : ∀ {fields : List (Column × Option String)},
    (∀ column text, (column, some text) ∈ fields → catalog.contains column.name = true →
      (Number.finite? text).isSome = true) →
    (fields.filterMap (reading? catalog)).length + (fields.filterMap (attribute? catalog)).length =
      (fields.map Prod.snd).countP Option.isSome
  | [], _ => rfl
  | (column, cell) :: fields, hnumeric => by
    have ih := length_readings_add fun column text hmem => hnumeric column text (List.mem_cons_of_mem _ hmem)
    cases cell with
    | none => simpa [List.filterMap_cons, reading?, attribute?] using ih
    | some text =>
      rw [List.map_cons, List.countP_cons_of_pos rfl, ← ih]
      by_cases hc : catalog.contains column.name = true
      · obtain ⟨x, hx⟩ := Option.isSome_iff_exists.1 (hnumeric column text List.mem_cons_self hc)
        rw [List.filterMap_cons_some (b := (column.name, x)) (by simp [reading?, hc, hx]),
          List.filterMap_cons_none (by simp [attribute?, hc]), List.length_cons, Nat.add_right_comm]
      · rw [List.filterMap_cons_none (by simp [reading?, hc]),
          List.filterMap_cons_some (b := (column.name, text)) (by simp [attribute?, hc]), List.length_cons,
          Nat.add_assoc]

section

variable {catalog : Catalog} {columns : List Column} {cells : List (Option String)}
  (hdistinct : columns.Pairwise fun a b => a.name ≠ b.name)
  (hnumeric : ∀ (index : Nat) (column : Column) (text : String), columns[index]? = some column →
    cells[index]? = some (some text) → catalog.contains column.name = true → (Number.finite? text).isSome = true)
include hdistinct hnumeric

theorem keeps_ofRecord {nameIndex index : Nat} {column : Column} (hcolumn : columns[index]? = some column)
    (hne : index ≠ nameIndex) (id : Nat) {cell : Option String} (hcell : cells[index]? = some cell) :
    (ofRecord catalog columns nameIndex id cells).Keeps catalog column.name cell := by
  have hmetrics := getElem?_fields name_of_reading? (f := reading? catalog) hdistinct hne hcolumn cells
  have hattributes := getElem?_fields name_of_attribute? (f := attribute? catalog) hdistinct hne hcolumn cells
  rw [hcell, Option.bind_some] at hmetrics hattributes
  cases cell with
  | none => exact ⟨hmetrics, hattributes⟩
  | some text =>
    unfold Keeps ofRecord
    dsimp only
    rw [hmetrics, hattributes]
    by_cases hc : catalog.contains column.name = true
    · obtain ⟨x, hx⟩ := Option.isSome_iff_exists.1 (hnumeric index column text hcolumn hcell hc)
      simp [reading?, attribute?, hc, hx]
    · simp [reading?, attribute?, hc]

theorem Mirrors.ofRecord (hlength : cells.length = columns.length) {nameIndex : Nat}
    (hname : nameIndex < columns.length) (id : Nat) :
    (ofRecord catalog columns nameIndex id cells).Mirrors catalog columns nameIndex cells := by
  constructor
  · refine ⟨_, List.getElem?_eq_getElem (hlength ▸ hname), ?_⟩
    unfold Candidate.ofRecord
    rw [List.getElem?_eq_getElem (hlength ▸ hname)]
    rfl
  · intro index column hcolumn hne
    have hlt : index < cells.length := hlength ▸ (List.getElem?_eq_some_iff.1 hcolumn).1
    exact ⟨_, List.getElem?_eq_getElem hlt,
      keeps_ofRecord hdistinct hnumeric hcolumn hne id (List.getElem?_eq_getElem hlt)⟩
  · rintro key (hkey | hkey)
    · exact exists_cell_of_mem_fields name_of_reading? hdistinct (fun _ => rfl) hkey
    · exact exists_cell_of_mem_fields name_of_attribute? hdistinct (fun _ => rfl) hkey
  · have hsnd : ((columns.zip cells).eraseIdx nameIndex).map Prod.snd = cells.eraseIdx nameIndex := by
      rw [← List.eraseIdx_map, List.map_snd_zip (Nat.le_of_eq hlength)]
    unfold Candidate.ofRecord
    dsimp only
    rw [size_ofList_eq_length_iff.2 (List.pairwise_map.2 (pairwise_fields name_of_reading? hdistinct nameIndex cells)),
      size_ofList_eq_length_iff.2 (List.pairwise_map.2 (pairwise_fields name_of_attribute? hdistinct nameIndex cells)),
      length_readings_add, hsnd]
    intro column text hmem hc
    obtain ⟨index, -, hindex⟩ := List.mem_eraseIdx_iff_getElem?.1 hmem
    obtain ⟨hcolumn, hcell⟩ := List.getElem?_zip_eq_some.1 hindex
    exact hnumeric index column text hcolumn hcell hc

end

end Candidate

/-- **No cell is lost and none is invented**: the candidates of a loaded table hold the cells of its records. -/
theorem candidates_mirror {bytes : List UInt8} {table : Table} (hload : Table.load bytes = .ok table)
    {catalog : Catalog} (hcatalog : Catalog.ofColumns table.columns = .ok catalog) :
    ∃ nameIndex candidates, (∀ index, (∃ column, table.columns[index]? = some column ∧ column.holdsNames = true) ↔
        index = nameIndex) ∧
      table.candidates catalog = .ok candidates ∧ candidates.length = table.records.length ∧
      ∀ (id : Nat) (cells : List (Option String)), table.records[id]? = some cells →
        ∃ c, candidates[id]? = some c ∧ c.id = id ∧ c.Mirrors catalog table.columns nameIndex cells := by
  obtain ⟨candidates, hcandidates⟩ := Table.exists_candidates hcatalog
  obtain ⟨nameIndex, hindex, hunique⟩ := Catalog.exists_nameIndex hcatalog
  have hwell := Table.WellFormed.of_load hload
  have hlength := congrArg List.length (Table.ids_candidates hcandidates)
  rw [List.length_map, List.length_range] at hlength
  refine ⟨nameIndex, candidates, hunique, hcandidates, hlength, fun id cells hcells => ?_⟩
  obtain ⟨nameIndex', hindex', rfl⟩ := Table.candidates_eq_ok.1 hcandidates
  obtain rfl : nameIndex = nameIndex' := Option.some_inj.1 (hindex.symm.trans hindex')
  refine ⟨Candidate.ofRecord catalog table.columns nameIndex id cells, by simp [hcells], rfl, ?_⟩
  refine .ofRecord (Catalog.pairwise_name_ne hcatalog) (fun index column text hcolumn hcell hc => ?_)
    (hwell.rectangular cells (List.mem_of_getElem? hcells)) (List.findIdx?_eq_some_iff_getElem.1 hindex).1 id
  have hmetric := Catalog.isMetric_of_contains hcatalog (List.mem_of_getElem? hcolumn) hc
  exact hwell.loaded.numeric hcolumn (Column.isMetric_iff.1 hmetric).1 (Table.cellAt?_eq_some.2 ⟨cells, hcells, hcell⟩)

/-- A text and a metric; a name, a text and a number are missing. -/
theorem candidates_mirror_of_gaps : ∃ table candidates,
    Table.load (Text.Utf8.encode "Name,club,goals\nAda,North,3\n,NA,4.5\nBo,,\n") = .ok table ∧
      Catalog.ofColumns table.columns = .ok ⟨["goals"]⟩ ∧ table.candidates ⟨["goals"]⟩ = .ok candidates ∧
      ∃ a b c, candidates = [a, b, c] ∧
        a.Mirrors ⟨["goals"]⟩ table.columns 0 [some "Ada", some "North", some "3"] ∧
        b.Mirrors ⟨["goals"]⟩ table.columns 0 [none, none, some "4.5"] ∧
        c.Mirrors ⟨["goals"]⟩ table.columns 0 [some "Bo", none, none] := by
  generalize hbytes : Text.Utf8.encode "Name,club,goals\nAda,North,3\n,NA,4.5\nBo,,\n" = bytes
  obtain ⟨table, hload, htable⟩ : ∃ table, Table.load bytes = .ok table ∧
      table = ⟨[⟨"Name", .text⟩, ⟨"club", .text⟩, ⟨"goals", .numeric⟩],
        [[some "Ada", some "North", some "3"], [none, none, some "4.5"], [some "Bo", none, none]]⟩ :=
    exists_ok_of_decide (by subst hbytes; decide +kernel)
  have hcatalog : Catalog.ofColumns table.columns = .ok ⟨["goals"]⟩ := by
    subst htable
    decide +kernel
  obtain ⟨nameIndex, candidates, hunique, hcandidates, hlength, hmirror⟩ := candidates_mirror hload hcatalog
  subst htable
  obtain rfl : 0 = nameIndex := (hunique 0).1 ⟨_, rfl, by decide⟩
  obtain ⟨a, b, c, rfl⟩ := List.length_eq_three.1 hlength
  obtain ⟨a', ha, -, hamirror⟩ := hmirror 0 _ rfl
  obtain ⟨b', hb, -, hbmirror⟩ := hmirror 1 _ rfl
  obtain ⟨c', hc, -, hcmirror⟩ := hmirror 2 _ rfl
  cases ha
  cases hb
  cases hc
  exact ⟨_, _, hload, hcatalog, hcandidates, a, b, c, rfl, hamirror, hbmirror, hcmirror⟩

end Lineup
