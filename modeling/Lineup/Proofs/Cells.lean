import Lineup.Proofs.Columns
import Lineup.Proofs.Keyed
import Lineup.Proofs.Stages
import Lineup.Proofs.WellFormed
/-!
# Cells — the cells behind the values of a candidate

A candidate's value of a metric is the number in the cell of its record under the metric's column.  In a table that was
loaded every present cell says something, and under a numeric column it is a number; so a candidate lacks a name or a
value exactly when its record lacks the cell.
-/
namespace Lineup

theorem findIdx?_name {columns : List Column} (h : columns.Pairwise fun a b => a.name ≠ b.name) {index : Nat}
    {column : Column} (hcolumn : columns[index]? = some column) :
    columns.findIdx? (fun c => c.name == column.name) = some index := by
  obtain ⟨hlt, heq⟩ := List.getElem?_eq_some_iff.1 hcolumn
  refine List.findIdx?_eq_some_iff_getElem.2 ⟨hlt, beq_iff_eq.2 (congrArg Column.name heq), fun j hj hsame => ?_⟩
  rw [← heq] at hsame
  exact List.pairwise_iff_getElem.1 h j index (Nat.lt_trans hj hlt) hlt hj (beq_iff_eq.1 hsame)

theorem Catalog.exists_index {table : Table} {catalog : Catalog} (hcatalog : table.catalog = .ok catalog)
    {metric : String} (hm : catalog.contains metric = true) : ∃ index column, table.columns[index]? = some column ∧
      column.name = metric ∧ column.isMetric = true ∧
      table.columns.findIdx? (fun c => c.name == metric) = some index := by
  obtain ⟨column, hcolumn, rfl, hmetric⟩ := exists_column (mapError_eq_ok.1 hcatalog) hm
  obtain ⟨index, hindex⟩ := List.getElem?_of_mem hcolumn
  exact ⟨index, column, hindex, rfl, hmetric, findIdx?_name (pairwise_name_ne (mapError_eq_ok.1 hcatalog)) hindex⟩

/-! ## Cells of a record -/

namespace Table

def cellAt? (table : Table) (id index : Nat) : Option String :=
  (table.records[id]?.bind fun cells => cells[index]?).join

def nameOf? (table : Table) (id : Nat) : Option String :=
  (table.columns.findIdx? Column.holdsNames).bind (table.cellAt? id)

def cellOf? (table : Table) (id : Nat) (metric : String) : Option String :=
  (table.columns.findIdx? fun column => column.name == metric).bind (table.cellAt? id)

def numberOf? (table : Table) (id : Nat) (metric : String) : Option Float :=
  (table.cellOf? id metric).bind Number.finite?

/-- The record has a name, and a cell under every metric that the objective or a bound names. -/
def isComplete (table : Table) (objective : Objective) (bounds : List Bound) (id : Nat) : Bool :=
  (table.nameOf? id).isSome &&
    (objective.metrics ++ bounds.map Bound.metric).all fun metric => (table.cellOf? id metric).isSome

end Table

theorem isFinite_of_numberOf? {table : Table} {id : Nat} {metric : String} {x : Float}
    (h : table.numberOf? id metric = some x) : x.isFinite = true := by
  obtain ⟨text, -, hx⟩ := Option.bind_eq_some_iff.1 h
  exact Number.isFinite_of_readFinite? hx

/-! ## Fields of a record -/

section Fields

variable {ν : Type} {f : Column × Option String → Option (String × ν)}
  (hname : ∀ field kv, f field = some kv → field.1.name = kv.1) {columns : List Column}
  (hdistinct : columns.Pairwise fun a b => a.name ≠ b.name)
include hname hdistinct

theorem pairwise_fields (nameIndex : Nat) (cells : List (Option String)) :
    (((columns.zip cells).eraseIdx nameIndex).filterMap f).Pairwise fun a b => a.1 ≠ b.1 := by
  refine List.pairwise_filterMap.2 (List.Pairwise.sublist (List.eraseIdx_sublist _ _) ?_)
  refine List.pairwise_iff_getElem.2 fun i j hi hj hij a ha b hb hkey => ?_
  rw [List.getElem_zip] at ha hb
  rw [List.length_zip] at hi hj
  refine List.pairwise_iff_getElem.1 hdistinct i j (by omega) (by omega) hij ?_
  exact (hname _ _ ha).trans (hkey.trans (hname _ _ hb).symm)

theorem getElem?_fields_eq_some_iff {nameIndex : Nat} {cells : List (Option String)} {key : String} {v : ν} :
    (Std.TreeMap.ofList (((columns.zip cells).eraseIdx nameIndex).filterMap f))[key]? = some v ↔
      ∃ index column cell, index ≠ nameIndex ∧ columns[index]? = some column ∧ cells[index]? = some cell ∧
        f (column, cell) = some (key, v) := by
  rw [getElem?_ofList_iff (pairwise_fields hname hdistinct nameIndex cells), List.mem_filterMap]
  constructor
  · rintro ⟨⟨column, cell⟩, hmem, hf⟩
    obtain ⟨index, hindex, hzip⟩ := List.mem_eraseIdx_iff_getElem?.1 hmem
    obtain ⟨hcolumn, hcell⟩ := List.getElem?_zip_eq_some.1 hzip
    exact ⟨index, column, cell, hindex, hcolumn, hcell, hf⟩
  · rintro ⟨index, column, cell, hindex, hcolumn, hcell, hf⟩
    exact ⟨(column, cell), List.mem_eraseIdx_iff_getElem?.2 ⟨index, hindex,
      List.getElem?_zip_eq_some.2 ⟨hcolumn, hcell⟩⟩, hf⟩

/-- **Under the name of a column stands what is made of its own field**: no other column has the name. -/
theorem getElem?_fields {nameIndex index : Nat} {column : Column} (hne : index ≠ nameIndex)
    (hcolumn : columns[index]? = some column) (cells : List (Option String)) :
    (Std.TreeMap.ofList (((columns.zip cells).eraseIdx nameIndex).filterMap f))[column.name]? =
      cells[index]?.bind fun cell => (f (column, cell)).map Prod.snd := by
  refine Option.ext fun v => ?_
  rw [getElem?_fields_eq_some_iff hname hdistinct, Option.bind_eq_some_iff]
  simp only [Option.map_eq_some_iff]
  constructor
  · rintro ⟨i, column', cell, -, hi, hcell, hf⟩
    have hi' := findIdx?_name hdistinct hi
    rw [hname _ _ hf, findIdx?_name hdistinct hcolumn, Option.some_inj] at hi'
    subst hi'
    rw [hcolumn, Option.some_inj] at hi
    subst hi
    exact ⟨cell, hcell, _, hf, rfl⟩
  · rintro ⟨cell, hcell, kv, hf, rfl⟩
    exact ⟨index, column, cell, hne, hcolumn, hcell, by rw [hf, hname _ _ hf]⟩

end Fields

theorem Candidate.name_of_reading? {catalog : Catalog} (field : Column × Option String) (kv : String × Float)
    (h : Candidate.reading? catalog field = some kv) : field.1.name = kv.1 := by
  obtain ⟨column, cell⟩ := field
  cases cell with
  | none => cases h
  | some text =>
    obtain ⟨-, x, -, rfl⟩ : catalog.contains column.name = true ∧ ∃ x, Number.finite? text = some x ∧
        (column.name, x) = kv := by
      simpa [Candidate.reading?] using h
    rfl

theorem Candidate.metric?_eq {table : Table} {catalog : Catalog} {candidates : List Candidate}
    (hcatalog : table.catalog = .ok catalog) (h : table.candidates catalog = .ok candidates) {c : Candidate}
    (hc : c ∈ candidates) {metric : String} (hm : catalog.contains metric = true) :
    c.metric? metric = table.numberOf? c.id metric := by
  obtain ⟨nameIndex, cells, hname, hcells, hrecord⟩ := Table.getElem_candidates h hc
  have hdistinct := Catalog.pairwise_name_ne (mapError_eq_ok.1 hcatalog)
  obtain ⟨index, column, hindex, rfl, hmetric, hfind⟩ := Catalog.exists_index hcatalog hm
  have hne : index ≠ nameIndex := by
    rintro rfl
    obtain ⟨hlt, hholds, -⟩ := List.findIdx?_eq_some_iff_getElem.1 hname
    rw [List.getElem?_eq_getElem hlt, Option.some_inj] at hindex
    rw [hindex, Column.holdsNames_of_isMetric hmetric] at hholds
    cases hholds
  have hcell : table.cellOf? c.id column.name = cells[index]?.join := by
    unfold Table.cellOf? Table.cellAt?
    rw [hfind, Option.bind_some, hcells, Option.bind_some]
  rw [Table.numberOf?, hcell, hrecord, Candidate.metric?, Candidate.ofRecord]
  dsimp only
  rw [getElem?_fields Candidate.name_of_reading? hdistinct hne hindex]
  rcases cells[index]? with _ | _ | text
  · rfl
  · rfl
  · simp [Candidate.reading?, hm, Function.comp_def]

theorem Candidate.name_eq {table : Table} {catalog : Catalog} {candidates : List Candidate}
    (h : table.candidates catalog = .ok candidates) {c : Candidate} (hc : c ∈ candidates) :
    c.name = (table.nameOf? c.id).getD "" := by
  obtain ⟨nameIndex, cells, hname, hcells, hrecord⟩ := Table.getElem_candidates h hc
  unfold Table.nameOf? Table.cellAt?
  rw [hname, Option.bind_some, hcells, Option.bind_some]
  exact congrArg Candidate.name hrecord

/-! ## Loaded tables -/

/-- What a loaded table promises: present cells are not blank, and those under a numeric column are numbers. -/
structure Table.Loaded (table : Table) : Prop where
  present : ∀ {id index : Nat} {text : String}, table.cellAt? id index = some text → Text.allBlank text = false
  numeric : ∀ {id index : Nat} {column : Column} {text : String}, table.columns[index]? = some column →
    column.kind = .numeric → table.cellAt? id index = some text → (Number.finite? text).isSome = true

theorem Table.cellAt?_eq_some {table : Table} {id index : Nat} {text : String} :
    table.cellAt? id index = some text ↔
      ∃ cells, table.records[id]? = some cells ∧ cells[index]? = some (some text) := by
  unfold Table.cellAt?
  rw [Option.join_eq_some_iff, Option.bind_eq_some_iff]

theorem Table.WellFormed.loaded {table : Table} (h : table.WellFormed) : table.Loaded := by
  constructor
  · intro id index text htext
    obtain ⟨cells, hcells, hcell⟩ := Table.cellAt?_eq_some.1 htext
    exact (h.cells cells (List.mem_of_getElem? hcells) text (List.mem_of_getElem? hcell)).not_blank
  · intro id index column text hcolumn hkind htext
    obtain ⟨cells, hcells, hcell⟩ := Table.cellAt?_eq_some.1 htext
    obtain ⟨x, -, hx⟩ := ((h.kinds index column hcolumn).1 hkind).2 text ⟨cells, List.mem_of_getElem? hcells, hcell⟩
    exact Option.isSome_iff_exists.2 ⟨x, hx⟩

theorem Table.loaded_of_load {bytes : List UInt8} {table : Table} (h : Table.load bytes = .ok table) : table.Loaded :=
  (Table.WellFormed.of_load h).loaded

namespace Table.Loaded

variable {table : Table} {catalog : Catalog} {candidates : List Candidate} {c : Candidate}

theorem isSome_numberOf? (h : table.Loaded) (hcatalog : table.catalog = .ok catalog) {metric : String}
    (hm : catalog.contains metric = true) (id : Nat) :
    (table.numberOf? id metric).isSome = (table.cellOf? id metric).isSome := by
  obtain ⟨index, column, hindex, rfl, hmetric, hfind⟩ := Catalog.exists_index hcatalog hm
  unfold Table.numberOf? Table.cellOf?
  rw [hfind, Option.bind_some]
  cases hcell : table.cellAt? id index with
  | none => rfl
  | some text => exact h.numeric hindex (Column.isMetric_iff.1 hmetric).1 hcell

theorem allBlank_name (h : table.Loaded) (hcandidates : table.candidates catalog = .ok candidates)
    (hc : c ∈ candidates) : Text.allBlank c.name = !(table.nameOf? c.id).isSome := by
  rw [Candidate.name_eq hcandidates hc]
  cases hname : table.nameOf? c.id with
  | none => rfl
  | some name =>
    obtain ⟨index, -, hcell⟩ := Option.bind_eq_some_iff.1 hname
    exact h.present hcell

/-- **A candidate takes part exactly when its record is complete.** -/
theorem lacks_isEmpty (h : table.Loaded) (hcatalog : table.catalog = .ok catalog)
    (hcandidates : table.candidates catalog = .ok candidates) (hc : c ∈ candidates) {objective : Objective}
    {bounds : List Bound}
    (hm : ∀ metric ∈ objective.metrics ++ bounds.map Bound.metric, catalog.contains metric = true) :
    (c.lacks (referencedMetrics objective bounds)).isEmpty = table.isComplete objective bounds c.id := by
  rw [Bool.eq_iff_iff, Candidate.lacks_isEmpty, h.allBlank_name hcandidates hc, Table.isComplete, Bool.and_eq_true,
    List.all_eq_true, Bool.not_eq_false']
  refine and_congr_right fun _ => forall_congr' fun metric => imp_congr_right fun hmetric => ?_
  rw [Candidate.metric?_eq hcatalog hcandidates hc (hm metric hmetric), h.isSome_numberOf? hcatalog (hm metric hmetric)]

end Table.Loaded

end Lineup
