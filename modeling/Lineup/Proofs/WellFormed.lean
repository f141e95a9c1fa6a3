import Lineup.Table
import Lineup.Proofs.Text.Trimming
import Lineup.Proofs.Traversal
/-!
# WellFormed — what every loaded table is like

A document has rows of the header's length only, so a loaded table is rectangular: every record has a cell under every
column.  Its names and its present cells are clean, and the kind of a column is the kind of the cells under it.
-/
namespace Lineup

/-! ## Documents -/

namespace Csv

theorem length_decodeFields {position : Position} : ∀ {index : Nat} {fields : List (List UInt8)} {texts : List String},
    decodeFields position index fields = .ok texts → texts.length = fields.length
  | _, [], texts, h => by
    cases h
    rfl
  | index, field :: fields, texts, h => by
    unfold decodeFields at h
    split at h
    · cases h
    · cases hrest : decodeFields position (index + 1) fields with
      | error e => rw [hrest] at h; cases h
      | ok rest =>
        rw [hrest] at h
        cases h
        rw [List.length_cons, List.length_cons, length_decodeFields hrest]

theorem length_decodeRow {width : Nat} {r : RawRecord} {row : List String} (h : decodeRow width r = .ok row) :
    row.length = width := by
  unfold decodeRow at h
  split at h
  · rename_i hwidth
    rw [length_decodeFields h, List.length_map, hwidth]
  · cases h

/-- **The rows of a document are as long as its header.** -/
theorem length_of_read {bytes : List UInt8} {d : Document} (h : read bytes = .ok d) :
    ∀ row ∈ d.rows, row.length = d.header.length := by
  unfold read at h
  split at h
  · cases h
    exact List.forall_mem_nil _
  · rename_i header records _
    obtain ⟨names, hnames, h⟩ := bind_eq_ok.1 h
    obtain ⟨rows, hrows, h⟩ := bind_eq_ok.1 h
    cases h
    intro row hrow
    obtain ⟨r, -, hr⟩ := exists_of_mem_mapM hrows hrow
    rw [length_decodeFields hnames]
    exact length_decodeRow hr

end Csv

/-! ## Tables -/

namespace Table

structure IsCell (text : String) : Prop where
  ne_empty : text ≠ ""
  tight : Text.Tight text.toList
  not_missing : Text.lower text ∉ missingMarkers

structure IsName (text : String) : Prop where
  unmarked : '\ufeff' ∉ text.toList
  tight : Text.Tight text.toList

def Shows (table : Table) (index : Nat) (text : String) : Prop :=
  ∃ cells ∈ table.records, cells[index]? = some (some text)

/-- The invariant of loaded tables. -/
structure WellFormed (table : Table) : Prop where
  rectangular : ∀ cells ∈ table.records, cells.length = table.columns.length
  cells : ∀ cells ∈ table.records, ∀ text, some text ∈ cells → IsCell text
  names : ∀ column ∈ table.columns, IsName column.name
  kinds : ∀ index column, table.columns[index]? = some column → (column.kind = .numeric ↔
    (∃ text, table.Shows index text) ∧
      ∀ text, table.Shows index text → ∃ x : Float, x.isFinite = true ∧ Number.finite? text = some x)

theorem tight_trimmed (s : String) : Text.Tight (Text.trimmed s).toList := by
  unfold Text.trimmed
  rw [String.toList_ofList]
  exact Text.tight_trim s.toList

theorem IsCell.not_blank {text : String} (h : IsCell text) : Text.allBlank text = false := by
  rw [Bool.eq_false_iff]
  intro hblank
  have hnil := Text.trim_eq_nil_iff.2 hblank
  rw [Text.trim_of_tight h.tight, String.toList_eq_nil_iff] at hnil
  exact h.ne_empty hnil

theorem isCell_of_cell {text present : String} (h : cell text = some present) : IsCell present := by
  unfold cell at h
  dsimp only at h
  split at h
  · cases h
  · rename_i hpresent
    cases h
    rw [not_or] at hpresent
    refine ⟨hpresent.1, tight_trimmed text, fun hmarker => hpresent.2 (List.any_eq_true.2 ⟨_, hmarker, ?_⟩)⟩
    have hlower : ∀ marker ∈ missingMarkers, Text.lower marker = marker := by decide
    rw [Text.sameName_iff, hlower _ hmarker]

theorem isName_columnName (text : String) : IsName (columnName text) := by
  refine ⟨fun hmark => ?_, tight_trimmed _⟩
  unfold columnName Text.trimmed at hmark
  rw [String.toList_ofList, String.toList_ofList] at hmark
  simpa using Text.mem_of_mem_trim hmark

theorem kindOf_eq_numeric_iff {cells : List (Option String)} : kindOf cells = .numeric ↔
    (∃ text, some text ∈ cells) ∧ ∀ text, some text ∈ cells → (Number.finite? text).isSome = true := by
  have hpresent : ∀ text, text ∈ cells.filterMap id ↔ some text ∈ cells := by simp
  unfold kindOf
  dsimp only
  split
  · rename_i h
    obtain ⟨text, htext⟩ := List.exists_mem_of_ne_nil _ h.1
    simp only [true_iff]
    exact ⟨⟨text, (hpresent text).1 htext⟩, fun text htext => List.all_eq_true.1 h.2 text ((hpresent text).2 htext)⟩
  · rename_i h
    simp only [reduceCtorEq, false_iff]
    rintro ⟨⟨text, htext⟩, hall⟩
    refine h ⟨List.ne_nil_of_mem ((hpresent text).2 htext), List.all_eq_true.2 fun text htext => ?_⟩
    exact hall text ((hpresent text).1 htext)

theorem mem_cellsAt {table : Table} {index : Nat} {text : String} :
    some text ∈ cellsAt table.records index ↔ table.Shows index text := by
  unfold cellsAt Shows
  rw [List.mem_map]
  exact exists_congr fun cells => and_congr_right fun _ => Option.join_eq_some_iff

theorem wellFormed_ofDocument {d : Csv.Document} (h : ∀ row ∈ d.rows, row.length = d.header.length) :
    (ofDocument d).WellFormed := by
  constructor
  · intro cells hcells
    obtain ⟨row, hrow, rfl⟩ := List.mem_map.1 hcells
    simpa [ofDocument] using h row hrow
  · intro cells hcells text htext
    obtain ⟨row, -, rfl⟩ := List.mem_map.1 hcells
    obtain ⟨field, -, hfield⟩ := List.mem_map.1 htext
    exact isCell_of_cell hfield
  · intro column hcolumn
    obtain ⟨⟨header, index⟩, -, rfl⟩ := List.mem_map.1 hcolumn
    exact isName_columnName header
  · intro index column hcolumn
    -- the kind of a column was found at its own index
    have hkind : column.kind = kindOf (cellsAt (ofDocument d).records index) := by
      unfold ofDocument at hcolumn ⊢
      obtain ⟨⟨header, i⟩, hzip, rfl⟩ := Option.map_eq_some_iff.1 (List.getElem?_map ▸ hcolumn)
      obtain ⟨name, -, hpair⟩ := Option.map_eq_some_iff.1 (List.getElem?_zipIdx.symm.trans hzip)
      cases hpair
      simp
    rw [hkind, kindOf_eq_numeric_iff]
    simp only [mem_cellsAt, Option.isSome_iff_exists]
    refine and_congr_right fun _ => forall_congr' fun text => imp_congr_right fun _ => exists_congr fun x => ?_
    exact ⟨fun hx => ⟨Number.isFinite_of_readFinite? hx, hx⟩, And.right⟩

theorem WellFormed.of_load {bytes : List UInt8} {table : Table} (h : load bytes = .ok table) : table.WellFormed := by
  unfold load at h
  cases hread : Csv.read bytes with
  | error e => rw [hread] at h; cases h
  | ok d =>
    rw [hread] at h
    cases h
    exact wellFormed_ofDocument (Csv.length_of_read hread)

/-- **Every loaded table is well-formed**, so a look-up at the place of a column never misses. -/
theorem wellFormed_of_load {bytes : List UInt8} {table : Table} (h : load bytes = .ok table) :
    table.WellFormed ∧
      ∀ cells ∈ table.records, ∀ index < table.columns.length, ∃ cell, cells[index]? = some cell := by
  refine ⟨.of_load h, fun cells hcells index hindex => ?_⟩
  rw [← (WellFormed.of_load h).rectangular cells hcells] at hindex
  exact ⟨cells[index], List.getElem?_eq_getElem hindex⟩

/-- Of a table with a mark inside its header, a column without cells and one with an infinite number. -/
theorem wellFormed_of_load_mixed : ∃ table,
    load (Text.Utf8.encode "name, g\ufeffoals ,caps,pace\nAda, 4 ,NA,inf\nBo,N/a,,9\n") = .ok table ∧
      table.columns = [⟨"name", .text⟩, ⟨"goals", .numeric⟩, ⟨"caps", .text⟩, ⟨"pace", .text⟩] ∧
      table.records = [[some "Ada", some "4", none, some "inf"], [some "Bo", none, none, some "9"]] ∧
      table.WellFormed ∧ ∃ cell, [some "Bo", none, none, some "9"][3]? = some cell := by
  generalize hbytes : Text.Utf8.encode "name, g\ufeffoals ,caps,pace\nAda, 4 ,NA,inf\nBo,N/a,,9\n" = bytes
  obtain ⟨table, hload, hcolumns, hrecords⟩ : ∃ table, load bytes = .ok table ∧
      table.columns = [⟨"name", .text⟩, ⟨"goals", .numeric⟩, ⟨"caps", .text⟩, ⟨"pace", .text⟩] ∧
      table.records = [[some "Ada", some "4", none, some "inf"], [some "Bo", none, none, some "9"]] :=
    exists_ok_of_decide (by subst hbytes; decide +kernel)
  obtain ⟨hwell, hrange⟩ := wellFormed_of_load hload
  refine ⟨table, hload, hcolumns, hrecords, hwell, hrange _ ?_ 3 ?_⟩
  · simp [hrecords]
  · simp [hcolumns]

end Table

end Lineup
