import SqlCodeGenerator.ErLoader

/-!
# What the loops of the loader read

The loops of `load_er_json` over the columns of a table and the tables of a
document, each said without its accumulator: which entries are looked at, what
every one of them becomes, and where a loop that fails has stopped.
-/

namespace SqlCodeGenerator

open Library

/-- The columns loaded from a list of entries, one each, in order. -/
abbrev ColumnsLoaded : List CJson → List Column → Prop := CountedArray.ReadsAs loadColumnEntry

/-- The tables loaded from a list of entries, one each, in order. -/
abbrev TablesLoaded : List CJson → List Table → Prop := CountedArray.ReadsAs loadTableJson

/-- The loop over a `columns` array reads as many entries as there is room for. -/
theorem loadColumns_empty_eq_ok_iff {columns : CountedArray Column maxColumns}
    {entries : List CJson} :
    loadColumns .empty entries = (columns, .ok ()) ↔
      ColumnsLoaded (entries.take maxColumns) columns.items := by
  unfold loadColumns
  rw [CountedArray.fill_eq_ok_iff]
  simp [eq_comm]

/-- What an accepted entry of the `tables` array becomes. -/
theorem loadTableJson_eq_ok_iff {entry : CJson} {table : Table} :
    loadTableJson entry = .ok table ↔
      entry.isObject = true ∧
      cjsonCopyString entry (lit "name") = some table.name ∧
      (∃ entries, entry.getArray (lit "columns") = some entries ∧
        ColumnsLoaded (entries.take maxColumns) table.columns.items) ∧
      table.columns.items ≠ [] ∧ table.rows = .empty := by
  obtain ⟨name, columns, rows⟩ := table
  unfold loadTableJson
  cases hobject : entry.isObject with
  | false => simp
  | true =>
      cases hname : (cjsonCopyString entry (lit "name") : Option (CBuf maxName)) with
      | none => simp
      | some name' =>
          cases hcolumns : entry.getArray (lit "columns") with
          | none => simp
          | some entries =>
              simp only [Bool.not_true, Bool.false_eq_true, if_false, Option.some.injEq,
                exists_eq_left', true_and]
              rw [← loadColumns_empty_eq_ok_iff]
              obtain ⟨columns', ending⟩ := loadColumns .empty entries
              cases ending with
              | error message => simp
              | ok ending =>
                  have hcount : columns'.count = 0 ↔ columns'.items = [] :=
                    List.length_eq_zero_iff
                  by_cases hempty : columns'.items = []
                  · simp only [hcount, hempty, if_true, reduceCtorEq, false_iff, Prod.mk.injEq,
                      and_true]
                    rintro ⟨-, rfl, hne, -⟩
                    exact hne hempty
                  · simp only [hcount, hempty, if_false, Except.ok.injEq, Table.mk.injEq,
                      Prod.mk.injEq, and_true]
                    constructor
                    · rintro ⟨rfl, rfl, rfl⟩
                      exact ⟨rfl, rfl, hempty, rfl⟩
                    · rintro ⟨rfl, rfl, -, rfl⟩
                      exact ⟨rfl, rfl, rfl⟩

/-- The loop over the `tables` array, when it comes to its end. -/
theorem loadTables_empty_eq_ok_iff {tables : Tables} {entries : List CJson} :
    loadTables .empty entries = (tables, .ok ()) ↔
      TablesLoaded (entries.take maxTables) tables.items := by
  unfold loadTables
  rw [CountedArray.fill_eq_ok_iff]
  simp [eq_comm]

/-- A file that is not empty and not too large is read whole. -/
theorem readJsonFile_holding {data : List UInt8} (hne : data ≠ [])
    (hsize : data.length ≤ maxErFileSize) : readJsonFile (.holding data) = .ok data := by
  have hlen : ¬ (data.length = 0 ∨ data.length > maxErFileSize) := by
    rw [List.length_eq_zero_iff]
    rintro (hnil | hlarge)
    · exact hne hnil
    · omega
  unfold readJsonFile ErFile.holding
  simp only [Bool.not_true, Bool.false_eq_true, if_false, hlen, List.take_length, ne_eq,
    not_true]

/-- A load of a document with a `tables` array loads its entries. -/
theorem loadErJson_holding {cjsonParse : List UInt8 → Option CJson} {state : SharedState}
    {data : List UInt8} {root : CJson} {entries : List CJson} (hne : data ≠ [])
    (hsize : data.length ≤ maxErFileSize) (hparse : cjsonParse data = some root)
    (hentries : root.getArray (lit "tables") = some entries) :
    loadErJson cjsonParse state (.holding data) = loadEntries state root entries := by
  simp only [loadErJson, readJsonFile_holding hne hsize, hparse, hentries]

end SqlCodeGenerator
