import SqlCodeGenerator.ConstraintRefinement
import SqlCodeGenerator.ErLoader
import SqlCodeGenerator.Library.Runs

/-!
# Runs of the data model

The two functions of `model.c` that change the tables, `load_er_json` and
`apply_insert_batch`, as the operations of a system that starts in
`state_init`.  Every operation carries what its environment answers: the file
and cJSON for a load, libpg_query for an insertion.

A step has no result when the C code writes outside an array: a row behind the
end of its table, or a column index behind the end of `column_map`.
-/

namespace SqlCodeGenerator

open Library

/-- A call that may change the tables, with the answers of its environment. -/
inductive Op where
  | load (cjsonParse : List UInt8 → Option CJson) (file : ErFile)
  | insert (pgQueryParse : CString → Option CString) (sql : CString)

/-- The state after one call, whatever it returned. -/
def Op.step (state : SharedState) : Op → Option SharedState
  | .load cjsonParse file => some (loadErJson cjsonParse state file).1
  | .insert pgQueryParse sql =>
      match applyInsertBatch pgQueryParse state sql with
      | .ok applied => applied.after
      | .error _ => some state
      | .fault => none

/-- The state after a list of calls that starts in `state_init`. -/
def run (now : Int) (ops : List Op) : Option SharedState :=
  runFrom Op.step (stateInit now) ops

/-! ### A sample run: two tables, one of which refers to the other -/

/-- The text of a document with the tables `u(id)` and `o(u)`. -/
def sampleText : List UInt8 :=
  (lit "\x7b\"tables\":[\x7b\"name\":\"u\",\"columns\":[\x7b\"name\":\"id\",\"primary_key\":true\x7d]\x7d,\x7b\"name\":\"o\",\"columns\":[\x7b\"name\":\"u\",\"references\":\"u.id\"\x7d]\x7d]\x7d").map
    Subtype.val

/-- The document. -/
def sampleDocument : CJson :=
  .object [(lit "tables", .array [
    .object [(lit "name", .string (lit "u")), (lit "columns", .array [
      .object [(lit "name", .string (lit "id")), (lit "primary_key", .bool true)]])],
    .object [(lit "name", .string (lit "o")), (lit "columns", .array [
      .object [(lit "name", .string (lit "u")), (lit "references", .string (lit "u.id"))]])]])]

/-- The answer of cJSON on that text. -/
def sampleParse (json : List UInt8) : Option CJson :=
  if json = sampleText then some sampleDocument else none

/-- A load of the document, from a file that holds its text. -/
def sampleLoad : Op := .load sampleParse (.holding sampleText)

/-- Two insertions, the second of which refers to the first. -/
def sampleInserts : Op :=
  .insert (fun _ => none) (lit "INSERT INTO u VALUES (1); INSERT INTO o VALUES (1)")

/-! ## What a load does to the rows -/

/-- No table holds a row. -/
def Rowless (tables : Tables) : Prop := ∀ table ∈ tables.items, table.rows.items = []

theorem Rowless.storedRows_eq {tables : Tables} (h : Rowless tables) (i : Fin maxTables) :
    storedRows tables i = [] := by
  unfold storedRows
  cases htable : tables.items[i.val]? with
  | none => rfl
  | some table => exact h table (List.mem_of_getElem? htable)

theorem loadTableJson_rowless {tableJson : CJson} {table : Table}
    (h : loadTableJson tableJson = .ok table) : table.rows.items = [] := by
  unfold loadTableJson at h
  split at h
  · cases h
  · split at h
    · cases h
    · split at h
      · cases h
      · split at h
        · cases h
        · split at h
          · cases h
          · obtain rfl := Except.ok.inj h
            rfl

/-- The loop over the `tables` array adds tables without rows. -/
theorem loadTables_rowless {tables : Tables} (h : Rowless tables) (entries : List CJson) :
    Rowless (loadTables tables entries).1 :=
  CountedArray.fill_forall (fun _ _ hentry => loadTableJson_rowless hentry) h

/-- A relation changes a column, never a row. -/
theorem loadRelation_rowless {tables : Tables} (h : Rowless tables) (relationJson : CJson) :
    Rowless (loadRelation tables relationJson) := by
  unfold loadRelation
  split
  · exact h
  · split
    · exact h
    · unfold setReference
      split
      · exact h
      · next table htable =>
          split
          · exact h
          · intro t ht
            rw [CountedArray.items_set] at ht
            rcases List.mem_or_eq_of_mem_set ht with ht | rfl
            · exact h t ht
            · exact h table (List.mem_of_getElem? htable)

theorem loadRelations_rowless {tables : Tables} (h : Rowless tables) (root : CJson) :
    Rowless (loadRelations tables root) := by
  unfold loadRelations
  cases root.getArray (lit "relations") with
  | none => exact h
  | some relations =>
      show Rowless (relations.foldl loadRelation tables)
      induction relations generalizing tables with
      | nil => exact h
      | cons relationJson rest ih => exact ih (loadRelation_rowless h relationJson)

theorem loadEntries_rowless (state : SharedState) (root : CJson) (entries : List CJson) :
    Rowless (loadEntries state root entries).1.tables := by
  have hempty : Rowless CountedArray.empty := fun table htable => by cases htable
  have hrowless := loadTables_rowless hempty entries
  unfold loadEntries
  split
  · next hload =>
      rw [hload] at hrowless
      exact hrowless
  · next hload =>
      rw [hload] at hrowless
      exact loadRelations_rowless hrowless root

/-- A load either has not touched the state or has left tables without rows,
whether it succeeded or not. -/
theorem loadErJson_cases (cjsonParse : List UInt8 → Option CJson) (state : SharedState)
    (file : ErFile) :
    (loadErJson cjsonParse state file).1 = state ∨
      Rowless (loadErJson cjsonParse state file).1.tables := by
  unfold loadErJson
  split
  · exact Or.inl rfl
  · split
    · exact Or.inl rfl
    · split
      · exact Or.inl rfl
      · exact Or.inr (loadEntries_rowless _ _ _)

/-! ## What an insertion does to the rows -/

/-- A batch is accepted when libpg_query accepts the text, the text parses, and
the rows pass the validator. -/
theorem acceptedBatch_eq_ok_iff {pgQueryParse : CString → Option CString} {tables : Tables}
    {sql : CString} {batch : InsertBatch} :
    acceptedBatch pgQueryParse tables sql = .ok batch ↔
      validateSqlSyntaxPgQuery pgQueryParse sql = .ok () ∧ parseBatch tables sql = .ok batch ∧
        validateBatchRows tables batch = .ok () := by
  unfold acceptedBatch
  rw [Outcome.check_bind_eq_ok_iff, Outcome.bind_eq_ok_iff]
  refine and_congr_right fun _ => ?_
  simp only [Outcome.check_bind_eq_ok_iff, Outcome.ok.injEq]
  constructor
  · rintro ⟨batch', hparse, hvalid, rfl⟩
    exact ⟨hparse, hvalid⟩
  · rintro ⟨hparse, hvalid⟩
    exact ⟨batch, hparse, hvalid, rfl⟩

/-- Inversion of a step: a load, an insertion that appended the rows of an
accepted batch, or a rejected insertion. -/
theorem Op.step_cases {state state' : SharedState} {op : Op} (h : op.step state = some state') :
    (∃ cjsonParse file, op = .load cjsonParse file ∧
      state' = (loadErJson cjsonParse state file).1) ∨
    (∃ pgQueryParse sql batch tables, op = .insert pgQueryParse sql ∧
      acceptedBatch pgQueryParse state.tables sql = .ok batch ∧
      appendRows state.tables batch.items = some tables ∧
      state' = { state with tables := tables }) ∨
    (∃ pgQueryParse sql, op = .insert pgQueryParse sql ∧ state' = state) := by
  cases op with
  | load cjsonParse file => exact Or.inl ⟨cjsonParse, file, rfl, (Option.some.inj h).symm⟩
  | insert pgQueryParse sql =>
      refine Or.inr ?_
      unfold Op.step applyInsertBatch at h
      cases haccepted : acceptedBatch pgQueryParse state.tables sql with
      | ok batch =>
          simp only [haccepted, Outcome.ok_bind, Option.map_eq_some_iff] at h
          obtain ⟨tables, happend, rfl⟩ := h
          exact Or.inl ⟨pgQueryParse, sql, batch, tables, rfl, haccepted, happend, rfl⟩
      | error message =>
          simp only [haccepted, Outcome.error_bind, Option.some.injEq] at h
          exact Or.inr ⟨pgQueryParse, sql, rfl, h.symm⟩
      | fault => simp [haccepted] at h

end SqlCodeGenerator
