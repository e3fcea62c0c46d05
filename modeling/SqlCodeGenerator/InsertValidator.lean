import SqlCodeGenerator.InsertParser

/-!
# Validation and application of INSERT batches

`value_exists`, `validate_batch_rows`, `validate_insert_batch` and
`apply_insert_batch` of `model.c`.

libpg_query is not part of the repository.  Its answer on a text is a parameter:
`none` when the text is accepted, the message of `result.error` otherwise.

`table->rows[table->row_count++] = row` is a write outside the array when the
table is full.  `appendRow` answers `none` there.  `applyInsertBatch` keeps its
report apart from the memory it leaves, which is then no `SharedState` at all:
such a write overwrites the next table, so the code need not come to its report,
and a result counts as a return of 0 only together with a state.
-/

namespace SqlCodeGenerator

open Library

/-! ## Looking a value up -/

/-- A cell that is not NULL and holds the value. -/
def Cell.holds (x : Cell) (value : CString) : Bool := !x.isNull && x.value.chars = value

/-- The stored rows of a table. -/
def storedRows (tables : Tables) (i : Fin maxTables) : List Row :=
  match tables.items[i.val]? with
  | none => []
  | some table => table.rows.items

/-- `value_exists`: is the value in that column of the stored rows or of the
batch rows before position `upto`?  `earlier` is those batch rows. -/
def valueExists (tables : Tables) (earlier : List InsertRow) (tableIndex : Fin maxTables)
    (colIndex : Fin maxColumns) (value : CString) : Bool :=
  (storedRows tables tableIndex).any (fun row => (row.cell colIndex).holds value) ||
    earlier.any fun ir =>
      ir.tableIndex = tableIndex && (ir.row.cell colIndex).holds value

/-- `duplicate_value`. -/
def duplicateValue (tables : Tables) (earlier : List InsertRow)
    (tableIndex : Fin maxTables) (colIndex : Fin maxColumns) (value : CString) : Bool :=
  valueExists tables earlier tableIndex colIndex value

/-! ## The validator -/

/-- The foreign-key test of `validate_batch_rows` for a cell that is not NULL. -/
def validateReference (tables : Tables) (earlier : List InsertRow) (table : Table)
    (col : Column) (x : Cell) : Outcome CString Unit :=
  match findTable tables col.refTable.chars with
  | none =>
      .error (lit "constraint failed: referenced table '" ++ col.refTable.chars ++
        lit "' missing")
  | some rt =>
      match tables.items[rt.val]? with
      | none => .fault
      | some target =>
          match findColumn target col.refColumn.chars with
          | none =>
              .error (lit "constraint failed: referenced column '" ++ col.refTable.chars ++
                lit "." ++ col.refColumn.chars ++ lit "' missing")
          | some rc =>
              .failWhen (valueExists tables earlier rt rc x.value.chars = false)
                (lit "constraint failed: foreign key " ++ table.name.chars ++ lit "." ++
                  col.name.chars ++ lit " references missing " ++ col.refTable.chars ++
                  lit "." ++ col.refColumn.chars ++ lit "=" ++ x.value.chars)

/-- The tests of `validate_batch_rows` on one column of one row. -/
def validateColumn (tables : Tables) (earlier : List InsertRow) (table : Table)
    (ir : InsertRow) (c : Fin maxColumns) (col : Column) : Outcome CString Unit := do
  .failWhen ((col.notNull || col.primaryKey) && (ir.row.cell c).isNull)
    (lit "constraint failed: " ++ table.name.chars ++ lit "." ++ col.name.chars ++
      lit " cannot be NULL")
  .failWhen ((col.primaryKey || col.unique) && !(ir.row.cell c).isNull &&
      duplicateValue tables earlier ir.tableIndex c (ir.row.cell c).value.chars)
    (lit "constraint failed: duplicate value for " ++ table.name.chars ++ lit "." ++
      col.name.chars)
  if col.refTable.chars ≠ [] ∧ (ir.row.cell c).isNull = false then
    validateReference tables earlier table col (ir.row.cell c)
  else
    .ok ()

/-- The loop over the columns of one row. -/
def validateColumns (tables : Tables) (earlier : List InsertRow) (table : Table)
    (ir : InsertRow) : List (Fin maxColumns × Column) → Outcome CString Unit
  | [] => .ok ()
  | (c, col) :: rest => do
      validateColumn tables earlier table ir c col
      validateColumns tables earlier table ir rest

/-- One round of the outer loop: is there room in the table, and does every
column pass?  The room is that of the stored table, before the batch. -/
def validateRow (tables : Tables) (earlier : List InsertRow) (ir : InsertRow) :
    Outcome CString Unit :=
  match tables.items[ir.tableIndex.val]? with
  | none => .fault
  | some table => do
      .failWhen (table.rows.count ≥ maxRows)
        (lit "constraint failed: table '" ++ table.name.chars ++
          lit "' is full in demo storage")
      validateColumns tables earlier table ir table.columns.places

/-- The outer loop of `validate_batch_rows`, with the rows already checked. -/
def validateRows (tables : Tables) : List InsertRow → List InsertRow → Outcome CString Unit
  | _, [] => .ok ()
  | earlier, ir :: rest => do
      validateRow tables earlier ir
      validateRows tables (earlier ++ [ir]) rest

/-- `validate_batch_rows`. -/
def validateBatchRows (tables : Tables) (batch : InsertBatch) : Outcome CString Unit :=
  validateRows tables [] batch.items

/-! ## The two entry points -/

/-- `validate_sql_syntax_pg_query` for an answer of libpg_query. -/
def validateSqlSyntaxPgQuery (pgQueryParse : CString → Option CString) (sql : CString) :
    Outcome CString Unit :=
  match pgQueryParse sql with
  | some message => .error (lit "SQL syntax error: " ++ message)
  | none => .ok ()

/-- The common part of the two entry points: the batch that passes every test. -/
def acceptedBatch (pgQueryParse : CString → Option CString) (tables : Tables)
    (sql : CString) : Outcome CString InsertBatch := do
  validateSqlSyntaxPgQuery pgQueryParse sql
  let batch ← parseBatch tables sql
  validateBatchRows tables batch
  .ok batch

/-- `validate_insert_batch`: `ok` is the return value 0, with the text in `err`. -/
def validateInsertBatch (pgQueryParse : CString → Option CString) (state : SharedState)
    (sql : CString) : Outcome CString CString :=
  if state.tables.count = 0 then
    .error (lit "no ER diagram loaded")
  else do
    let batch ← acceptedBatch pgQueryParse state.tables sql
    .ok (lit "OK: " ++ decimal batch.count ++ lit " row(s) accepted")

/-- `table->rows[table->row_count++] = row`; `none` when the write lands outside
the table's array. -/
def appendRow (tables : Tables) (ir : InsertRow) : Option Tables :=
  match tables.items[ir.tableIndex.val]? with
  | none => none
  | some table =>
      match table.rows.push? ir.row with
      | none => none
      | some rows => some (tables.set ir.tableIndex.val { table with rows := rows })

/-- The appending loop of `apply_insert_batch`. -/
def appendRows (tables : Tables) (rows : List InsertRow) : Option Tables :=
  rows.foldlM appendRow tables

/-- What `apply_insert_batch` leaves when its batch passes the tests. -/
structure Applied where
  /-- The text for `err`, if the loop is come through. -/
  report : CString
  /-- The state, or `none` when a row was written outside its table, which leaves
  the outcome of the call undefined. -/
  after : Option SharedState

/-- `apply_insert_batch`: `ok` with a state is the return value 0.  On `error` the
state is the one before the call, which the code has not touched. -/
def applyInsertBatch (pgQueryParse : CString → Option CString) (state : SharedState)
    (sql : CString) : Outcome CString Applied := do
  let batch ← acceptedBatch pgQueryParse state.tables sql
  .ok ⟨lit "OK: inserted " ++ decimal batch.count ++ lit " row(s)",
    (appendRows state.tables batch.items).map fun tables => { state with tables := tables }⟩

end SqlCodeGenerator
