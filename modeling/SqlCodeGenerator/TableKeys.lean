import SqlCodeGenerator.DdlReferences
import SqlCodeGenerator.StoredTexts

/-!
# Keys and names of tables

The flag `primary_key` belongs to a column.  The loader keeps it as it is, the
generator prints a clause for every column that has it, and the validator tests
every such column alone.  Nothing compares the name of a table or of a column with
the names before it.

* `statement_ddlPieces_iff`: the statements printed are those of the tables, in
  their own columns;
* `validateColumn_eq_duplicate_iff`: when a column refuses a row as a duplicate;
* `keysAsOne_iff`: the refusals are those of a key as one exactly when no table has
  two key columns.
-/

namespace SqlCodeGenerator

open Library

/-! ## What is declared -/

/-- The table that a piece declares. -/
def DdlPiece.tableName? : DdlPiece → Option CString
  | createTable name => some name
  | _ => none

/-- The column that a piece declares. -/
def DdlPiece.columnName? : DdlPiece → Option CString
  | column name _ => some name
  | _ => none

/-- Among the pieces stands the statement `CREATE TABLE name` with that body. -/
def Statement (pieces : List DdlPiece) (name : CString) (body : List DdlPiece) : Prop :=
  ∃ start rest, pieces.drop start = .createTable name :: (body ++ .endTable :: rest) ∧
    .endTable ∉ body

/-- No table is declared twice. -/
def TablesOnce (pieces : List DdlPiece) : Prop := (pieces.filterMap DdlPiece.tableName?).Nodup

/-- No statement declares a column twice. -/
def ColumnsOnce (pieces : List DdlPiece) : Prop :=
  ∀ name body, Statement pieces name body → (body.filterMap DdlPiece.columnName?).Nodup

/-- No statement has two clauses `PRIMARY KEY`. -/
def OnePrimaryKey (pieces : List DdlPiece) : Prop :=
  ∀ name body, Statement pieces name body → body.count .primaryKey ≤ 1

/-- The columns of the key. -/
def Table.keyColumns (t : Table) : List Column := t.columns.items.filter Column.primaryKey

/-! ## The pieces of a schema -/

theorem statement_ddlPieces_iff {tables : Tables} {name : CString} {body : List DdlPiece} :
    Statement (ddlPieces tables) name body ↔
      ∃ t ∈ tables.items, t.name.chars = name ∧ columnsPieces t.columns.items = body := by
  constructor
  · rintro ⟨start, rest, hdrop, hbody⟩
    have hfirst : (ddlPieces tables)[start]? = some (.createTable name) := by
      rw [← List.head?_drop, hdrop, List.head?_cons]
    obtain ⟨j, t, place, ht, hplace, rfl⟩ := getElem?_flatMap_eq_some_iff.mp hfirst
    obtain ⟨rfl, hname⟩ := createTable_at_tablePieces hplace
    rw [Nat.add_zero, ddlPieces, drop_blockStart ht, tablePieces, List.cons_append,
      List.append_assoc, List.singleton_append, List.cons.injEq] at hdrop
    exact ⟨t, List.mem_of_getElem? ht, hname,
      upTo_unique (endTable_notMem_columnsPieces _) hbody hdrop.2⟩
  · rintro ⟨t, ht, rfl, rfl⟩
    obtain ⟨j, hj⟩ := List.mem_iff_getElem?.mp ht
    refine ⟨blockStart tablePieces tables.items j, (tables.items.drop (j + 1)).flatMap tablePieces,
      ?_, endTable_notMem_columnsPieces _⟩
    rw [ddlPieces, drop_blockStart hj, tablePieces, List.cons_append, List.append_assoc,
      List.singleton_append]

/-- What holds of the bodies of all statements holds of the columns of all tables. -/
theorem forall_statement_iff {tables : Tables} {P : List DdlPiece → Prop} :
    (∀ name body, Statement (ddlPieces tables) name body → P body) ↔
      ∀ t ∈ tables.items, P (columnsPieces t.columns.items) := by
  constructor
  · intro h t ht
    exact h t.name.chars _ (statement_ddlPieces_iff.mpr ⟨t, ht, rfl, rfl⟩)
  · intro h name body hstatement
    obtain ⟨t, ht, -, rfl⟩ := statement_ddlPieces_iff.mp hstatement
    exact h t ht

theorem tableNames_tablePieces (t : Table) :
    (tablePieces t).filterMap DdlPiece.tableName? = [t.name.chars] := by
  have hcolumns : (columnsPieces t.columns.items).filterMap DdlPiece.tableName? = [] := by
    rw [List.filterMap_eq_nil_iff]
    intro piece hpiece
    cases piece with
    | createTable name => exact absurd hpiece (createTable_notMem_columnsPieces _)
    | _ => rfl
  simp [tablePieces, DdlPiece.tableName?, hcolumns]

theorem tableNames_ddlPieces (tables : Tables) :
    (ddlPieces tables).filterMap DdlPiece.tableName? =
      tables.items.map fun t => t.name.chars := by
  unfold ddlPieces
  induction tables.items with
  | nil => rfl
  | cons t rest ih =>
      rw [List.flatMap_cons, List.filterMap_append, tableNames_tablePieces, ih]
      rfl

theorem columnNames_columnPieces (c : Column) (last : Bool) :
    (columnPieces c last).filterMap DdlPiece.columnName? = [c.name.chars] := by
  have hclauses : (clausePieces c).filterMap DdlPiece.columnName? = [] := by
    rw [List.filterMap_eq_nil_iff]
    intro piece hpiece
    rcases mem_clausePieces_iff.mp hpiece with ⟨-, rfl⟩ | ⟨-, rfl⟩ | ⟨-, rfl⟩ | ⟨-, rfl⟩ <;> rfl
  simp [columnPieces, DdlPiece.columnName?, hclauses]

theorem columnNames_columnsPieces (columns : List Column) :
    (columnsPieces columns).filterMap DdlPiece.columnName? =
      columns.map fun c => c.name.chars := by
  induction columns with
  | nil => rfl
  | cons c rest ih =>
      rw [columnsPieces, List.filterMap_append, columnNames_columnPieces, ih]
      rfl

theorem count_primaryKey_columnPieces (c : Column) (last : Bool) :
    (columnPieces c last).count .primaryKey = if c.primaryKey then 1 else 0 := by
  unfold columnPieces clausePieces
  cases c.primaryKey <;> cases c.notNull <;> cases c.unique <;>
    by_cases href : c.refTable.chars = [] <;> simp [href]

theorem count_primaryKey_columnsPieces (columns : List Column) :
    (columnsPieces columns).count .primaryKey = (columns.filter Column.primaryKey).length := by
  induction columns with
  | nil => rfl
  | cons c rest ih =>
      rw [columnsPieces, List.count_append, count_primaryKey_columnPieces, ih, List.filter_cons]
      by_cases hkey : c.primaryKey = true
      · rw [if_pos hkey, if_pos hkey, List.length_cons, Nat.add_comm]
      · rw [if_neg hkey, if_neg hkey, Nat.zero_add]

/-! ### Names and clauses of the DDL -/

theorem tablesOnce_iff (tables : Tables) :
    TablesOnce (ddlPieces tables) ↔ (tables.items.map fun t => t.name.chars).Nodup := by
  unfold TablesOnce
  rw [tableNames_ddlPieces]

theorem columnsOnce_iff (tables : Tables) :
    ColumnsOnce (ddlPieces tables) ↔
      ∀ t ∈ tables.items, (t.columns.items.map fun c => c.name.chars).Nodup := by
  unfold ColumnsOnce
  simp only [forall_statement_iff (P := fun body => (body.filterMap DdlPiece.columnName?).Nodup),
    columnNames_columnsPieces]

theorem onePrimaryKey_iff (tables : Tables) :
    OnePrimaryKey (ddlPieces tables) ↔ ∀ t ∈ tables.items, t.keyColumns.length ≤ 1 := by
  unfold OnePrimaryKey Table.keyColumns
  simp only [forall_statement_iff (P := fun body => body.count DdlPiece.primaryKey ≤ 1),
    count_primaryKey_columnsPieces]

/-! ## The key in the validator -/

/-- The cells hold the same text, neither is NULL. -/
def Cell.Agrees (x y : Cell) : Prop := y.isNull = false ∧ x.holds y.value.chars = true

/-- The rows agree on all columns of the key. -/
def Table.SameKey (t : Table) (row row' : Row) : Prop :=
  ∀ (c : Fin maxColumns) (col : Column), t.columns.items[c.val]? = some col →
    col.primaryKey = true → (row.cell c).Agrees (row'.cell c)

/-- The text in which a column refuses a duplicate. -/
def duplicateError (t : Table) (col : Column) : CString :=
  lit "constraint failed: duplicate value for " ++ t.name.chars ++ lit "." ++ col.name.chars

/-- The key is one: whatever rows the tables hold, a column of the key refuses a row as
a duplicate only when a row before it agrees with it on all columns of the key. -/
def KeysAsOne (tables : Tables) : Prop :=
  ∀ (tables' : Tables) (earlier : List InsertRow) (ir : InsertRow) (t : Table)
    (c : Fin maxColumns) (col : Column), SameDefinitions tables tables' →
    tables'.items[ir.tableIndex.val]? = some t → t.columns.items[c.val]? = some col →
    col.primaryKey = true →
    validateColumn tables' earlier t ir c col = .error (duplicateError t col) →
    ∃ row ∈ rowsSeen tables' earlier ir.tableIndex, t.SameKey row ir.row

/-- Every column of the key is a key of its own: in an accepted batch a row is not NULL
there and differs from every row before it. -/
def KeyColumnsApart (tables : Tables) : Prop :=
  ∀ (tables' : Tables) (batch : InsertBatch) (k : Nat) (ir : InsertRow) (t : Table)
    (c : Fin maxColumns) (col : Column), SameDefinitions tables tables' →
    validateBatchRows tables' batch = .ok () → batch.items[k]? = some ir →
    tables'.items[ir.tableIndex.val]? = some t → t.columns.items[c.val]? = some col →
    col.primaryKey = true →
    (ir.row.cell c).isNull = false ∧
      ∀ row ∈ rowsSeen tables' (batch.items.take k) ir.tableIndex,
        ¬ (row.cell c).Agrees (ir.row.cell c)

/-- Texts that begin differently differ. -/
theorem append_ne_of_take_ne {start start' rest rest' : CString} (n : Nat)
    (hn : n ≤ start.length) (hn' : n ≤ start'.length) (h : start.take n ≠ start'.take n) :
    start ++ rest ≠ start' ++ rest' := by
  intro heq
  have htake := congrArg (List.take n) heq
  rw [List.take_append_of_le_length hn, List.take_append_of_le_length hn'] at htake
  exact h htake

theorem validateReference_ne_duplicate {tables : Tables} {earlier : List InsertRow} {t : Table}
    {col : Column} {x : Cell} :
    validateReference tables earlier t col x ≠ .error (duplicateError t col) := by
  have hdiffers : ∀ (start rest : CString), 20 ≤ start.length →
      start.take 20 ≠ lit "constraint failed: d" →
      start ++ rest ≠ duplicateError t col := by
    intro start rest hlen hstart
    unfold duplicateError
    rw [List.append_assoc, List.append_assoc]
    exact append_ne_of_take_ne 20 hlen (by decide) hstart
  intro h
  unfold validateReference at h
  cases htable : findTable tables col.refTable.chars with
  | none =>
      simp only [htable, Outcome.error.injEq, List.append_assoc] at h
      exact hdiffers _ _ (by decide) (by decide) h
  | some rt =>
      cases htarget : tables.items[rt.val]? with
      | none => simp [htable, htarget] at h
      | some target =>
          cases hcolumn : findColumn target col.refColumn.chars with
          | none =>
              simp only [htable, htarget, hcolumn, Outcome.error.injEq, List.append_assoc] at h
              exact hdiffers _ _ (by decide) (by decide) h
          | some rc =>
              simp only [htable, htarget, hcolumn, Outcome.failWhen, List.append_assoc] at h
              split at h
              · simp only [Outcome.error.injEq] at h
                exact hdiffers _ _ (by decide) (by decide) h
              · simp at h

/-- When the round for a column refuses the row as a duplicate. -/
theorem validateColumn_eq_duplicate_iff {tables : Tables} {earlier : List InsertRow} {t : Table}
    {ir : InsertRow} {c : Fin maxColumns} {col : Column} :
    validateColumn tables earlier t ir c col = .error (duplicateError t col) ↔
      (col.primaryKey || col.unique) = true ∧ (ir.row.cell c).isNull = false ∧
        duplicateValue tables earlier ir.tableIndex c (ir.row.cell c).value.chars = true := by
  have hnotNull : lit "constraint failed: " ++ t.name.chars ++ lit "." ++ col.name.chars ++
      lit " cannot be NULL" ≠ duplicateError t col := by
    intro h
    have hlength := congrArg List.length h
    have hstart : (lit "constraint failed: ").length = 19 := by decide
    have hstart' : (lit "constraint failed: duplicate value for ").length = 39 := by decide
    have hend : (lit " cannot be NULL").length = 15 := by decide
    simp only [duplicateError, List.length_append, hstart, hstart', hend] at hlength
    omega
  simp only [List.append_assoc] at hnotNull
  have hreference := @validateReference_ne_duplicate tables earlier t col (ir.row.cell c)
  unfold validateColumn Outcome.failWhen
  by_cases hnull : (ir.row.cell c).isNull = true
  · by_cases hflag : (col.notNull || col.primaryKey) = true
    · simp [hnull, hflag, hnotNull]
    · simp [hnull, hflag]
  · rw [Bool.not_eq_true] at hnull
    by_cases hkey : (col.primaryKey || col.unique) = true
    · by_cases hdup : duplicateValue tables earlier ir.tableIndex c
          (ir.row.cell c).value.chars = true
      · simp [hnull, hkey, hdup, duplicateError]
      · by_cases href : col.refTable.chars = []
        · simp [hnull, hdup, href]
        · simp [hnull, hdup, href, hreference]
    · by_cases href : col.refTable.chars = []
      · simp [hnull, hkey, href]
      · simp [hnull, hkey, href, hreference]

theorem keyColumnsApart (tables : Tables) : KeyColumnsApart tables := by
  intro tables' batch k ir t c col _ hvalid hk ht hcol hkey
  have hsplit : batch.items = batch.items.take k ++ ir :: batch.items.drop (k + 1) := by
    obtain ⟨hlt, rfl⟩ := List.getElem?_eq_some_iff.mp hk
    rw [← List.drop_eq_getElem_cons hlt, List.take_append_drop]
  rw [validateBatchRows, hsplit] at hvalid
  have hrow := validateRow_of_validateRows hvalid
  rw [List.nil_append, validateRow_eq_ok_iff] at hrow
  obtain ⟨-, hadmissible⟩ := hrow
  have hcolumn : columnAt tables' ir.tableIndex c = some col := columnAt_eq_some ht hcol
  have hnull : (ir.row.cell c).isNull = false := by
    rw [← Bool.not_eq_true, ← view_eq_none_iff]
    exact hadmissible.required c ⟨col, hcolumn, by simp [hkey]⟩
  refine ⟨hnull, fun row hrow hagrees => ?_⟩
  refine hadmissible.unique c ⟨col, hcolumn, by simp [hkey]⟩ _ (view_eq_some_of_not_null hnull) ?_
  exact valueExists_iff.mp (valueExists_iff_rowsSeen.mpr ⟨row, hrow, hagrees.2⟩)

/-! ### A key of two columns -/

/-- At most one entry passes the test exactly when all places of such entries are one. -/
theorem length_filter_le_one_iff {α : Type} {p : α → Bool} {xs : List α} :
    (xs.filter p).length ≤ 1 ↔ ∀ (i j : Nat) (x y : α), xs[i]? = some x → p x = true →
      xs[j]? = some y → p y = true → i = j := by
  induction xs with
  | nil => simp
  | cons first rest ih =>
      by_cases hfirst : p first = true
      · rw [List.filter_cons_of_pos hfirst, List.length_cons, ← Nat.zero_add 1,
          Nat.add_le_add_iff_right, Nat.le_zero, List.length_eq_zero_iff, List.filter_eq_nil_iff]
        constructor
        · intro h i j x y hx hpx hy hpy
          have hplace : ∀ (m : Nat) (z : α), (first :: rest)[m]? = some z → p z = true → m = 0 := by
            intro m z hz hpz
            cases m with
            | zero => rfl
            | succ m => exact absurd hpz (h z (List.mem_of_getElem? (by simpa using hz)))
          rw [hplace i x hx hpx, hplace j y hy hpy]
        · intro h y hy hpy
          obtain ⟨j, hj⟩ := List.mem_iff_getElem?.mp hy
          have hsame := h 0 (j + 1) first y rfl hfirst (by simpa using hj) hpy
          omega
      · rw [List.filter_cons_of_neg hfirst, ih]
        constructor
        · intro h i j x y hx hpx hy hpy
          cases i with
          | zero =>
              obtain rfl : first = x := by simpa using hx
              exact absurd hpx hfirst
          | succ i =>
              cases j with
              | zero =>
                  obtain rfl : first = y := by simpa using hy
                  exact absurd hpy hfirst
              | succ j => exact congrArg Nat.succ (h i j x y hx hpx hy hpy)
        · intro h i j x y hx hpx hy hpy
          exact Nat.succ.inj (h (i + 1) (j + 1) x y hx hpx hy hpy)

/-- The tables without their rows. -/
def emptied (tables : Tables) : Tables :=
  ⟨tables.items.map fun t => { t with rows := .empty }, by simpa using tables.fits⟩

theorem emptied_sameDefinitions (tables : Tables) : SameDefinitions tables (emptied tables) := by
  unfold SameDefinitions emptied
  rw [List.map_map]
  rfl

theorem emptied_rowless (tables : Tables) : Rowless (emptied tables) := by
  intro t ht
  obtain ⟨t', -, rfl⟩ := List.mem_map.mp ht
  rfl

/-- A row that holds one text in two columns. -/
def rowOfTwo (t : Table) (c d : Fin maxColumns) (x y : CString) : Row :=
  ((blankRow t).store c ⟨snprintf x, false⟩).store d ⟨snprintf y, false⟩

theorem cell_rowOfTwo_left (t : Table) {c d : Fin maxColumns} (x y : CString) (h : c ≠ d) :
    (rowOfTwo t c d x y).cell c = ⟨snprintf x, false⟩ := by
  rw [rowOfTwo, Row.cell_store_of_ne _ _ h, Row.cell_store_self]

theorem cell_rowOfTwo_right (t : Table) (c d : Fin maxColumns) (x y : CString) :
    (rowOfTwo t c d x y).cell d = ⟨snprintf y, false⟩ := Row.cell_store_self _ _ _

/-- Two rows that agree on one key column and differ on another: the first column
refuses the second row, although the rows have different keys. -/
theorem not_keysAsOne {tables : Tables} {i : Fin maxTables} {t : Table} {c d : Fin maxColumns}
    {col col' : Column} (ht : tables.items[i.val]? = some t)
    (hcol : t.columns.items[c.val]? = some col) (hkey : col.primaryKey = true)
    (hcol' : t.columns.items[d.val]? = some col') (hkey' : col'.primaryKey = true)
    (hne : c ≠ d) : ¬ KeysAsOne tables := by
  intro h
  have ht' : (emptied tables).items[i.val]? = some { t with rows := .empty } := by
    simp [emptied, ht]
  let first : InsertRow := ⟨i, rowOfTwo t c d (lit "1") (lit "1")⟩
  let second : InsertRow := ⟨i, rowOfTwo t c d (lit "1") (lit "2")⟩
  have hseen : rowsSeen (emptied tables) [first] i = [first.row] := by
    unfold rowsSeen
    rw [(emptied_rowless tables).storedRows_eq]
    simp [first]
  have hcell : second.row.cell c = ⟨snprintf (lit "1"), false⟩ :=
    cell_rowOfTwo_left t _ _ hne
  have hexists :
      valueExists (emptied tables) [first] i c (second.row.cell c).value.chars = true := by
    rw [valueExists_iff_rowsSeen, hseen, hcell]
    refine ⟨first.row, List.mem_singleton_self _, ?_⟩
    rw [show first.row.cell c = ⟨snprintf (lit "1"), false⟩ from cell_rowOfTwo_left t _ _ hne]
    simp [Cell.holds]
  have hrefused : validateColumn (emptied tables) [first] { t with rows := .empty } second c col =
      .error (duplicateError { t with rows := .empty } col) :=
    validateColumn_eq_duplicate_iff.mpr ⟨by simp [hkey], by rw [hcell], hexists⟩
  obtain ⟨row, hrow, hsame⟩ :=
    h _ [first] second _ c col (emptied_sameDefinitions tables) ht' hcol hkey hrefused
  rw [show second.tableIndex = i from rfl, hseen, List.mem_singleton] at hrow
  obtain ⟨-, hholds⟩ := hsame d col' hcol' hkey'
  rw [hrow, show first.row.cell d = ⟨snprintf (lit "1"), false⟩ from cell_rowOfTwo_right t c d _ _,
    show second.row.cell d = ⟨snprintf (lit "2"), false⟩ from cell_rowOfTwo_right t c d _ _]
    at hholds
  have hdiffer : (Cell.mk (snprintf (lit "1")) false).holds
      (Cell.mk (snprintf (lit "2")) false).value.chars = false := by decide
  rw [hdiffer] at hholds
  cases hholds

/-- The refusals are those of a key as one exactly when no table has two key columns. -/
theorem keysAsOne_iff (tables : Tables) :
    KeysAsOne tables ↔ ∀ t ∈ tables.items, t.keyColumns.length ≤ 1 := by
  unfold Table.keyColumns
  simp only [length_filter_le_one_iff]
  constructor
  · intro h t ht i j col col' hcol hkey hcol' hkey'
    by_contra hne
    obtain ⟨k, hk⟩ := List.mem_iff_getElem?.mp ht
    have hplace : ∀ {m : Nat} {x : Column}, t.columns.items[m]? = some x → m < maxColumns :=
      fun hm => Nat.lt_of_lt_of_le (List.getElem?_eq_some_iff.mp hm).1 t.columns.fits
    have htable : k < maxTables :=
      Nat.lt_of_lt_of_le (List.getElem?_eq_some_iff.mp hk).1 tables.fits
    exact not_keysAsOne (i := ⟨k, htable⟩) (c := ⟨i, hplace hcol⟩) (d := ⟨j, hplace hcol'⟩)
      hk hcol hkey hcol' hkey' (fun heq => hne (Fin.mk.inj heq)) h
  · intro h tables' earlier ir t c col hsame ht hcol hkey hrefused
    obtain ⟨-, hnull, hexists⟩ := validateColumn_eq_duplicate_iff.mp hrefused
    obtain ⟨row, hrow, hholds⟩ := valueExists_iff_rowsSeen.mp hexists
    refine ⟨row, hrow, fun d col' hcol' hkey' => ?_⟩
    -- the loaded table has the same columns
    have hdefinition := hsame.getElem?_eq ir.tableIndex.val
    rw [ht, Option.map_some, Option.map_eq_some_iff] at hdefinition
    obtain ⟨t₀, ht₀, hcolumns⟩ := hdefinition
    have hcolumns : t₀.columns = t.columns := congrArg Prod.snd hcolumns
    have hone := h t₀ (List.mem_of_getElem? ht₀) c.val d.val col col'
      (by rw [hcolumns]; exact hcol) hkey (by rw [hcolumns]; exact hcol') hkey'
    obtain rfl : c = d := Fin.ext hone
    exact ⟨hnull, hholds⟩

/-- What `generate_sql` prints is the text of the pieces, cut to its buffer.  They declare
every table once, every column of a table once and one key a table exactly when the
schema does, and the validator treats every key column as a key of its own, which is
the key as one exactly when no table has two. -/
theorem keysAndNames_iff (tables : Tables) (outLen : Nat) :
    generateSql tables outLen = (ddl tables).take (outLen - 1) ∧
      (TablesOnce (ddlPieces tables) ↔ (tables.items.map fun t => t.name.chars).Nodup) ∧
      (ColumnsOnce (ddlPieces tables) ↔
        ∀ t ∈ tables.items, (t.columns.items.map fun c => c.name.chars).Nodup) ∧
      (OnePrimaryKey (ddlPieces tables) ↔ ∀ t ∈ tables.items, t.keyColumns.length ≤ 1) ∧
      (KeysAsOne tables ↔ ∀ t ∈ tables.items, t.keyColumns.length ≤ 1) ∧
      KeyColumnsApart tables :=
  ⟨generateSql_eq tables outLen, tablesOnce_iff tables, columnsOnce_iff tables,
    onePrimaryKey_iff tables, keysAsOne_iff tables, keyColumnsApart tables⟩

/-! ### A document with repeated names and a key of two columns -/

/-- The text of a document with two tables `t`, the first of which has the key `(a, b)`
and two columns `b`. -/
def twiceText : List UInt8 :=
  (lit "\x7b\"tables\":[\x7b\"name\":\"t\",\"columns\":[" ++
    lit "\x7b\"name\":\"a\",\"type\":\"INT\",\"primary_key\":true\x7d," ++
    lit "\x7b\"name\":\"b\",\"type\":\"INT\",\"primary_key\":true\x7d," ++
    lit "\x7b\"name\":\"b\",\"type\":\"INT\"\x7d]\x7d," ++
    lit "\x7b\"name\":\"t\",\"columns\":[" ++
    lit "\x7b\"name\":\"a\",\"type\":\"INT\"\x7d]\x7d]\x7d").map Subtype.val

def twiceDocument : CJson :=
  let column (name : CString) : CJson :=
    .object [(lit "name", .string name), (lit "type", .string (lit "INT"))]
  let keyColumn (name : CString) : CJson :=
    .object [(lit "name", .string name), (lit "type", .string (lit "INT")),
      (lit "primary_key", .bool true)]
  .object [(lit "tables", .array [
    .object [(lit "name", .string (lit "t")), (lit "columns", .array
      [keyColumn (lit "a"), keyColumn (lit "b"), column (lit "b")])],
    .object [(lit "name", .string (lit "t")), (lit "columns", .array [column (lit "a")])]])]

/-- The answer of cJSON on that text. -/
def twiceParse (json : List UInt8) : Option CJson :=
  if json = twiceText then some twiceDocument else none

/-- The tables that a state with nothing loaded holds after loading the document. -/
def twiceTables : Tables := (loadErJson twiceParse (stateInit 0) (.holding twiceText)).1.tables

/-- The document loads.  Its DDL declares `t` twice, its column `b` twice and two keys,
and the validator takes each key column alone: of `(1, 1)` and `(1, 2)` it refuses the
second. -/
theorem twiceLoad_notLegal :
    (loadErJson twiceParse (stateInit 0) (.holding twiceText)).2 = .ok (lit "loaded 2 tables") ∧
      ¬ TablesOnce (ddlPieces twiceTables) ∧ ¬ ColumnsOnce (ddlPieces twiceTables) ∧
      ¬ OnePrimaryKey (ddlPieces twiceTables) ∧ ¬ KeysAsOne twiceTables ∧
      (parseBatch twiceTables (lit "INSERT INTO t VALUES (1, 1, 0), (1, 2, 0)") >>=
        validateBatchRows twiceTables) =
          .error (lit "constraint failed: duplicate value for t.a") := by
  have hloaded : (loadErJson twiceParse (stateInit 0) (.holding twiceText)).2 =
        .ok (lit "loaded 2 tables") ∧
      ¬ (twiceTables.items.map fun t => t.name.chars).Nodup ∧
      ¬ (∀ t ∈ twiceTables.items, (t.columns.items.map fun c => c.name.chars).Nodup) ∧
      ¬ (∀ t ∈ twiceTables.items, t.keyColumns.length ≤ 1) ∧
      (parseBatch twiceTables (lit "INSERT INTO t VALUES (1, 1, 0), (1, 2, 0)") >>=
        validateBatchRows twiceTables) =
          .error (lit "constraint failed: duplicate value for t.a") := by
    decide +kernel
  obtain ⟨hok, htables, hcolumns, hkeys, hrefused⟩ := hloaded
  rw [tablesOnce_iff, columnsOnce_iff, onePrimaryKey_iff, keysAsOne_iff]
  exact ⟨hok, htables, hcolumns, hkeys, hkeys, hrefused⟩

end SqlCodeGenerator
