import SqlCodeGenerator.InsertDerivations
import SqlCodeGenerator.Runs

/-!
# Row capacity

`validate_batch_rows` looks for room in the stored tables only, and
`apply_insert_batch` appends row after row: the rows of one batch that go to one
table are not counted together.

* `isSome_appendRows_iff`: the appending loop stays inside the arrays exactly
  when, for every table, the stored rows and the rows of the batch fit together.
* `everyStep_insertsInRange_iff`: along every run, the insertions stay inside the
  arrays exactly when every accepted batch fits.
* `overfull_run_not_inRange`: a run in which an accepted batch does not.
-/

namespace SqlCodeGenerator

open Library

/-! ## Counting rows -/

/-- The number of rows of a list that go to a table. -/
def rowsFor (rows : List InsertRow) (i : Fin maxTables) : Nat :=
  rows.countP fun ir => decide (ir.tableIndex = i)

/-- Every row names a loaded table. -/
def Indexed (tables : Tables) (rows : List InsertRow) : Prop :=
  ∀ ir ∈ rows, ir.tableIndex.val < tables.count

/-- For every table, its rows and the new rows for it fit together. -/
def Fits (tables : Tables) (rows : List InsertRow) : Prop :=
  ∀ i, (storedRows tables i).length + rowsFor rows i ≤ maxRows

instance (tables : Tables) (rows : List InsertRow) : Decidable (Indexed tables rows) :=
  inferInstanceAs (Decidable (∀ ir ∈ rows, ir.tableIndex.val < tables.count))

instance (tables : Tables) (rows : List InsertRow) : Decidable (Fits tables rows) :=
  inferInstanceAs
    (Decidable (∀ i : Fin maxTables, (storedRows tables i).length + rowsFor rows i ≤ maxRows))

theorem rowsFor_cons (ir : InsertRow) (rows : List InsertRow) (i : Fin maxTables) :
    rowsFor (ir :: rows) i = (if ir.tableIndex = i then 1 else 0) + rowsFor rows i := by
  unfold rowsFor
  rw [List.countP_cons, Nat.add_comm]
  simp

theorem rowsFor_append (rows rows' : List InsertRow) (i : Fin maxTables) :
    rowsFor (rows ++ rows') i = rowsFor rows i + rowsFor rows' i :=
  List.countP_append

theorem rowsFor_pos {rows : List InsertRow} {ir : InsertRow} (h : ir ∈ rows) :
    0 < rowsFor rows ir.tableIndex :=
  List.countP_pos_iff.mpr ⟨ir, h, by simp⟩

theorem length_storedRows_le (tables : Tables) (i : Fin maxTables) :
    (storedRows tables i).length ≤ maxRows := by
  unfold storedRows
  cases tables.items[i.val]? with
  | none => simp
  | some table => exact table.rows.fits

/-- The validator's room, in the count of stored rows. -/
theorem hasRoom_iff {tables : Tables} {ir : InsertRow} :
    HasRoom tables ir ↔
      ir.tableIndex.val < tables.count ∧ (storedRows tables ir.tableIndex).length < maxRows := by
  unfold HasRoom storedRows CountedArray.count
  cases htable : tables.items[ir.tableIndex.val]? with
  | none =>
      have := List.getElem?_eq_none_iff.mp htable
      simp only [reduceCtorEq, false_and, exists_false, false_iff, not_and]
      omega
  | some table =>
      have := (List.getElem?_eq_some_iff.mp htable).1
      simp [this]

/-- The appending loop adds to each table the rows that go to it. -/
theorem length_storedRows_appendRows {tables tables' : Tables} {rows : List InsertRow}
    (h : appendRows tables rows = some tables') (i : Fin maxTables) :
    (storedRows tables' i).length = (storedRows tables i).length + rowsFor rows i := by
  rw [(appendRows_spec h).2, insertAll_apply, List.length_append, List.length_map,
    ← List.countP_eq_length_filter, List.countP_map]
  rfl

theorem Indexed.of_sameDefinitions {tables tables' : Tables} {rows : List InsertRow}
    (h : Indexed tables rows) (hsame : SameDefinitions tables tables') :
    Indexed tables' rows := fun ir hir => hsame.count_eq ▸ h ir hir

theorem appendRows_cons {tables : Tables} {ir : InsertRow} {rows : List InsertRow} :
    appendRows tables (ir :: rows) =
      (appendRow tables ir).bind fun middle => appendRows middle rows := rfl

/-- The appending loop stays inside the arrays exactly when the rows fit. -/
theorem isSome_appendRows_iff {tables : Tables} {rows : List InsertRow}
    (hindexed : Indexed tables rows) :
    (appendRows tables rows).isSome ↔ Fits tables rows := by
  constructor
  · intro h i
    obtain ⟨tables', happend⟩ := Option.isSome_iff_exists.mp h
    rw [← length_storedRows_appendRows happend]
    exact length_storedRows_le tables' i
  · intro h
    induction rows generalizing tables with
    | nil => rfl
    | cons ir rows ih =>
        -- the first row is one of those that fit, the others fit behind it
        have hroom : HasRoom tables ir := by
          have hfit := h ir.tableIndex
          rw [rowsFor_cons, if_pos rfl] at hfit
          exact hasRoom_iff.mpr ⟨hindexed ir List.mem_cons_self, by omega⟩
        obtain ⟨middle, hmiddle⟩ := Option.isSome_iff_exists.mp (isSome_appendRow_iff.mpr hroom)
        have hone : appendRows tables [ir] = some middle := by
          rw [appendRows_cons, hmiddle]
          rfl
        rw [appendRows_cons, hmiddle, Option.bind_some]
        refine ih ?_ fun i => ?_
        · refine Indexed.of_sameDefinitions ?_ (appendRows_spec hone).1
          exact fun x hx => hindexed x (List.mem_cons_of_mem _ hx)
        · have hfit := h i
          rw [rowsFor_cons] at hfit
          rw [length_storedRows_appendRows hone, rowsFor_cons]
          simpa [rowsFor, Nat.add_assoc] using hfit

/-! ## The writes of an insertion -/

/-- Every write of the appending loop goes to a place of its own table, and the
tables are left with no more rows than they have room for. -/
structure AppendsInRange (tables : Tables) (rows : List InsertRow) : Prop where
  inRange : ∀ done ir rest, rows = done ++ ir :: rest →
    ∃ middle table next, appendRows tables done = some middle ∧
      middle.items[ir.tableIndex.val]? = some table ∧ table.rows.count < maxRows ∧
      appendRow middle ir = some next ∧
      ∀ j : Nat, j ≠ ir.tableIndex.val → next.items[j]? = middle.items[j]?
  bounded : ∃ tables', appendRows tables rows = some tables' ∧
    ∀ table ∈ tables'.items, table.rows.count ≤ maxRows

/-- One write changes its own table only. -/
theorem appendRow_other {tables tables' : Tables} {ir : InsertRow}
    (h : appendRow tables ir = some tables') {j : Nat} (hj : j ≠ ir.tableIndex.val) :
    tables'.items[j]? = tables.items[j]? := by
  obtain ⟨table, rows, -, -, rfl⟩ := appendRow_eq_some_iff.mp h
  rw [CountedArray.items_set, List.getElem?_set, if_neg (Ne.symm hj)]

theorem appendsInRange_iff {tables : Tables} {rows : List InsertRow}
    (hindexed : Indexed tables rows) : AppendsInRange tables rows ↔ Fits tables rows := by
  rw [← isSome_appendRows_iff hindexed]
  constructor
  · intro h
    obtain ⟨tables', happend, -⟩ := h.bounded
    exact Option.isSome_iff_exists.mpr ⟨tables', happend⟩
  · intro h
    obtain ⟨tables', happend⟩ := Option.isSome_iff_exists.mp h
    refine ⟨?_, tables', happend, fun table _ => table.rows.count_le⟩
    rintro done ir rest rfl
    rw [appendRows_append, Option.bind_eq_some_iff] at happend
    obtain ⟨middle, hdone, hrest⟩ := happend
    rw [appendRows_cons, Option.bind_eq_some_iff] at hrest
    obtain ⟨next, hnext, -⟩ := hrest
    obtain ⟨table, htable, hroom⟩ :=
      isSome_appendRow_iff.mp (Option.isSome_iff_exists.mpr ⟨next, hnext⟩)
    exact ⟨middle, table, next, hdone, htable, hroom, hnext, fun j hj => appendRow_other hnext hj⟩

/-- Every row that passes the validator names a loaded table. -/
theorem indexed_of_validateBatchRows {tables : Tables} {batch : InsertBatch}
    (h : validateBatchRows tables batch = .ok ()) : Indexed tables batch.items :=
  fun ir hir => (hasRoom_iff.mp ((validateRows_eq_ok_iff.mp h).1 ir hir)).1

/-- The insertion appends an accepted batch without leaving an array. -/
def InsertsInRange (state : SharedState) : Op → Prop
  | .load _ _ => True
  | .insert pgQueryParse sql => ∀ batch,
      acceptedBatch pgQueryParse state.tables sql = .ok batch →
        AppendsInRange state.tables batch.items

/-- The rows of an accepted batch fit in their tables, together with those there. -/
def BatchFits (state : SharedState) : Op → Prop
  | .load _ _ => True
  | .insert pgQueryParse sql => ∀ batch,
      acceptedBatch pgQueryParse state.tables sql = .ok batch → Fits state.tables batch.items

theorem insertsInRange_iff (state : SharedState) (op : Op) :
    InsertsInRange state op ↔ BatchFits state op := by
  cases op with
  | load cjsonParse file => exact Iff.rfl
  | insert pgQueryParse sql =>
      refine forall_congr' fun batch => imp_congr_right fun haccepted => appendsInRange_iff ?_
      exact indexed_of_validateBatchRows (acceptedBatch_eq_ok_iff.mp haccepted).2.2

/-- Along every run, the insertions stay inside the arrays exactly when every
accepted batch fits. -/
theorem everyStep_insertsInRange_iff (now : Int) (ops : List Op) :
    EveryStep Op.step InsertsInRange (stateInit now) ops ↔
      EveryStep Op.step BatchFits (stateInit now) ops :=
  everyStep_congr insertsInRange_iff

/-! ## The parser sees the names only -/

/-- What the parser sees of a table: its name and the names of its columns. -/
def Table.names (table : Table) : CBuf maxName × List (CBuf maxName) :=
  (table.name, table.columns.items.map Column.name)

/-- The same tables with columns of the same names. -/
def SameNames (tables tables' : Tables) : Prop :=
  tables.items.map Table.names = tables'.items.map Table.names

theorem SameDefinitions.names {tables tables' : Tables} (h : SameDefinitions tables tables') :
    SameNames tables tables' := by
  have hnames := congrArg
    (List.map fun d : CBuf maxName × CountedArray Column maxColumns =>
      (d.1, d.2.items.map Column.name)) h
  rwa [List.map_map, List.map_map] at hnames

theorem SameNames.findTable_eq {tables tables' : Tables} (h : SameNames tables tables')
    (name : CString) : findTable tables name = findTable tables' name :=
  CountedArray.findPlace?_congr Table.names (fun names => decide (names.1.chars = name)) h

theorem SameNames.getElem?_eq {tables tables' : Tables} (h : SameNames tables tables') (i : Nat) :
    tables.items[i]?.map Table.names = tables'.items[i]?.map Table.names := by
  simpa using congrArg (fun names => names[i]?) h

section Columns

variable {table table' : Table}
  (h : table.columns.items.map Column.name = table'.columns.items.map Column.name)

include h

theorem findColumn_congr (name : CString) : findColumn table name = findColumn table' name :=
  CountedArray.findPlace?_congr Column.name (fun c => decide (c.chars = name)) h

theorem columns_count_congr : table.columns.count = table'.columns.count := by
  simpa [CountedArray.count] using congrArg List.length h

theorem naturalColumns_congr : naturalColumns table = naturalColumns table' := by
  have hplaces : ∀ t : Table, t.columns.places.map Prod.fst =
      (CountedArray.placesFrom maxColumns 0 (t.columns.items.map Column.name)
        (by simpa using t.columns.fits)).map Prod.fst := by
    intro t
    rw [CountedArray.placesFrom_map _ (by simpa using t.columns.fits), List.map_map]
    rfl
  unfold naturalColumns
  simp only [hplaces, h]

theorem ColumnsRead.congr {p after : CString} {columns : List (Fin maxColumns)}
    (hread : ColumnsRead table p columns after) : ColumnsRead table' p columns after := by
  induction hread with
  | close rest => exact .close rest
  | column hopen hname hcolumn hsep _ ih =>
      exact .column hopen hname (findColumn_congr h _ ▸ hcolumn) hsep ih
  | last hopen hname hcolumn hsep =>
      exact .last hopen hname (findColumn_congr h _ ▸ hcolumn) hsep

theorem ColumnsChosen.congr {p rest : CString} {columns : List (Fin maxColumns)}
    (hchosen : ColumnsChosen table p columns rest) : ColumnsChosen table' p columns rest := by
  cases hchosen with
  | listed hread => exact .listed (hread.congr h)
  | natural hopen =>
      rw [naturalColumns_congr h]
      exact .natural hopen

theorem tupleRow_congr (i : Fin maxTables) (columns : List (Fin maxColumns))
    (cells : List Cell) :
    tupleRow i table columns cells = tupleRow i table' columns cells := by
  simp only [tupleRow, blankRow, columns_count_congr h]

end Columns

/-- A statement has the same rows over tables with the same names. -/
theorem Reading.Of.congr {tables tables' : Tables} (h : SameNames tables tables')
    {stmt : CString} {r : Reading} (hr : r.Of tables stmt) :
    ∃ r' : Reading, r'.Of tables' stmt ∧ r'.rows = r.rows := by
  obtain ⟨hinsert, hinto, after, hname, hindex, htable, hafter⟩ :=
    insertTarget_eq_ok_iff.mp hr.target
  have hget := h.getElem?_eq r.target.tableIndex.val
  rw [htable, Option.map_some, eq_comm, Option.map_eq_some_iff] at hget
  obtain ⟨table', htable', hnames⟩ := hget
  have hcolumns : r.target.table.columns.items.map Column.name =
      table'.columns.items.map Column.name := (congrArg Prod.snd hnames).symm
  refine ⟨{ r with target := { r.target with table := table' } }, ?_, ?_⟩
  · exact {
      target := insertTarget_eq_ok_iff.mpr
        ⟨hinsert, hinto, after, hname, h.findTable_eq _ ▸ hindex, htable', hafter⟩
      columns := hr.columns.congr hcolumns
      room := hr.room
      values := hr.values
      tuples := hr.tuples
      counts := hr.counts }
  · exact List.map_congr_left fun cells _ => (tupleRow_congr hcolumns _ _ _).symm

/-- A batch text parses alike over tables with the same names. -/
theorem parseBatch_congr {tables tables' : Tables} (h : SameNames tables tables')
    {sql : CString} {batch : InsertBatch} (hparse : parseBatch tables sql = .ok batch) :
    parseBatch tables' sql = .ok batch := by
  rw [parseBatch_eq_ok_iff] at hparse ⊢
  obtain ⟨rowss, hrows, hitems, hne⟩ := hparse
  refine ⟨rowss, hrows.imp ?_, hitems, hne⟩
  rintro text rows ⟨hlen, hblank | ⟨r, hr, rfl⟩⟩
  · exact ⟨hlen, Or.inl hblank⟩
  · obtain ⟨r', hr', hsame⟩ := hr.congr h
    exact ⟨hlen, Or.inr ⟨r', hr', hsame.symm⟩⟩

/-! ## A run that leaves an array -/

/-- The text of a document with one table of one column without constraints. -/
def plainText : List UInt8 :=
  (lit "\x7b\"tables\":[\x7b\"name\":\"t\",\"columns\":[\x7b\"name\":\"a\"\x7d]\x7d]\x7d").map
    Subtype.val

def plainDocument : CJson :=
  .object [(lit "tables", .array [
    .object [(lit "name", .string (lit "t")), (lit "columns", .array [
      .object [(lit "name", .string (lit "a"))]])]])]

def plainLoad : Op :=
  .load (fun json => if json = plainText then some plainDocument else none) (.holding plainText)

/-- An insertion of one row into that table. -/
def insertOne : Op := .insert (fun _ => none) (lit "INSERT INTO t VALUES (1)")

/-- An insertion of two rows. -/
def insertTwo : Op := .insert (fun _ => none) (lit "INSERT INTO t VALUES (1), (2)")

/-- The column of that table. -/
def plainColumn : Column :=
  ⟨snprintf (lit "a"), snprintf (lit "TEXT"), false, false, false, snprintf [], snprintf []⟩

/-- The table, without rows. -/
def plainTable : Table := ⟨snprintf (lit "t"), ⟨[plainColumn], by decide⟩, .empty⟩

/-- The tables after the load. -/
def plainTables : Tables := ⟨[plainTable], by decide⟩

/-- A row of that table with a value. -/
def plainRow (value : CString) : InsertRow :=
  ⟨0, (blankRow ⟨snprintf [], ⟨[plainColumn], by decide⟩, .empty⟩).store 0
    ⟨snprintf value, false⟩⟩

theorem plainLoad_step :
    Op.step (stateInit 0) plainLoad = some { stateInit 0 with tables := plainTables } := by
  decide +kernel

/-- Every row is admissible where no column has a constraint. -/
theorem plain_admitsAll {tables : Tables} (h : SameDefinitions plainTables tables)
    (rows : List InsertRow) :
    AdmitsAll (schemaOf tables).Admissible (seen tables []) (rows.map InsertRow.view) := by
  have hcolumn : ∀ i c col, columnAt plainTables i c = some col → col = plainColumn := by
    intro i c col hcol
    unfold columnAt at hcol
    rw [Option.bind_eq_bind, Option.bind_eq_some_iff] at hcol
    obtain ⟨table, htable, hcol⟩ := hcol
    obtain rfl := List.mem_singleton.mp (List.mem_of_getElem? htable)
    exact List.mem_singleton.mp (List.mem_of_getElem? hcol)
  have hadmissible : ∀ (contents : Fin maxTables → List (Fin maxColumns → Option CString)) x,
      (schemaOf tables).Admissible contents x := by
    intro contents x
    rw [← h.schemaOf_eq]
    refine ⟨?_, ?_, ?_⟩
    · rintro c ⟨col, hcol, hflag⟩
      rw [hcolumn _ _ _ hcol] at hflag
      exact absurd hflag (by decide)
    · rintro c ⟨col, hcol, hflag⟩
      rw [hcolumn _ _ _ hcol] at hflag
      exact absurd hflag (by decide)
    · rintro c ⟨col, hcol, href⟩
      rw [hcolumn _ _ _ hcol] at href
      exact absurd rfl href
  generalize seen tables [] = contents
  induction rows generalizing contents with
  | nil => trivial
  | cons ir rows ih => exact ⟨hadmissible _ _, ih _⟩

/-- A batch for that table is accepted as long as a stored row is missing. -/
theorem acceptedBatch_plain {tables : Tables} {sql : CString} {batch : InsertBatch}
    (h : SameDefinitions plainTables tables) (hparse : parseBatch plainTables sql = .ok batch)
    (hrows : ∀ ir ∈ batch.items, ir.tableIndex = 0)
    (hroom : (storedRows tables 0).length < maxRows) :
    acceptedBatch (fun _ => none) tables sql = .ok batch := by
  refine acceptedBatch_eq_ok_iff.mpr ⟨rfl, parseBatch_congr h.names hparse,
    validateRows_eq_ok_iff.mpr ⟨fun ir hir => hasRoom_iff.mpr ?_, plain_admitsAll h _⟩⟩
  rw [hrows ir hir, ← h.count_eq]
  exact ⟨by decide, hroom⟩

theorem parseBatch_one :
    parseBatch plainTables (lit "INSERT INTO t VALUES (1)") =
      .ok ⟨[plainRow (lit "1")], by decide⟩ := by
  decide +kernel

theorem parseBatch_two :
    parseBatch plainTables (lit "INSERT INTO t VALUES (1), (2)") =
      .ok ⟨[plainRow (lit "1"), plainRow (lit "2")], by decide⟩ := by
  decide +kernel

/-- Insertions of one row fill the table row by row. -/
theorem runFrom_insertOne (state : SharedState) (h : SameDefinitions plainTables state.tables)
    (n : Nat) (hn : (storedRows state.tables 0).length + n ≤ maxRows) :
    ∃ state', runFrom Op.step state (List.replicate n insertOne) = some state' ∧
      SameDefinitions plainTables state'.tables ∧
      (storedRows state'.tables 0).length = (storedRows state.tables 0).length + n := by
  induction n generalizing state with
  | zero => exact ⟨state, rfl, h, rfl⟩
  | succ n ih =>
      have haccepted := acceptedBatch_plain h parseBatch_one (by simp [plainRow]) (by omega)
      have hindexed := indexed_of_validateBatchRows (acceptedBatch_eq_ok_iff.mp haccepted).2.2
      have hfits : Fits state.tables [plainRow (lit "1")] := by
        intro i
        by_cases hi : i = 0
        · have hone : rowsFor [plainRow (lit "1")] 0 = 1 := by decide
          rw [hi, hone]
          omega
        · have hnone : rowsFor [plainRow (lit "1")] i = 0 := by
            simp [rowsFor, plainRow, Ne.symm hi]
          rw [hnone]
          exact length_storedRows_le state.tables i
      obtain ⟨tables, happend⟩ :=
        Option.isSome_iff_exists.mp ((isSome_appendRows_iff hindexed).mpr hfits)
      have hcount : (storedRows tables 0).length = (storedRows state.tables 0).length + 1 := by
        rw [length_storedRows_appendRows happend]
        rfl
      have hstep : Op.step state insertOne = some { state with tables := tables } := by
        unfold insertOne Op.step applyInsertBatch
        simp only [haccepted, Outcome.ok_bind, happend, Option.map_some]
      obtain ⟨state', hrun, hdefs, hlen⟩ :=
        ih { state with tables := tables } (h.trans (appendRows_spec happend).1)
          (by rw [hcount]; omega)
      refine ⟨state', ?_, hdefs, by rw [hlen, hcount]; omega⟩
      rw [List.replicate_succ, runFrom_cons, hstep, Option.bind_some, hrun]

/-- A run after which all rows but one are taken. -/
theorem exists_almostFull :
    ∃ state, runFrom Op.step (stateInit 0) (plainLoad :: List.replicate 1023 insertOne) =
        some state ∧
      SameDefinitions plainTables state.tables ∧ (storedRows state.tables 0).length = 1023 := by
  obtain ⟨state, hrun, hdefs, hlen⟩ :=
    runFrom_insertOne { stateInit 0 with tables := plainTables }
      (SameDefinitions.refl _) 1023 (by decide)
  exact ⟨state, by rw [runFrom_cons, plainLoad_step, Option.bind_some, hrun], hdefs, hlen⟩

/-- Two rows do not fit then. -/
theorem not_fits_two {tables : Tables} (hfull : (storedRows tables 0).length = 1023) :
    ¬ Fits tables [plainRow (lit "1"), plainRow (lit "2")] := by
  intro hfits
  have hboth := hfits 0
  have htwo : rowsFor [plainRow (lit "1"), plainRow (lit "2")] 0 = 2 := by decide
  rw [hfull, htwo] at hboth
  exact absurd hboth (by decide)

/-- With 1023 rows stored, a batch of two is accepted and its second row is
written behind the end of the table. -/
theorem overfull_run_not_inRange :
    ¬ EveryStep Op.step InsertsInRange (stateInit 0)
      (plainLoad :: (List.replicate 1023 insertOne ++ [insertTwo])) := by
  rw [everyStep_congr insertsInRange_iff, everyStep_iff]
  intro h
  obtain ⟨state, hrun, hdefs, hfull⟩ := exists_almostFull
  have haccepted := acceptedBatch_plain hdefs parseBatch_two (by simp [plainRow])
    (by rw [hfull]; decide)
  exact not_fits_two hfull (h (plainLoad :: List.replicate 1023 insertOne) insertTwo [] state
    List.cons_append.symm hrun _ haccepted)

end SqlCodeGenerator
