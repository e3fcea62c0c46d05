import SqlCodeGenerator.InsertValidator
import SqlCodeGenerator.Library.ConstraintStore

/-!
# The validator refines the constraint store

The tables of the server are read as an append-only store with integrity
constraints: a NULL cell is a column without a value, and the schema of the
store is read off the column flags and the resolved references.  Under this
reading

* `value_exists` over the stored rows and the earlier rows of a batch is
  occurrence in the contents with those rows inserted (`valueExists_iff`);
* `validate_batch_rows` accepts exactly the rows the abstract test admits, as
  long as no table named is full (`validateRows_eq_ok_iff`);
* the appending loop of `apply_insert_batch` inserts exactly these rows and
  changes no definition (`appendRows_spec`).
-/

namespace SqlCodeGenerator

open Library

/-! ## The abstract reading of the tables -/

/-- A row as a partial assignment of values to columns. -/
def Row.view (row : Row) : Fin maxColumns → Option CString :=
  fun c => if (row.cell c).isNull then none else some (row.cell c).value.chars

/-- A batch row with its table, as the abstract store inserts it. -/
def InsertRow.view (ir : InsertRow) : Fin maxTables × (Fin maxColumns → Option CString) :=
  (ir.tableIndex, ir.row.view)

/-- The stored rows of all tables. -/
def contents (tables : Tables) : Fin maxTables → List (Fin maxColumns → Option CString) :=
  fun i => (storedRows tables i).map Row.view

/-- The column of a table at given indices, if there is one. -/
def columnAt (tables : Tables) (i : Fin maxTables) (c : Fin maxColumns) : Option Column := do
  let table ← tables.items[i.val]?
  table.columns.items[c.val]?

theorem columnAt_eq_some {tables : Tables} {i : Fin maxTables} {table : Table}
    {c : Fin maxColumns} {col : Column} (htable : tables.items[i.val]? = some table)
    (hcol : table.columns.items[c.val]? = some col) : columnAt tables i c = some col := by
  simp [columnAt, htable, hcol]

/-- The place a column's reference resolves to, if it does. -/
def resolve (tables : Tables) (col : Column) : Option (Fin maxTables × Fin maxColumns) := do
  let rt ← findTable tables col.refTable.chars
  let target ← tables.items[rt.val]?
  let rc ← findColumn target col.refColumn.chars
  some (rt, rc)

/-- The constraints the validator enforces. -/
def schemaOf (tables : Tables) : Schema (Fin maxTables) (Fin maxColumns) where
  unique i c := ∃ col, columnAt tables i c = some col ∧ (col.primaryKey || col.unique) = true
  required i c := ∃ col, columnAt tables i c = some col ∧ (col.notNull || col.primaryKey) = true
  refers i c := ∃ col, columnAt tables i c = some col ∧ col.refTable.chars ≠ []
  target i c := { place | ∃ col, columnAt tables i c = some col ∧ resolve tables col = some place }

/-- The table exists and the validator finds room in it. -/
def HasRoom (tables : Tables) (ir : InsertRow) : Prop :=
  ∃ table, tables.items[ir.tableIndex.val]? = some table ∧ table.rows.count < maxRows

theorem holds_iff_view {row : Row} {c : Fin maxColumns} {value : CString} :
    (row.cell c).holds value = true ↔ row.view c = some value := by
  unfold Cell.holds Row.view
  cases (row.cell c).isNull <;> simp

theorem view_eq_none_iff {row : Row} {c : Fin maxColumns} :
    row.view c = none ↔ (row.cell c).isNull = true := by
  unfold Row.view
  split <;> simp_all

theorem view_eq_some_of_not_null {row : Row} {c : Fin maxColumns}
    (h : (row.cell c).isNull = false) : row.view c = some (row.cell c).value.chars := by
  simp [Row.view, h]

theorem chars_eq_of_view {row : Row} {c : Fin maxColumns} {value : CString}
    (h : row.view c = some value) :
    (row.cell c).isNull = false ∧ (row.cell c).value.chars = value := by
  unfold Row.view at h
  split at h
  · cases h
  · next hnull => exact ⟨by simpa using hnull, by simpa using h⟩

/-- The contents that `value_exists` looks at: the stored rows, and the batch
rows before the one being checked. -/
def seen (tables : Tables) (earlier : List InsertRow) :
    Fin maxTables → List (Fin maxColumns → Option CString) :=
  insertAll (contents tables) (earlier.map InsertRow.view)

theorem seen_snoc (tables : Tables) (earlier : List InsertRow) (ir : InsertRow) :
    seen tables (earlier ++ [ir]) = insertRow (seen tables earlier) ir.view := by
  simp [seen, insertAll_append]

/-- `value_exists` is occurrence in the contents seen. -/
theorem valueExists_iff {tables : Tables} {earlier : List InsertRow} {i : Fin maxTables}
    {c : Fin maxColumns} {value : CString} :
    valueExists tables earlier i c value = true ↔
      Schema.Occurs (seen tables earlier) i c value := by
  unfold valueExists Schema.Occurs seen contents
  rw [insertAll_apply]
  simp only [Bool.or_eq_true, List.any_eq_true, Bool.and_eq_true, decide_eq_true_eq,
    holds_iff_view, List.mem_append, List.mem_map, List.mem_filter]
  constructor
  · rintro (⟨row, hrow, hvalue⟩ | ⟨ir, hir, htable, hvalue⟩)
    · exact ⟨row.view, Or.inl ⟨row, hrow, rfl⟩, hvalue⟩
    · exact ⟨ir.row.view, Or.inr ⟨ir.view, ⟨⟨ir, hir, rfl⟩, htable⟩, rfl⟩, hvalue⟩
  · rintro ⟨_, ⟨row, hrow, rfl⟩ | ⟨_, ⟨⟨ir, hir, rfl⟩, htable⟩, rfl⟩, hvalue⟩
    · exact Or.inl ⟨row, hrow, hvalue⟩
    · exact Or.inr ⟨ir, hir, htable, hvalue⟩

/-! ## The validator -/

/-- The reference test succeeds exactly when the reference resolves to a place
where the value occurs. -/
theorem validateReference_eq_ok_iff {tables : Tables} {earlier : List InsertRow}
    {table : Table} {col : Column} {x : Cell} :
    validateReference tables earlier table col x = .ok () ↔
      ∃ place, resolve tables col = some place ∧
        Schema.Occurs (seen tables earlier) place.1 place.2 x.value.chars := by
  unfold validateReference resolve
  cases htable : findTable tables col.refTable.chars with
  | none => simp
  | some rt =>
      cases htarget : tables.items[rt.val]? with
      | none => simp [htarget]
      | some target =>
          cases hcolumn : findColumn target col.refColumn.chars with
          | none => simp [htarget, hcolumn]
          | some rc =>
              simp [htarget, hcolumn, Outcome.failWhen_eq_ok_iff, ← valueExists_iff]

/-- The tests on one column, each as the abstract constraint it enforces. -/
theorem validateColumn_eq_ok_iff {tables : Tables} {earlier : List InsertRow}
    {table : Table} {ir : InsertRow} {c : Fin maxColumns} {col : Column} :
    validateColumn tables earlier table ir c col = .ok () ↔
      ((col.notNull || col.primaryKey) = true → ir.row.view c ≠ none) ∧
      ((col.primaryKey || col.unique) = true → ∀ v, ir.row.view c = some v →
        ¬ Schema.Occurs (seen tables earlier) ir.tableIndex c v) ∧
      (col.refTable.chars ≠ [] → ∀ v, ir.row.view c = some v →
        ∃ place, resolve tables col = some place ∧
          Schema.Occurs (seen tables earlier) place.1 place.2 v) := by
  unfold validateColumn duplicateValue
  simp only [Outcome.check_bind_eq_ok_iff, Outcome.failWhen_eq_ok_iff, Bool.and_eq_true,
    not_and, Bool.not_eq_true', valueExists_iff]
  cases hnull : (ir.row.cell c).isNull with
  | true =>
      -- of a NULL only the NOT NULL test asks something
      have hview : ir.row.view c = none := view_eq_none_iff.mpr hnull
      simp [hview]
  | false =>
      have hview := view_eq_some_of_not_null hnull
      simp only [hview, Option.some.injEq, forall_eq', ne_eq, reduceCtorEq,
        not_false_eq_true, implies_true, true_and, and_true, Bool.false_eq_true]
      refine and_congr_right fun _ => ?_
      split
      · next href => simp [href, validateReference_eq_ok_iff]
      · next href => simp [href]

theorem validateColumns_eq_ok_iff {tables : Tables} {earlier : List InsertRow}
    {table : Table} {ir : InsertRow} {places : List (Fin maxColumns × Column)} :
    validateColumns tables earlier table ir places = .ok () ↔
      ∀ place ∈ places,
        validateColumn tables earlier table ir place.1 place.2 = .ok () := by
  induction places with
  | nil => simp [validateColumns]
  | cons place rest ih =>
      obtain ⟨c, col⟩ := place
      simp [validateColumns, Outcome.check_bind_eq_ok_iff, ih]

/-- One round of the validator: the table has room, and the row is admissible in
the contents seen. -/
theorem validateRow_eq_ok_iff {tables : Tables} {earlier : List InsertRow}
    {ir : InsertRow} :
    validateRow tables earlier ir = .ok () ↔
      HasRoom tables ir ∧ (schemaOf tables).Admissible (seen tables earlier) ir.view := by
  unfold validateRow HasRoom
  cases htable : tables.items[ir.tableIndex.val]? with
  | none => simp
  | some table =>
      have hcolumn : ∀ c, columnAt tables ir.tableIndex c = table.columns.items[c.val]? := by
        intro c
        simp [columnAt, htable]
      simp only [Outcome.check_bind_eq_ok_iff, Outcome.failWhen_eq_ok_iff, ge_iff_le,
        Nat.not_le, validateColumns_eq_ok_iff, Prod.forall, CountedArray.mem_places_iff,
        validateColumn_eq_ok_iff, Option.some.injEq, exists_eq_left']
      refine and_congr_right fun _ => ?_
      constructor
      · intro h
        refine ⟨?_, ?_, ?_⟩
        · rintro c ⟨col, hcol, hflag⟩
          exact (h c col (hcolumn c ▸ hcol)).2.1 hflag
        · rintro c ⟨col, hcol, hflag⟩
          exact (h c col (hcolumn c ▸ hcol)).1 hflag
        · rintro c ⟨col, hcol, href⟩ v hv
          obtain ⟨place, hplace, hoccurs⟩ := (h c col (hcolumn c ▸ hcol)).2.2 href v hv
          exact ⟨place, ⟨col, hcol, hplace⟩, hoccurs⟩
      · rintro ⟨hunique, hrequired, hreferences⟩ c col hcol
        have hcol' : columnAt tables ir.tableIndex c = some col := (hcolumn c).trans hcol
        refine ⟨fun hflag => hrequired c ⟨col, hcol', hflag⟩,
          fun hflag => hunique c ⟨col, hcol', hflag⟩, fun href v hv => ?_⟩
        obtain ⟨place, ⟨col', hcol'', hplace⟩, hoccurs⟩ :=
          hreferences c ⟨col, hcol', href⟩ v hv
        have hsame : col' = col := Option.some.inj (hcol''.symm.trans hcol')
        exact ⟨place, hsame ▸ hplace, hoccurs⟩

/-- `validate_batch_rows` refines the abstract test of a list of rows. -/
theorem validateRows_eq_ok_iff {tables : Tables} {earlier rows : List InsertRow} :
    validateRows tables earlier rows = .ok () ↔
      (∀ ir ∈ rows, HasRoom tables ir) ∧
        AdmitsAll (schemaOf tables).Admissible (seen tables earlier)
          (rows.map InsertRow.view) := by
  induction rows generalizing earlier with
  | nil => simp [validateRows, AdmitsAll]
  | cons ir rest ih =>
      simp only [validateRows, Outcome.check_bind_eq_ok_iff, validateRow_eq_ok_iff, ih,
        seen_snoc, List.mem_cons, forall_eq_or_imp, List.map_cons, AdmitsAll]
      tauto

/-- Every row of a batch that passes is checked behind those before it. -/
theorem validateRow_of_validateRows {tables : Tables} {earlier before after : List InsertRow}
    {ir : InsertRow}
    (h : validateRows tables earlier (before ++ ir :: after) = .ok ()) :
    validateRow tables (earlier ++ before) ir = .ok () := by
  induction before generalizing earlier with
  | nil =>
      rw [List.nil_append, validateRows, Outcome.check_bind_eq_ok_iff] at h
      rw [List.append_nil]
      exact h.1
  | cons first before ih =>
      rw [List.cons_append, validateRows, Outcome.check_bind_eq_ok_iff] at h
      have hlater := ih h.2
      rwa [List.append_assoc] at hlater

/-! ## The appending loop -/

/-- The definition of a table: everything but its rows. -/
def Table.definition (table : Table) : CBuf maxName × CountedArray Column maxColumns :=
  (table.name, table.columns)

/-- The same tables with the same columns, whatever rows they hold. -/
def SameDefinitions (tables tables' : Tables) : Prop :=
  tables.items.map Table.definition = tables'.items.map Table.definition

namespace SameDefinitions

variable {tables tables' : Tables}

theorem refl (tables : Tables) : SameDefinitions tables tables := rfl

theorem symm (h : SameDefinitions tables tables') : SameDefinitions tables' tables :=
  Eq.symm h

theorem trans {tables'' : Tables} (h : SameDefinitions tables tables')
    (h' : SameDefinitions tables' tables'') : SameDefinitions tables tables'' :=
  Eq.trans h h'

theorem count_eq (h : SameDefinitions tables tables') : tables.count = tables'.count := by
  simpa [CountedArray.count] using congrArg List.length h

theorem getElem?_eq (h : SameDefinitions tables tables') (i : Nat) :
    tables.items[i]?.map Table.definition = tables'.items[i]?.map Table.definition := by
  have := congrArg (fun definitions => definitions[i]?) h
  simpa using this

theorem findTable_eq (h : SameDefinitions tables tables') (name : CString) :
    findTable tables name = findTable tables' name :=
  CountedArray.findPlace?_congr Table.definition
    (fun definition => decide (definition.1.chars = name)) h

theorem columnAt_eq (h : SameDefinitions tables tables') (i : Fin maxTables)
    (c : Fin maxColumns) : columnAt tables i c = columnAt tables' i c := by
  have hcolumns : ∀ t : Tables, columnAt t i c =
      (t.items[i.val]?.map Table.definition).bind fun d => d.2.items[c.val]? := by
    intro t
    unfold columnAt
    cases t.items[i.val]? <;> rfl
  rw [hcolumns, hcolumns, h.getElem?_eq]

theorem resolve_eq (h : SameDefinitions tables tables') (col : Column) :
    resolve tables col = resolve tables' col := by
  have hresolve : ∀ t : Tables, resolve t col =
      (findTable t col.refTable.chars).bind fun rt =>
        (t.items[rt.val]?.map Table.definition).bind fun d =>
          (d.2.findPlace? fun column => decide (column.name.chars = col.refColumn.chars)).map
            fun rc => (rt, rc) := by
    intro t
    unfold resolve
    cases findTable t col.refTable.chars with
    | none => rfl
    | some rt =>
        cases htarget : t.items[rt.val]? with
        | none => simp [htarget]
        | some target =>
            simp only [Option.bind_eq_bind, Option.bind_some, htarget, Option.map_some]
            unfold findColumn Table.definition
            cases target.columns.findPlace? _ <;> rfl
  rw [hresolve, hresolve, h.findTable_eq]
  simp only [h.getElem?_eq]

theorem schemaOf_eq (h : SameDefinitions tables tables') : schemaOf tables = schemaOf tables' := by
  unfold schemaOf
  simp only [h.columnAt_eq, h.resolve_eq]

end SameDefinitions

/-- What one write of the appending loop does: the table had room, its rows grew
by the new one, and nothing else changed. -/
theorem appendRow_eq_some_iff {tables tables' : Tables} {ir : InsertRow} :
    appendRow tables ir = some tables' ↔
      ∃ table rows, tables.items[ir.tableIndex.val]? = some table ∧
        table.rows.push? ir.row = some rows ∧
        tables' = tables.set ir.tableIndex.val { table with rows := rows } := by
  unfold appendRow
  cases htable : tables.items[ir.tableIndex.val]? with
  | none => simp
  | some table =>
      cases hrows : table.rows.push? ir.row with
      | none => simp [hrows]
      | some rows => simp [hrows, eq_comm]

/-- A write is inside its array exactly when the validator finds room. -/
theorem isSome_appendRow_iff {tables : Tables} {ir : InsertRow} :
    (appendRow tables ir).isSome ↔ HasRoom tables ir := by
  unfold appendRow HasRoom
  cases htable : tables.items[ir.tableIndex.val]? with
  | none => simp
  | some table =>
      have hpush : (table.rows.push? ir.row).isSome ↔ table.rows.count < maxRows :=
        CountedArray.isSome_push?_iff
      cases hrows : table.rows.push? ir.row with
      | none => simpa [hrows] using hpush
      | some rows => simpa [hrows] using hpush

theorem storedRows_set {tables : Tables} {i j : Fin maxTables} {table table' : Table}
    (htable : tables.items[i.val]? = some table) :
    storedRows (tables.set i.val table') j =
      if j = i then table'.rows.items else storedRows tables j := by
  have hlen : i.val < tables.items.length := by
    by_contra hlen
    rw [List.getElem?_eq_none (Nat.le_of_not_lt hlen)] at htable
    cases htable
  unfold storedRows
  rw [CountedArray.items_set, List.getElem?_set]
  by_cases hj : j = i
  · subst hj
    simp [hlen]
  · have hne : ¬ i.val = j.val := fun h => hj (Fin.ext h.symm)
    simp [hj, hne]

theorem appendRow_spec {tables tables' : Tables} {ir : InsertRow}
    (h : appendRow tables ir = some tables') :
    SameDefinitions tables tables' ∧
      storedRows tables' = insertRow (storedRows tables) (ir.tableIndex, ir.row) := by
  obtain ⟨table, rows, htable, hpush, rfl⟩ := appendRow_eq_some_iff.mp h
  have hrows := (CountedArray.push?_eq_some_iff.mp hpush).2
  constructor
  · unfold SameDefinitions
    have hdefinition : (tables.items.map Table.definition)[ir.tableIndex.val]? =
        some ({ table with rows := rows } : Table).definition := by
      simp [htable, Table.definition]
    obtain ⟨hlen, hget⟩ := List.getElem?_eq_some_iff.mp hdefinition
    rw [CountedArray.items_set, List.map_set, ← hget, List.set_getElem_self hlen]
  · funext j
    rw [storedRows_set htable, insertRow_apply]
    by_cases hj : j = ir.tableIndex
    · subst hj
      simp [storedRows, htable, hrows]
    · rw [if_neg hj, if_neg (Ne.symm hj), List.append_nil]

/-- The appending loop inserts the rows in order, each into its own table, and
changes no definition. -/
theorem appendRows_spec {tables tables' : Tables} {rows : List InsertRow}
    (h : appendRows tables rows = some tables') :
    SameDefinitions tables tables' ∧
      storedRows tables' =
        insertAll (storedRows tables) (rows.map fun ir => (ir.tableIndex, ir.row)) := by
  unfold appendRows at h
  induction rows generalizing tables with
  | nil =>
      obtain rfl := Option.some.inj h
      exact ⟨SameDefinitions.refl _, rfl⟩
  | cons ir rest ih =>
      rw [List.foldlM_cons, Option.bind_eq_bind, Option.bind_eq_some_iff] at h
      obtain ⟨middle, hfirst, hrest⟩ := h
      obtain ⟨hdefs, hrows⟩ := appendRow_spec hfirst
      obtain ⟨hdefs', hrows'⟩ := ih hrest
      exact ⟨hdefs.trans hdefs', by rw [hrows', hrows, List.map_cons, insertAll_cons]⟩

/-- After appending rows, the contents are those the validator sees with these
rows before it. -/
theorem contents_appendRows {tables tables' : Tables} {rows : List InsertRow}
    (h : appendRows tables rows = some tables') : contents tables' = seen tables rows := by
  funext i
  simp only [contents, seen, (appendRows_spec h).2, insertAll_apply, List.map_append,
    List.filter_map, List.map_map]
  rfl

theorem appendRows_append {tables : Tables} {rows rows' : List InsertRow} :
    appendRows tables (rows ++ rows') =
      (appendRows tables rows).bind fun middle => appendRows middle rows' :=
  List.foldlM_append

end SqlCodeGenerator
