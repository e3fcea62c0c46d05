import SqlCodeGenerator.ColumnPlacement
import SqlCodeGenerator.ConstraintRefinement
import SqlCodeGenerator.Library.ConstraintOrder

/-!
# The order of the tuples of a statement

`value_exists` looks for a referenced value in the stored rows and in the rows of the
batch before the one that is checked.  The other checks of `validate_batch_rows` do not
depend on the order of the rows.

* `ReferencesStored`: the stored rows alone hold every value that a row refers to.
* `ParsedStatement`: a statement with the tuples that the parser finds in it.
* `tupleOrder_iff`: a statement is accepted with its tuples in every order exactly when it
  is accepted and every reference of its rows leads to a stored row.
-/

namespace SqlCodeGenerator

open Library

variable {tables : Tables}

/-- `value_exists` finds every value that the row refers to among the stored rows. -/
def ReferencesStored (tables : Tables) (ir : InsertRow) : Prop :=
  ∀ c col, columnAt tables ir.tableIndex c = some col → col.refTable.chars ≠ [] →
    (ir.row.cell c).isNull = false →
    ∃ place, resolve tables col = some place ∧
      valueExists tables [] place.1 place.2 (ir.row.cell c).value.chars = true

theorem referencesStored_iff {ir : InsertRow} :
    ReferencesStored tables ir ↔ (schemaOf tables).Supports (contents tables) ir.view := by
  have hseen : seen tables [] = contents tables := rfl
  constructor
  · rintro h c ⟨col, hcol, href⟩ v hv
    obtain ⟨hnull, rfl⟩ := chars_eq_of_view hv
    obtain ⟨place, hplace, hexists⟩ := h c col hcol href hnull
    exact ⟨place, ⟨col, hcol, hplace⟩, hseen ▸ valueExists_iff.mp hexists⟩
  · intro h c col hcol href hnull
    obtain ⟨place, ⟨col', hcol', hplace⟩, hoccurs⟩ :=
      h c ⟨col, hcol, href⟩ _ (view_eq_some_of_not_null hnull)
    obtain rfl := Option.some.inj (hcol'.symm.trans hcol)
    exact ⟨place, hplace, valueExists_iff.mpr (hseen ▸ hoccurs)⟩

/-- The first row of an accepted batch refers to stored rows only. -/
theorem referencesStored_of_first {ir : InsertRow} {rest : List InsertRow}
    (h : validateRows tables [] (ir :: rest) = .ok ()) : ReferencesStored tables ir := by
  obtain ⟨-, hadmits⟩ := validateRows_eq_ok_iff.mp h
  exact referencesStored_iff.mpr hadmits.1.references

/-- Accepted rows that refer to stored rows only are accepted in every order. -/
theorem validateRows_perm {rows rows' : List InsertRow} (hperm : rows'.Perm rows)
    (h : validateRows tables [] rows = .ok ()) (hstored : ∀ ir ∈ rows, ReferencesStored tables ir) :
    validateRows tables [] rows' = .ok () := by
  obtain ⟨hroom, hadmits⟩ := validateRows_eq_ok_iff.mp h
  have hsupports : ∀ x ∈ rows.map InsertRow.view,
      (schemaOf tables).Supports (contents tables) x := by
    intro x hx
    obtain ⟨ir, hir, rfl⟩ := List.mem_map.mp hx
    exact referencesStored_iff.mp (hstored ir hir)
  exact validateRows_eq_ok_iff.mpr ⟨fun ir hir => hroom ir (hperm.mem_iff.mp hir),
    Schema.admitsAll_everyOrder_iff.mpr ⟨hadmits, hsupports⟩ _ (hperm.map InsertRow.view)⟩

/-- Accepted rows of one table that does not refer to itself refer to stored rows only. -/
theorem referencesStored_of_validateRows {rows : List InsertRow} {i : Fin maxTables}
    (hrows : ∀ ir ∈ rows, ir.tableIndex = i)
    (helsewhere : ∀ c col, columnAt tables i c = some col → col.refTable.chars ≠ [] →
      ∀ place, resolve tables col = some place → place.1 ≠ i)
    (h : validateRows tables [] rows = .ok ()) : ∀ ir ∈ rows, ReferencesStored tables ir := by
  obtain ⟨-, hadmits⟩ := validateRows_eq_ok_iff.mp h
  have hviews : ∀ x ∈ rows.map InsertRow.view, x.1 = i := by
    intro x hx
    obtain ⟨ir, hir, rfl⟩ := List.mem_map.mp hx
    exact hrows ir hir
  have htargets : ∀ c, (schemaOf tables).refers i c → ∀ place ∈ (schemaOf tables).target i c,
      place.1 ≠ i := by
    rintro c ⟨col, hcol, href⟩ place ⟨col', hcol', hplace⟩
    obtain rfl := Option.some.inj (hcol'.symm.trans hcol)
    exact helsewhere c col' hcol href place hplace
  intro ir hir
  exact referencesStored_iff.mpr
    (Schema.supports_of_admitsAll hviews htargets hadmits _ (List.mem_map_of_mem hir))

/-! ## Statements -/

/-- A statement as the parser reads it, with all its tuples in the batch. -/
structure ParsedStatement where
  tables : Tables
  stmt : CString
  reading : Reading
  readingOf : reading.Of tables stmt
  fits : reading.tuples.length ≤ maxBatchRows

namespace ParsedStatement

/-- The rows of the statement when its tuples stand in the given order. -/
def rows (s : ParsedStatement) (tuples : List (List Cell)) : List InsertRow :=
  tuples.map (tupleRow s.reading.target.tableIndex s.reading.target.table s.reading.columns)

/-- The batch that the parser makes of the statement. -/
theorem parse_eq (s : ParsedStatement) :
    ∃ batch : InsertBatch, parseInsertStatement s.tables s.stmt .empty = .ok batch ∧
      batch.items = s.rows s.reading.tuples := by
  refine ⟨⟨s.rows s.reading.tuples, by rw [rows, List.length_map]; exact s.fits⟩, ?_, rfl⟩
  exact parseInsertStatement_eq_ok_iff.mpr (Or.inr ⟨s.reading, s.readingOf, rfl⟩)

/-- `validate_batch_rows` accepts the rows with the tuples in the given order. -/
def Accepted (s : ParsedStatement) (tuples : List (List Cell)) : Prop :=
  validateRows s.tables [] (s.rows tuples) = .ok ()

/-- No column of the statement's table refers to a column of the same table. -/
def RefersElsewhere (s : ParsedStatement) : Prop :=
  ∀ c col, columnAt s.tables s.reading.target.tableIndex c = some col →
    col.refTable.chars ≠ [] → ∀ place, resolve s.tables col = some place →
    place.1 ≠ s.reading.target.tableIndex

/-- For every state and statement: the tuples are accepted in every order exactly when they
are in the order of the text and each value that they refer to is stored before the
statement.  In a table that does not refer to itself the order does not matter. -/
theorem tupleOrder_iff (s : ParsedStatement) :
    ((∀ tuples, tuples.Perm s.reading.tuples → s.Accepted tuples) ↔
      s.Accepted s.reading.tuples ∧
        ∀ ir ∈ s.rows s.reading.tuples, ReferencesStored s.tables ir) ∧
    (s.RefersElsewhere →
      (s.Accepted s.reading.tuples ↔
        ∀ tuples, tuples.Perm s.reading.tuples → s.Accepted tuples)) := by
  have hevery : s.Accepted s.reading.tuples →
      (∀ ir ∈ s.rows s.reading.tuples, ReferencesStored s.tables ir) →
      ∀ tuples, tuples.Perm s.reading.tuples → s.Accepted tuples :=
    fun haccepted hstored tuples hperm => validateRows_perm (hperm.map _) haccepted hstored
  refine ⟨⟨fun h => ⟨h _ (List.Perm.refl _), fun ir hir => ?_⟩, fun h => hevery h.1 h.2⟩,
    fun helsewhere => ⟨fun haccepted => hevery haccepted ?_, fun h => h _ (List.Perm.refl _)⟩⟩
  · -- the order in which the tuple of the row comes first
    obtain ⟨cells, hcells, rfl⟩ := List.mem_map.mp hir
    obtain ⟨front, back, hsplit⟩ := List.append_of_mem hcells
    have hfirst := h (cells :: (front ++ back)) (hsplit ▸ List.perm_middle.symm)
    exact referencesStored_of_first hfirst
  · refine referencesStored_of_validateRows (fun ir hir => ?_) helsewhere haccepted
    obtain ⟨cells, -, rfl⟩ := List.mem_map.mp hir
    rfl

end ParsedStatement

/-! ## A table that refers to itself -/

/-- A table `t` of which the column `parent` refers to the column `id`. -/
def selfTable : Table :=
  ⟨snprintf (lit "t"),
    ⟨[{ freeColumn (lit "id") with primaryKey := true },
      { freeColumn (lit "parent") with
        refTable := snprintf (lit "t"), refColumn := snprintf (lit "id") }], by decide⟩, .empty⟩

def selfTables : Tables := ⟨[selfTable], by decide⟩

/-- The row of that table for an `id` and a `parent`. -/
def selfRow (id : CString) (parent : Cell) : InsertRow :=
  ⟨0, ((blankRow selfTable).store 0 ⟨snprintf id, false⟩).store 1 parent⟩

/-- The row without a parent, and the one that refers to it. -/
def rootAndChild : InsertBatch :=
  ⟨[selfRow (lit "1") ⟨snprintf [], true⟩, selfRow (lit "2") ⟨snprintf (lit "1"), false⟩],
    by decide⟩

/-- Two tuples of which the second refers to the first are accepted in this order only. -/
theorem selfReference_oneOrder :
    (∃ s : ParsedStatement, s.tables = selfTables ∧
      s.stmt = lit "INSERT INTO t VALUES (1, NULL), (2, 1)" ∧
      s.Accepted s.reading.tuples ∧
      ¬ ∀ tuples, tuples.Perm s.reading.tuples → s.Accepted tuples) ∧
    ∃ batch, parseInsertStatement selfTables (lit "INSERT INTO t VALUES (2, 1), (1, NULL)") .empty =
        .ok batch ∧
      validateBatchRows selfTables batch =
        .error (lit "constraint failed: foreign key t.parent references missing t.id=1") := by
  have hparse : parseInsertStatement selfTables (lit "INSERT INTO t VALUES (1, NULL), (2, 1)")
        .empty = .ok rootAndChild ∧
      skipWs (lit "INSERT INTO t VALUES (1, NULL), (2, 1)") ≠ [] := by
    decide +kernel
  obtain ⟨hparse, hne⟩ := hparse
  constructor
  · rcases parseInsertStatement_eq_ok_iff.mp hparse with ⟨hblank, -⟩ | ⟨r, hr, hitems⟩
    · exact absurd hblank hne
    · have hrows : rootAndChild.items = r.rows := by simpa using hitems
      have hfits : r.tuples.length ≤ maxBatchRows := by
        have hrowsFit := rootAndChild.fits
        rwa [hrows, Reading.rows, List.length_map] at hrowsFit
      have haccepted : validateRows selfTables [] rootAndChild.items = .ok () := by
        decide +kernel
      rw [hrows] at haccepted
      -- the child comes before its parent
      have hrefused : validateRows selfTables [] rootAndChild.items.reverse ≠ .ok () := by
        decide +kernel
      refine ⟨⟨selfTables, _, r, hr, hfits⟩, rfl, rfl, haccepted, fun hall => hrefused ?_⟩
      have hreverse := hall r.tuples.reverse r.tuples.reverse_perm
      rw [hrows, Reading.rows, ← List.map_reverse]
      exact hreverse
  · exact ⟨⟨rootAndChild.items.reverse, by decide⟩, by decide +kernel, by decide +kernel⟩

end SqlCodeGenerator
