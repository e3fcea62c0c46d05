import SqlCodeGenerator.ColumnPlacement
import SqlCodeGenerator.PointerRefinement

/-!
# Which texts the INSERT parser handles inside its arrays

`column_map` has `MAX_COLUMNS` places, and the loop over an explicit column list writes
one for each name that it reads, repeated names included, without counting them.

* `NamesListed`: so many columns are named in a row.
* `ListsTooMany`: the parser comes to a column list that names one column more than
  there are places.
* `parseBatch_inBounds_iff`: every access of the parser is inside its array exactly for
  the other texts.
* `parseBatch_returns_iff`: the loops of the parser end and its pointers stay in the
  text for every text, and the parser returns exactly for these.
-/

namespace SqlCodeGenerator

open Library

variable {tables : Tables}

/-! ## Column lists -/

/-- `NamesListed table p n`: from `p` on `n` columns of the table are named, with commas
between them. -/
inductive NamesListed (table : Table) : CString → Nat → Prop
  | one {p name after : CString} {ci : Fin maxColumns} (hopen : p.head? ≠ some closeParen)
      (hname : parseIdentifier p maxName = some (name, after))
      (hcolumn : findColumn table name = some ci) : NamesListed table p 1
  | more {p name after next : CString} {ci : Fin maxColumns} {n : Nat}
      (hopen : p.head? ≠ some closeParen)
      (hname : parseIdentifier p maxName = some (name, after))
      (hcolumn : findColumn table name = some ci) (hsep : skipWs after = comma :: next)
      (hrest : NamesListed table next n) : NamesListed table p (n + 1)

theorem NamesListed.pos {table : Table} {p : CString} {n : Nat} (h : NamesListed table p n) :
    0 < n := by
  cases h with
  | one => exact Nat.one_pos
  | more => exact Nat.succ_pos _

/-- The loop over a column list writes behind `column_map` exactly when more columns are
named in a row than there are places left. -/
theorem columnList_eq_fault_iff {table : Table} {tableName p : CString} {map : ColumnMap} :
    columnList table tableName map p = .fault ↔
      NamesListed table p (maxColumns + 1 - map.count) := by
  constructor
  · intro h
    fun_induction columnList table tableName map p with
    | case1 => cases h
    | case2 => cases h
    | case3 => cases h
    | case4 => cases h
    -- the one round that writes behind the last place
    | case5 map c rest hc name next hname ci hcolumn hpush =>
        have hfull := CountedArray.push?_eq_none_iff.mp hpush
        have hfits : map.count ≤ maxColumns := map.fits
        rw [Nat.le_antisymm hfits hfull, Nat.add_sub_cancel_left]
        exact .one (by simpa using hc) hname hcolumn
    -- the round that goes on: one place less is left
    | case6 => cases h
    | case7 map c rest hc name next hname ci hcolumn map₁ hpush tail hsep ih =>
        obtain ⟨hroom, hitems⟩ := CountedArray.push?_eq_some_iff.mp hpush
        have hcount : map₁.count = map.count + 1 := by simp [CountedArray.count, hitems]
        have hleft : maxColumns + 1 - map.count = maxColumns + 1 - map₁.count + 1 := by omega
        rw [hleft]
        exact .more (by simpa using hc) hname hcolumn hsep (ih h)
    | case8 => cases h
    | case9 => cases h
  · generalize hleft : maxColumns + 1 - map.count = n
    intro h
    -- over the columns that are named, with as many places left
    induction h generalizing map with
    | @one p name after ci hopen hname hcolumn =>
        have hfits : map.count ≤ maxColumns := map.fits
        have hpush : map.push? ci = none := CountedArray.push?_eq_none_iff.mpr (by omega)
        cases p with
        | nil => simp [parseIdentifier, skipWs] at hname
        | cons c rest =>
            rw [columnList_cons (by simpa using hopen)]
            simp [hname, hcolumn, hpush]
    | @more p name after next ci n hopen hname hcolumn hsep hrest ih =>
        have hpos := hrest.pos
        have hfits : (map.push? ci).isSome := CountedArray.isSome_push?_iff.mpr (by omega)
        obtain ⟨map₁, hpush⟩ := Option.isSome_iff_exists.mp hfits
        obtain ⟨-, hitems⟩ := CountedArray.push?_eq_some_iff.mp hpush
        have hcount : map₁.count = map.count + 1 := by simp [CountedArray.count, hitems]
        rw [columnList_round hopen hname hcolumn hpush hsep, if_pos rfl]
        exact ih (by omega)

/-! ## Statements -/

/-- The statement's column list names one column more than `column_map` has places, or
begins with so many. -/
def OverlongList (tables : Tables) (stmt : CString) : Prop :=
  ∃ target p, insertTarget tables (skipWs stmt) = .ok target ∧ target.after = openParen :: p ∧
    NamesListed target.table p (maxColumns + 1)

theorem tupleValues_ne_fault {columns : List (Fin maxColumns)} {row : Row} {p : CString} :
    tupleValues columns row p ≠ .fault := by
  fun_induction tupleValues columns row p with
  | case1 => simp
  | case2 => simp
  | case3 => simp
  | case4 => simp
  | case5 => simp
  | case6 _ _ _ _ _ _ _ _ _ ih => exact ih
  | case7 _ _ _ _ _ _ _ _ _ _ ih => exact ih
  | case8 => simp

theorem valuesTuples_ne_fault {tableIndex : Fin maxTables} {table : Table} {map : ColumnMap}
    {p : CString} {batch : InsertBatch} :
    valuesTuples tableIndex table map p batch ≠ .fault := by
  fun_induction valuesTuples tableIndex table map p batch with
  | case1 => simp
  | case2 _ _ _ _ ih => exact ih
  | case3 => simp
  | case4 => simp
  | case5 => simp
  | case6 _ _ _ _ _ _ _ _ htuple => exact absurd htuple tupleValues_ne_fault
  -- the loop has looked whether the batch is full
  | case7 _ batch _ _ _ _ _ hroom _ _ _ hpush =>
      exact absurd (CountedArray.push?_eq_none_iff.mp hpush) hroom
  | case8 _ _ _ _ _ _ _ _ _ _ _ _ _ ih => exact ih

theorem insertTarget_ne_fault {p : CString} : insertTarget tables p ≠ .fault := by
  unfold insertTarget Outcome.failWhen
  split
  · simp
  · rw [Outcome.ok_bind]
    dsimp only
    split
    · simp
    · rw [Outcome.ok_bind]
      cases parseIdentifier ((skipWs (p.drop 6)).drop 4) maxName with
      | none => simp
      | some found =>
          obtain ⟨tableName, after⟩ := found
          dsimp only
          cases hindex : findTable tables tableName with
          | none => simp
          | some tableIndex =>
              obtain ⟨table, htable, -⟩ := CountedArray.findPlace?_eq_some hindex
              simp [htable]

/-- A statement is parsed with a fault exactly when its column list is too long. -/
theorem parseInsertStatement_eq_fault_iff {stmt : CString} {batch : InsertBatch} :
    parseInsertStatement tables stmt batch = .fault ↔ OverlongList tables stmt := by
  unfold parseInsertStatement OverlongList
  dsimp only
  by_cases hblank : skipWs stmt = []
  · rw [if_pos hblank, hblank]
    refine iff_of_false (by simp) ?_
    rintro ⟨target, p, htarget, -⟩
    exact insertTarget_nil tables target htarget
  · rw [if_neg hblank]
    cases htarget : insertTarget tables (skipWs stmt) with
    | error message => simp
    | fault => exact absurd htarget insertTarget_ne_fault
    | ok target =>
        rw [Outcome.ok_bind]
        have hmap : columnMap target.table target.tableName target.after = .fault ↔
            ∃ p, target.after = openParen :: p ∧ NamesListed target.table p (maxColumns + 1) := by
          unfold columnMap
          cases target.after with
          | nil => simp
          | cons c p =>
              dsimp only
              by_cases hc : c = openParen
              · rw [if_pos hc, columnList_eq_fault_iff]
                simp [hc]
              · rw [if_neg hc]
                simp [hc]
        have hrest : (∃ target' p, Outcome.ok target = (Outcome.ok target' : Outcome CString _) ∧
            target'.after = openParen :: p ∧ NamesListed target'.table p (maxColumns + 1)) ↔
            columnMap target.table target.tableName target.after = .fault := by
          simp [hmap]
        rw [hrest]
        cases columnMap target.table target.tableName target.after with
        | error message => simp
        | fault => simp
        | ok found =>
            obtain ⟨map, p⟩ := found
            refine iff_of_false ?_ (by simp)
            show insertValues target map p batch ≠ .fault
            unfold insertValues
            split
            · simp
            · exact valuesTuples_ne_fault

/-! ## Texts -/

/-- The parser comes to a statement with a column list that is too long: the statements
before it are accepted and fit in the batch, and it fits in `stmt`. -/
def ListsTooMany (tables : Tables) (sql : CString) : Prop :=
  ∃ before text after, splitStatements sql = before ++ text :: after ∧
    (∃ rowss, List.Forall₂ (StatementRows tables) before rowss ∧
      rowss.flatten.length ≤ maxBatchRows) ∧
    text.length < maxStatement ∧ OverlongList tables (trimInplace text)

theorem parseStatements_eq_fault_iff {texts : List CString} {batch : InsertBatch} :
    parseStatements tables texts batch = .fault ↔
      ∃ before text after batch', texts = before ++ text :: after ∧
        parseStatements tables before batch = .ok batch' ∧
        text.length < maxStatement ∧ OverlongList tables (trimInplace text) := by
  induction texts generalizing batch with
  | nil => simp [parseStatements]
  | cons first texts ih =>
      by_cases hfits : first.length < maxStatement
      · rw [parseStatements_cons hfits]
        constructor
        · intro h
          cases hfirst : parseInsertStatement tables (trimInplace first) batch with
          | error message => simp [hfirst] at h
          | fault =>
              exact ⟨[], first, texts, batch, rfl, rfl, hfits,
                parseInsertStatement_eq_fault_iff.mp hfirst⟩
          | ok batch₁ =>
              rw [hfirst, Outcome.ok_bind] at h
              obtain ⟨before, text, after, batch', rfl, hbefore, htext, hlong⟩ := ih.mp h
              refine ⟨first :: before, text, after, batch', rfl, ?_, htext, hlong⟩
              rw [parseStatements_cons hfits, hfirst, Outcome.ok_bind, hbefore]
        · rintro ⟨before, text, after, batch', hsplit, hbefore, htext, hlong⟩
          cases before with
          | nil =>
              obtain ⟨rfl, rfl⟩ := List.cons.inj hsplit
              rw [parseInsertStatement_eq_fault_iff.mpr hlong, Outcome.fault_bind]
          | cons first' before =>
              obtain ⟨rfl, rfl⟩ := List.cons.inj hsplit
              rw [parseStatements_cons hfits, Outcome.bind_eq_ok_iff] at hbefore
              obtain ⟨batch₁, hfirst, hbefore⟩ := hbefore
              rw [hfirst, Outcome.ok_bind]
              exact ih.mpr ⟨before, text, after, batch', rfl, hbefore, htext, hlong⟩
      · -- the first statement is too large: nothing is parsed
        rw [parseStatements, if_pos (Nat.le_of_not_lt hfits)]
        refine iff_of_false (by simp) ?_
        rintro ⟨before, text, after, batch', hsplit, hbefore, htext, -⟩
        cases before with
        | nil =>
            obtain ⟨rfl, -⟩ := List.cons.inj hsplit
            exact hfits htext
        | cons first' before =>
            obtain ⟨rfl, -⟩ := List.cons.inj hsplit
            rw [parseStatements, if_pos (Nat.le_of_not_lt hfits)] at hbefore
            cases hbefore

theorem parseBatch_eq_fault_iff {sql : CString} :
    parseBatch tables sql = .fault ↔ ListsTooMany tables sql := by
  have hparse : parseBatch tables sql = .fault ↔
      parseStatements tables (splitStatements sql) .empty = .fault := by
    unfold parseBatch
    cases parseStatements tables (splitStatements sql) .empty with
    | error message => simp
    | fault => simp
    | ok batch =>
        rw [Outcome.ok_bind]
        split
        · simp
        · simp
  rw [hparse, parseStatements_eq_fault_iff]
  unfold ListsTooMany
  constructor
  · rintro ⟨before, text, after, batch, hsplit, hbefore, hrest⟩
    obtain ⟨rowss, hrows, hitems⟩ := parseStatements_eq_ok_iff.mp hbefore
    have hfits := batch.fits
    rw [hitems] at hfits
    exact ⟨before, text, after, hsplit, ⟨rowss, hrows, hfits⟩, hrest⟩
  · rintro ⟨before, text, after, hsplit, ⟨rowss, hrows, hfits⟩, hrest⟩
    exact ⟨before, text, after, ⟨rowss.flatten, hfits⟩, hsplit,
      parseStatements_eq_ok_iff.mpr ⟨rowss, hrows, rfl⟩, hrest⟩

/-! ## The accesses of the parser -/

/-- Every access that `parse_batch` makes is inside its array, however many rounds more
than characters its loops get. -/
def AccessesInside (tables : Tables) (sql : CString) : Prop :=
  ∀ extra array, Pointers.parseBatch (sql.length + 1 + extra) tables sql ≠ .outside array

/-- A run of the parser that has come to a `return`. -/
inductive Returned {α : Type} : Pointers.Run α → Prop
  | done (value : α) : Returned (.done value)
  | failed (message : CString) : Returned (.failed message)

/-- `parse_batch` returns when its loops get one round more than the text has characters,
or more than that. -/
def ParserReturns (tables : Tables) (sql : CString) : Prop :=
  ∀ extra, Returned (Pointers.parseBatch (sql.length + 1 + extra) tables sql)

theorem run_parseBatch (tables : Tables) (sql : CString) (extra : Nat) :
    Pointers.parseBatch (sql.length + 1 + extra) tables sql =
      .ofOutcome .columnMap (parseBatch tables sql) :=
  Pointers.parseBatch_eq (by omega)

/-- For every tables and every text: all accesses of the parser are inside their arrays
exactly if it does not come to a column list that names more than 32 columns. -/
theorem parseBatch_inBounds_iff (tables : Tables) (sql : CString) :
    AccessesInside tables sql ↔ ¬ ListsTooMany tables sql := by
  unfold AccessesInside
  rw [← parseBatch_eq_fault_iff]
  constructor
  · intro h hfault
    exact h 0 .columnMap (by rw [run_parseBatch, hfault]; rfl)
  · intro h extra array hout
    rw [run_parseBatch, CheckedRun.ofOutcome_eq_outside_iff] at hout
    exact h hout.1

/-- For every tables and every text: no loop of the parser needs more rounds than the text
has characters and one, no scanning pointer leaves its text, and the parser returns
exactly if it does not write behind `column_map`. -/
theorem parseBatch_returns_iff (tables : Tables) (sql : CString) :
    (∀ extra, Pointers.parseBatch (sql.length + 1 + extra) tables sql ≠ .spent ∧
      Pointers.parseBatch (sql.length + 1 + extra) tables sql ≠ .outside .text) ∧
    (ParserReturns tables sql ↔ ¬ ListsTooMany tables sql) := by
  refine ⟨fun extra => ⟨?_, ?_⟩, ?_⟩
  · rw [run_parseBatch]
    exact CheckedRun.ofOutcome_ne_spent _ _
  · rw [run_parseBatch, ne_eq, CheckedRun.ofOutcome_eq_outside_iff]
    rintro ⟨-, harray⟩
    cases harray
  · rw [← parseBatch_eq_fault_iff]
    constructor
    · intro h hfault
      have hzero := h 0
      rw [run_parseBatch, hfault] at hzero
      cases hzero
    · intro h extra
      rw [run_parseBatch]
      cases hparse : parseBatch tables sql with
      | ok batch => exact .done batch
      | error message => exact .failed message
      | fault => exact absurd hparse h

/-! ## A column named 33 times -/

/-- An INSERT into the table `t` that lists its column `a` 33 times. -/
def manyColumns : CString :=
  lit ("INSERT INTO t (a,a,a,a,a,a,a,a,a,a,a,a,a,a,a,a,a,a,a,a,a,a,a,a,a,a,a,a,a,a,a,a,a) " ++
    "VALUES (1)")

theorem manyColumns_fault : parseBatch pairTables manyColumns = .fault := by
  decide +kernel

/-- The last of the 33 columns is written behind `column_map`. -/
theorem manyColumns_outside :
    Pointers.parseBatch (manyColumns.length + 1) pairTables manyColumns = .outside .columnMap ∧
      ¬ AccessesInside pairTables manyColumns := by
  have hrun : Pointers.parseBatch (manyColumns.length + 1 + 0) pairTables manyColumns =
      .outside .columnMap := by
    rw [run_parseBatch, manyColumns_fault]
    rfl
  exact ⟨hrun, fun h => h 0 .columnMap hrun⟩

/-- An INSERT into the table `t` that lists its column `a` 64 times: the places behind
`column_map` that it writes are as many again. -/
def twiceManyColumns : CString :=
  lit "INSERT INTO t (" ++ (List.replicate 63 (lit "a,")).flatten ++ lit "a) VALUES (1)"

/-- On this text the parser does not come to a `return`. -/
theorem twiceManyColumns_no_return : ¬ ParserReturns pairTables twiceManyColumns := by
  intro h
  have hfault : parseBatch pairTables twiceManyColumns = .fault := by
    decide +kernel
  have hzero := h 0
  rw [run_parseBatch, hfault] at hzero
  cases hzero

end SqlCodeGenerator
