import SqlCodeGenerator.InsertScanners

/-!
# Where the values of a statement go

Behind the table's name `parse_insert_statement` looks at one character to choose
between a column list and the natural order, and then jumps to the first place
where `values` stands.  Whatever lies between is skipped: an alias with a column
list behind it, the rest of a qualified or over-long name.  A column that is
listed twice is written twice.

`ValuesPlaced` says what an explicit list is for; `valuesPlaced_iff` that an
accepted statement keeps it exactly when the text behind the table's name has the
documented form.
-/

namespace SqlCodeGenerator

open Library

variable {tables : Tables} {stmt : CString}

/-! ## The property -/

/-- The values of an accepted statement go where its text says. -/
structure Reading.ValuesPlaced (r : Reading) : Prop where
  /-- Between what was read and `VALUES` only white space is skipped. -/
  interpreted : ∃ blanks, (∀ c ∈ blanks, isSpace c = true) ∧ r.rest = blanks ++ r.values
  /-- A parenthesis that opens between the table's name and `VALUES` opens the
  list of the columns that are filled. -/
  listed : ∀ before list, r.target.after = before ++ openParen :: list →
    openParen ∉ before → r.values.length ≤ list.length →
      ∃ rest, ColumnsRead r.target.table list r.columns rest
  /-- No two values of a tuple go to the same column. -/
  once : r.columns.Nodup
  /-- There is a value for every column, and it is in its column in the row. -/
  kept : ∀ cells ∈ r.tuples, cells.length = r.columns.length ∧
    ∀ (k : Nat) (ci : Fin maxColumns) (x : Cell), r.columns[k]? = some ci → cells[k]? = some x →
      (tupleRow r.target.tableIndex r.target.table r.columns cells).row.cell ci = x

/-! ## The documented form -/

/-- The text behind a table's name in the documented form: `VALUES`, or a
parenthesised list of pairwise different names and then `VALUES`. -/
inductive DocumentedForm : CString → Prop
  | natural {p : CString} (hvalues : ciStarts p (lit "values") = true) : DocumentedForm p
  | listed {p rest : CString} {names : List CString} (hread : NamesRead p names rest)
      (hnodup : names.Nodup) (hvalues : ciStarts (skipWs rest) (lit "values") = true) :
      DocumentedForm (openParen :: p)

/-- A column belongs to a list of names exactly when its name does. -/
theorem mem_columnsNamed_iff {table : Table} {names : List CString} {cis : List (Fin maxColumns)}
    (h : List.Forall₂ (fun name ci => findColumn table name = some ci) names cis)
    {name : CString} {ci : Fin maxColumns} (hname : findColumn table name = some ci) :
    name ∈ names ↔ ci ∈ cis := by
  induction h with
  | nil => simp
  | @cons name' ci' names cis hcolumn hrest ih =>
      rw [List.mem_cons, List.mem_cons, ih]
      refine or_congr_left ?_
      constructor
      · rintro rfl
        exact Option.some.inj (hname.symm.trans hcolumn)
      · rintro rfl
        exact findColumn_inj hname hcolumn

/-- Different names are those of different columns. -/
theorem nodup_columnsNamed_iff {table : Table} {names : List CString}
    {cis : List (Fin maxColumns)}
    (h : List.Forall₂ (fun name ci => findColumn table name = some ci) names cis) :
    names.Nodup ↔ cis.Nodup := by
  induction h with
  | nil => simp
  | cons hcolumn hrest ih =>
      rw [List.nodup_cons, List.nodup_cons, mem_columnsNamed_iff hrest hcolumn, ih]

theorem nodup_naturalColumns (table : Table) : (naturalColumns table).items.Nodup := by
  have hpairs := CountedArray.pairwise_placesFrom (by simpa using table.columns.fits :
    0 + table.columns.items.length ≤ maxColumns)
  have hlt : (table.columns.places.map Prod.fst).Pairwise (· < ·) := List.pairwise_map.mpr hpairs
  exact hlt.imp ne_of_lt

/-! ## When the property holds -/

/-- Where only white space is skipped, `VALUES` stands behind it, and the other
way round. -/
theorem interpreted_iff {rest values : CString} (hfind : ciFind rest (lit "values") = some values) :
    (∃ blanks, (∀ c ∈ blanks, isSpace c = true) ∧ rest = blanks ++ values) ↔
      ciStarts (skipWs rest) (lit "values") = true := by
  have hstarts := (ciFind_spec hfind).1
  constructor
  · rintro ⟨blanks, hblanks, rfl⟩
    have hskip : skipWs blanks = [] := List.dropWhile_eq_nil_iff.mpr hblanks
    rw [skipWs_append_of_blank hskip, skipWs_of_ciStarts (by decide) hstarts]
    exact hstarts
  · intro hskip
    obtain rfl : skipWs rest = values :=
      Option.some.inj ((ciFind_skipWs (by decide) hskip).symm.trans hfind)
    exact ⟨rest.takeWhile isSpace, fun c hc => List.mem_takeWhile_imp hc,
      List.takeWhile_append_dropWhile.symm⟩

section Chosen

variable {table : Table} {p rest values : CString} {columns : List (Fin maxColumns)}

/-- Pairwise different columns with `VALUES` right behind them are of the
documented form. -/
theorem ColumnsChosen.documentedForm (h : ColumnsChosen table p columns rest)
    (hskip : skipWs p = p) (hnodup : columns.Nodup)
    (hvalues : ciStarts (skipWs rest) (lit "values") = true) : DocumentedForm p := by
  cases h with
  | listed hread =>
      obtain ⟨names, hnames, hcolumns⟩ := columnsRead_iff.mp hread
      exact .listed hnames ((nodup_columnsNamed_iff hcolumns).mpr hnodup) hvalues
  | natural hopen =>
      rw [hskip] at hvalues
      exact .natural hvalues

/-- In the documented form the columns are pairwise different, and `VALUES`
stands right behind them. -/
theorem ColumnsChosen.of_documentedForm (h : ColumnsChosen table p columns rest)
    (hform : DocumentedForm p) :
    columns.Nodup ∧ ciStarts (skipWs rest) (lit "values") = true := by
  cases hform with
  | natural hvalues =>
      cases h with
      | listed => exact absurd rfl (head?_of_ciStarts_values hvalues)
      | natural =>
          rw [skipWs_of_ciStarts (by decide) hvalues]
          exact ⟨nodup_naturalColumns table, hvalues⟩
  | listed hread hnodup hvalues =>
      cases h with
      | listed hread' =>
          obtain ⟨names, hnames, hcolumns⟩ := columnsRead_iff.mp hread'
          obtain ⟨rfl, rfl⟩ := hread.unique hnames
          exact ⟨(nodup_columnsNamed_iff hcolumns).mp hnodup, hvalues⟩
      | natural hopen => exact absurd rfl hopen

/-- With `VALUES` right behind the columns, a parenthesis that opens before it
opens the list that was read. -/
theorem ColumnsChosen.listed_of_parenthesis (h : ColumnsChosen table p columns rest)
    (hskip : skipWs p = p) (hfind : ciFind rest (lit "values") = some values)
    (hvalues : ciStarts (skipWs rest) (lit "values") = true) {before list : CString}
    (hsplit : p = before ++ openParen :: list) (hbefore : openParen ∉ before)
    (hlen : values.length ≤ list.length) : ∃ rest, ColumnsRead table list columns rest := by
  cases h with
  | listed hread =>
      cases before with
      | nil =>
          obtain ⟨-, rfl⟩ := List.cons.inj hsplit
          exact ⟨rest, hread⟩
      | cons c before =>
          obtain ⟨rfl, -⟩ := List.cons.inj hsplit
          exact absurd List.mem_cons_self hbefore
  | natural hopen =>
      -- `VALUES` is found at once, so nothing stands in front of it
      have hfound := ciFind_skipWs (by decide) hvalues
      have hvalues' : p = values := by
        rw [hskip] at hfound
        exact Option.some.inj (hfound.symm.trans hfind)
      have hboth := congrArg List.length hsplit
      rw [hvalues', List.length_append, List.length_cons] at hboth
      omega

end Chosen

theorem Reading.Of.skipWs_after {r : Reading} (hr : r.Of tables stmt) :
    skipWs r.target.after = r.target.after := by
  obtain ⟨-, -, after, -, -, -, hafter⟩ := insertTarget_eq_ok_iff.mp hr.target
  rw [hafter, skipWs_skipWs]

/-- For every accepted statement: its values go where the text says exactly when
the text behind the table's name has the documented form. -/
theorem valuesPlaced_iff {batch batch' : InsertBatch} {r : Reading}
    (h : parseInsertStatement tables stmt batch = .ok batch') (hr : r.Of tables stmt) :
    batch'.items = batch.items ++ r.rows ∧
      (r.ValuesPlaced ↔ DocumentedForm r.target.after) := by
  have hrows : batch'.items = batch.items ++ r.rows := by
    rcases parseInsertStatement_eq_ok_iff.mp h with ⟨hblank, -⟩ | ⟨r', hr', hitems⟩
    · exact absurd (hblank ▸ hr.target) (insertTarget_nil tables r.target)
    · rw [hr.unique hr', hitems]
  refine ⟨hrows, ?_, ?_⟩
  · intro hplaced
    have hvalues := (interpreted_iff hr.values).mp hplaced.interpreted
    exact hr.columns.documentedForm hr.skipWs_after hplaced.once hvalues
  · intro hform
    obtain ⟨hnodup, hvalues⟩ := hr.columns.of_documentedForm hform
    exact {
      interpreted := (interpreted_iff hr.values).mpr hvalues
      listed := fun before list hsplit hbefore hlen =>
        hr.columns.listed_of_parenthesis hr.skipWs_after hr.values hvalues hsplit hbefore hlen
      once := hnodup
      kept := fun cells hcells =>
        ⟨hr.counts cells hcells, fun k ci x hci hx => cell_storeAll hnodup hci hx⟩ }

/-! ## Two columns -/

/-- A column without constraints. -/
def freeColumn (name : CString) : Column :=
  ⟨snprintf name, snprintf (lit "TEXT"), false, false, false, snprintf [], snprintf []⟩

/-- A table `t` with the columns `a` and `b`. -/
def pairTable : Table :=
  ⟨snprintf (lit "t"), ⟨[freeColumn (lit "a"), freeColumn (lit "b")], by decide⟩, .empty⟩

def pairTables : Tables := ⟨[pairTable], by decide⟩

/-- The row of that table with the two values in `a` and `b`. -/
def pairRow (a b : CString) : InsertRow :=
  ⟨0, ((blankRow pairTable).store 0 ⟨snprintf a, false⟩).store 1 ⟨snprintf b, false⟩⟩

/-- The position behind the table's name, or the end where there is no table. -/
def afterName (tables : Tables) (p : CString) : CString :=
  match insertTarget tables p with
  | .ok target => target.after
  | _ => []

theorem Reading.Of.after_eq {r : Reading} (hr : r.Of tables stmt) :
    r.target.after = afterName tables (skipWs stmt) := by
  rw [afterName, hr.target]

/-- A statement in the documented form, its columns not in their natural order. -/
theorem listedPair_placed :
    ∃ r : Reading, r.Of pairTables (lit "INSERT INTO t (b, a) VALUES ('1', '2')") ∧
      r.rows = [pairRow (lit "2") (lit "1")] ∧ r.ValuesPlaced := by
  have hrun : parseInsertStatement pairTables
        (lit "INSERT INTO t (b, a) VALUES ('1', '2')") .empty =
          .ok ⟨[pairRow (lit "2") (lit "1")], by decide⟩ ∧
      skipWs (lit "INSERT INTO t (b, a) VALUES ('1', '2')") ≠ [] ∧
      afterName pairTables (skipWs (lit "INSERT INTO t (b, a) VALUES ('1', '2')")) =
        openParen :: lit "b, a) VALUES ('1', '2')" := by
    decide +kernel
  obtain ⟨hparse, hne, hafter⟩ := hrun
  have hb : parseIdentifier (lit "b, a) VALUES ('1', '2')") maxName =
      some (lit "b", lit ", a) VALUES ('1', '2')") := by decide +kernel
  have hcomma : skipWs (lit ", a) VALUES ('1', '2')") = comma :: lit " a) VALUES ('1', '2')" := by
    decide
  have ha : parseIdentifier (lit " a) VALUES ('1', '2')") maxName =
      some (lit "a", lit ") VALUES ('1', '2')") := by decide +kernel
  have hclose : skipWs (lit ") VALUES ('1', '2')") = closeParen :: lit " VALUES ('1', '2')" := by
    decide
  have hnames : NamesRead (lit "b, a) VALUES ('1', '2')") [lit "b", lit "a"]
      (lit " VALUES ('1', '2')") :=
    .name (by decide) hb hcomma (.last (by decide) ha hclose)
  rcases parseInsertStatement_eq_ok_iff.mp hparse with ⟨hblank, -⟩ | ⟨r, hr, -⟩
  · exact absurd hblank hne
  · obtain ⟨hrows, hplaced⟩ := valuesPlaced_iff hparse hr
    refine ⟨r, hr, by simpa using hrows.symm, hplaced.mpr ?_⟩
    rw [hr.after_eq, hafter]
    exact .listed hnames (by decide) (by decide +kernel)

/-- An alias in front of the list: the list is skipped, the values go to the
columns in their natural order. -/
theorem aliasedList_skipped :
    columnList pairTable (lit "t") .empty (lit "b, a) VALUES ('1', '2')") =
        .ok (⟨[1, 0], by decide⟩, lit " VALUES ('1', '2')") ∧
      parseInsertStatement pairTables (lit "INSERT INTO t AS x (b, a) VALUES ('1', '2')") .empty =
        .ok ⟨[pairRow (lit "1") (lit "2")], by decide⟩ ∧
      ∀ r : Reading, r.Of pairTables (lit "INSERT INTO t AS x (b, a) VALUES ('1', '2')") →
        ¬ r.ValuesPlaced := by
  have hrun : columnList pairTable (lit "t") .empty (lit "b, a) VALUES ('1', '2')") =
        .ok (⟨[1, 0], by decide⟩, lit " VALUES ('1', '2')") ∧
      parseInsertStatement pairTables (lit "INSERT INTO t AS x (b, a) VALUES ('1', '2')") .empty =
        .ok ⟨[pairRow (lit "1") (lit "2")], by decide⟩ ∧
      afterName pairTables (skipWs (lit "INSERT INTO t AS x (b, a) VALUES ('1', '2')")) =
        lit "AS x (b, a) VALUES ('1', '2')" := by
    decide +kernel
  obtain ⟨hlist, hparse, hafter⟩ := hrun
  refine ⟨hlist, hparse, fun r hr hplaced => ?_⟩
  have hvalues := (interpreted_iff hr.values).mp hplaced.interpreted
  have hform := hr.columns.documentedForm hr.skipWs_after hplaced.once hvalues
  rw [hr.after_eq, hafter] at hform
  generalize hp : lit "AS x (b, a) VALUES ('1', '2')" = p at hform
  cases hform with
  | natural hstarts =>
      rw [← hp] at hstarts
      exact absurd hstarts (by decide)
  | listed =>
      have hhead : (lit "AS x (b, a) VALUES ('1', '2')").head? = some openParen := by rw [hp]; rfl
      exact absurd hhead (by decide)

end SqlCodeGenerator
