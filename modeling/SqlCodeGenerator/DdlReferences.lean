import SqlCodeGenerator.DdlRendering
import SqlCodeGenerator.LoadDerivations
import SqlCodeGenerator.Library.Blocks

/-!
# The references of the DDL

`generate_sql` prints the tables in the order of the document, and the reference
of every column as it was loaded.  Nothing looks at the reference: the table it
names may be printed later, or nowhere, and the column may be the empty text.

`referencesDeclared_iff`: the clauses `REFERENCES` name what is already declared
exactly when the references of the loaded schema do.
-/

namespace SqlCodeGenerator

open Library

/-! ## What a printed clause names -/

/-- Before place `k` of the pieces the statement `CREATE TABLE name` begins, and
it declares the column. -/
def DeclaredBefore (pieces : List DdlPiece) (k : Nat) (name columnName : CString) : Prop :=
  ∃ start body rest, start < k ∧
    pieces.drop start = .createTable name :: (body ++ .endTable :: rest) ∧
    .endTable ∉ body ∧ ∃ type, .column columnName type ∈ body

/-- Every clause `REFERENCES` names a column, not the empty text, of a table
declared earlier or of the table it stands in. -/
def ReferencesDeclared (pieces : List DdlPiece) : Prop :=
  ∀ k name columnName, pieces[k]? = some (.references name columnName) →
    columnName ≠ [] ∧ DeclaredBefore pieces k name columnName

/-- The reference of every column names a column, not the empty text, of a table
that stands in the schema at the same or an earlier place. -/
def OrderedReferences (tables : Tables) : Prop :=
  ∀ (i : Nat) (t : Table) (c : Column), tables.items[i]? = some t → c ∈ t.columns.items →
    c.refTable.chars ≠ [] →
    c.refColumn.chars ≠ [] ∧ ∃ j, j ≤ i ∧ ∃ target, tables.items[j]? = some target ∧
      target.name.chars = c.refTable.chars ∧
      ∃ d ∈ target.columns.items, d.name.chars = c.refColumn.chars

/-! ## The pieces of a table -/

/-- A piece printed for the columns that satisfy `P`, wherever they stand, is
printed when one of the columns of a table does. -/
theorem mem_columnsPieces_iff {piece : DdlPiece} {P : Column → Prop}
    (h : ∀ c last, piece ∈ columnPieces c last ↔ P c) (columns : List Column) :
    piece ∈ columnsPieces columns ↔ ∃ c ∈ columns, P c := by
  induction columns with
  | nil => simp [columnsPieces]
  | cons c rest ih => simp [columnsPieces, h, ih]

/-- The clauses of a column hold its reference, if it has one, and the flags. -/
theorem mem_clausePieces_iff {piece : DdlPiece} {c : Column} :
    piece ∈ clausePieces c ↔
      (c.primaryKey = true ∧ piece = .primaryKey) ∨
      ((c.notNull && !c.primaryKey) = true ∧ piece = .notNull) ∨
      ((c.unique && !c.primaryKey) = true ∧ piece = .unique) ∨
      (c.refTable.chars ≠ [] ∧ piece = .references c.refTable.chars c.refColumn.chars) := by
  unfold clausePieces
  simp only [List.mem_append, List.mem_ite_nil_right, List.mem_singleton, or_assoc]

theorem references_mem_columnPieces {name columnName : CString} (c : Column) (last : Bool) :
    .references name columnName ∈ columnPieces c last ↔
      c.refTable.chars ≠ [] ∧ name = c.refTable.chars ∧ columnName = c.refColumn.chars := by
  unfold columnPieces
  simp [mem_clausePieces_iff]

theorem column_mem_columnPieces {name type : CString} (c : Column) (last : Bool) :
    .column name type ∈ columnPieces c last ↔ name = c.name.chars ∧ type = c.type.chars := by
  unfold columnPieces
  simp [mem_clausePieces_iff]

theorem endTable_notMem_columnsPieces (columns : List Column) :
    .endTable ∉ columnsPieces columns := by
  rw [mem_columnsPieces_iff (P := fun _ => False)
    (fun c last => by simp [columnPieces, mem_clausePieces_iff])]
  simp

theorem createTable_notMem_columnsPieces {name : CString} (columns : List Column) :
    .createTable name ∉ columnsPieces columns := by
  rw [mem_columnsPieces_iff (P := fun _ => False)
    (fun c last => by simp [columnPieces, mem_clausePieces_iff])]
  simp

/-- The clause of a reference stands behind the first piece of its table. -/
theorem references_at_tablePieces {t : Table} {m : Nat} {name columnName : CString}
    (h : (tablePieces t)[m]? = some (.references name columnName)) :
    0 < m ∧ ∃ c ∈ t.columns.items, c.refTable.chars ≠ [] ∧ name = c.refTable.chars ∧
      columnName = c.refColumn.chars := by
  cases m with
  | zero => simp [tablePieces] at h
  | succ m =>
      have hmem : DdlPiece.references name columnName ∈
          columnsPieces t.columns.items ++ [.endTable] := List.mem_of_getElem? h
      rw [List.mem_append, mem_columnsPieces_iff references_mem_columnPieces] at hmem
      exact ⟨Nat.succ_pos m, hmem.resolve_right (by simp)⟩

/-- Every reference of a table has a clause among its pieces. -/
theorem exists_references_at_tablePieces {t : Table} {c : Column} (hc : c ∈ t.columns.items)
    (href : c.refTable.chars ≠ []) :
    ∃ m : Nat,
      (tablePieces t)[m]? = some (DdlPiece.references c.refTable.chars c.refColumn.chars) := by
  rw [← List.mem_iff_getElem?, tablePieces, List.mem_cons, List.mem_append,
    mem_columnsPieces_iff references_mem_columnPieces]
  exact Or.inr (Or.inl ⟨c, hc, href, rfl, rfl⟩)

/-- The name of a table is announced in its first piece only. -/
theorem createTable_at_tablePieces {t : Table} {m : Nat} {name : CString}
    (h : (tablePieces t)[m]? = some (.createTable name)) : m = 0 ∧ t.name.chars = name := by
  cases m with
  | zero => simpa [tablePieces] using h
  | succ m =>
      have hmem : DdlPiece.createTable name ∈ columnsPieces t.columns.items ++ [.endTable] :=
        List.mem_of_getElem? h
      rw [List.mem_append] at hmem
      rcases hmem with hmem | hmem
      · exact absurd hmem (createTable_notMem_columnsPieces _)
      · simp at hmem

/-! ## Declarations, in the pieces and in the schema -/

/-- What is declared before a place inside the statement of a table is a column of
a table at the same or an earlier place. -/
theorem declaredBefore_iff {tables : Tables} {i m : Nat} {t : Table} {name columnName : CString}
    (ht : tables.items[i]? = some t) (hm : m < (tablePieces t).length) (hpos : 0 < m) :
    DeclaredBefore (ddlPieces tables) (blockStart tablePieces tables.items i + m) name columnName ↔
      ∃ j, j ≤ i ∧ ∃ target, tables.items[j]? = some target ∧ target.name.chars = name ∧
        ∃ d ∈ target.columns.items, d.name.chars = columnName := by
  have hcolumn : ∀ target : Table, (∃ type, .column columnName type ∈
      columnsPieces target.columns.items) ↔
      ∃ d ∈ target.columns.items, d.name.chars = columnName := by
    intro target
    constructor
    · rintro ⟨type, htype⟩
      obtain ⟨d, hd, hname, -⟩ := (mem_columnsPieces_iff column_mem_columnPieces _).mp htype
      exact ⟨d, hd, hname.symm⟩
    · rintro ⟨d, hd, rfl⟩
      exact ⟨d.type.chars, (mem_columnsPieces_iff column_mem_columnPieces _).mpr
        ⟨d, hd, rfl, rfl⟩⟩
  constructor
  · rintro ⟨start, body, rest, hstart, hdrop, hbody, hdeclared⟩
    have hfirst : (ddlPieces tables)[start]? = some (.createTable name) := by
      rw [← List.head?_drop, hdrop, List.head?_cons]
    obtain ⟨j, target, place, htarget, hplace, rfl⟩ := getElem?_flatMap_eq_some_iff.mp hfirst
    obtain ⟨rfl, hname⟩ := createTable_at_tablePieces hplace
    rw [Nat.add_zero] at hstart hdrop
    -- the statement found is that of the table
    rw [ddlPieces, drop_blockStart htarget, tablePieces, List.cons_append, List.append_assoc,
      List.singleton_append, List.cons.injEq] at hdrop
    rw [← upTo_unique (endTable_notMem_columnsPieces _) hbody hdrop.2, hcolumn] at hdeclared
    exact ⟨j, (blockStart_lt_iff ht hm hpos).mp hstart, target, htarget, hname, hdeclared⟩
  · rintro ⟨j, hj, target, htarget, rfl, hdeclared⟩
    refine ⟨blockStart tablePieces tables.items j, columnsPieces target.columns.items,
      (tables.items.drop (j + 1)).flatMap tablePieces, (blockStart_lt_iff ht hm hpos).mpr hj, ?_,
      endTable_notMem_columnsPieces _, (hcolumn target).mpr hdeclared⟩
    rw [ddlPieces, drop_blockStart htarget, tablePieces, List.cons_append, List.append_assoc,
      List.singleton_append]

/-- The clauses `REFERENCES` printed name what is already declared exactly when
the references of the schema do. -/
theorem referencesDeclared_iff (tables : Tables) :
    ReferencesDeclared (ddlPieces tables) ↔ OrderedReferences tables := by
  constructor
  · intro h i t c ht hc href
    obtain ⟨m, hm⟩ := exists_references_at_tablePieces hc href
    obtain ⟨hpos, -⟩ := references_at_tablePieces hm
    obtain ⟨hne, hdeclared⟩ := h _ _ _ (getElem?_flatMap_eq_some_iff.mpr ⟨i, t, m, ht, hm, rfl⟩)
    have hlt : m < (tablePieces t).length := (List.getElem?_eq_some_iff.mp hm).1
    exact ⟨hne, (declaredBefore_iff ht hlt hpos).mp hdeclared⟩
  · intro h k name columnName hk
    obtain ⟨i, t, m, ht, hm, rfl⟩ := getElem?_flatMap_eq_some_iff.mp hk
    obtain ⟨hpos, c, hc, href, rfl, rfl⟩ := references_at_tablePieces hm
    have hlt : m < (tablePieces t).length := (List.getElem?_eq_some_iff.mp hm).1
    obtain ⟨hne, hdeclared⟩ := h i t c ht hc href
    exact ⟨hne, (declaredBefore_iff ht hlt hpos).mpr hdeclared⟩

/-- What `generate_sql` prints is the text of the pieces, cut to its buffer, and
their clauses `REFERENCES` name what is already declared exactly when the
references of the schema do. -/
theorem generateSql_references (tables : Tables) (outLen : Nat) :
    generateSql tables outLen = (ddl tables).take (outLen - 1) ∧
      (ReferencesDeclared (ddlPieces tables) ↔ OrderedReferences tables) :=
  ⟨generateSql_eq tables outLen, referencesDeclared_iff tables⟩

/-! ### A reference to a table printed later -/

/-- The text of a document with the tables `orders(id, customer)` and
`customers(id)`, the first of which refers to the second. -/
def forwardText : List UInt8 :=
  (lit "\x7b\"tables\":[\x7b\"name\":\"orders\",\"columns\":[" ++
    lit "\x7b\"name\":\"id\",\"type\":\"INT\",\"primary_key\":true\x7d," ++
    lit "\x7b\"name\":\"customer\",\"type\":\"INT\",\"references\":\"customers.id\"\x7d]\x7d," ++
    lit "\x7b\"name\":\"customers\",\"columns\":[" ++
    lit "\x7b\"name\":\"id\",\"type\":\"INT\",\"primary_key\":true\x7d]\x7d]\x7d").map Subtype.val

def forwardDocument : CJson :=
  let id : CJson := .object [(lit "name", .string (lit "id")), (lit "type", .string (lit "INT")),
    (lit "primary_key", .bool true)]
  .object [(lit "tables", .array [
    .object [(lit "name", .string (lit "orders")), (lit "columns", .array [id,
      .object [(lit "name", .string (lit "customer")), (lit "type", .string (lit "INT")),
        (lit "references", .string (lit "customers.id"))]])],
    .object [(lit "name", .string (lit "customers")), (lit "columns", .array [id])]])]

/-- The answer of cJSON on that text. -/
def forwardParse (json : List UInt8) : Option CJson :=
  if json = forwardText then some forwardDocument else none

/-- The document loads, and the clause printed for `orders.customer` names a table
whose statement has not begun. -/
theorem forwardLoad_not_declared :
    (loadErJson forwardParse (stateInit 0) (.holding forwardText)).2 =
        .ok (lit "loaded 2 tables") ∧
      ¬ ReferencesDeclared
        (ddlPieces (loadErJson forwardParse (stateInit 0) (.holding forwardText)).1.tables) := by
  have hloaded : (loadErJson forwardParse (stateInit 0) (.holding forwardText)).2 =
        .ok (lit "loaded 2 tables") ∧
      (ddlPieces (loadErJson forwardParse (stateInit 0) (.holding forwardText)).1.tables)[5]? =
        some (.references (lit "customers") (lit "id")) ∧
      .createTable (lit "customers") ∉
        (ddlPieces (loadErJson forwardParse (stateInit 0)
          (.holding forwardText)).1.tables).take 5 := by
    decide +kernel
  generalize loadErJson forwardParse (stateInit 0) (.holding forwardText) = loaded at hloaded
  obtain ⟨hok, hclause, hnone⟩ := hloaded
  refine ⟨hok, fun h => ?_⟩
  obtain ⟨-, start, body, rest, hstart, hdrop, -⟩ := h _ _ _ hclause
  have hfirst : (ddlPieces loaded.1.tables)[start]? = some (.createTable (lit "customers")) := by
    rw [← List.head?_drop, hdrop, List.head?_cons]
  refine hnone (List.mem_of_getElem? (i := start) ?_)
  rwa [List.getElem?_take_of_lt hstart]

end SqlCodeGenerator
