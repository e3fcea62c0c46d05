import SqlCodeGenerator.LoadAtomicity

/-!
# What a successful load leaves

A document on which `load_er_json` succeeds, against the tables it leaves.  The
first `MAX_TABLES` entries become tables and their first `MAX_COLUMNS` entries
columns, in order; texts are cut to their buffers; and of the relations that name
a column the last one decides its reference.

* `loadErJson_ok_describes`: the correspondence, entry by entry.
* `longLoad_cut`: a document that does not fit is loaded in part.
-/

namespace SqlCodeGenerator

open Library

/-! ## Texts cut to buffers -/

/-- A name of the form `table.column`, cut to the buffer it is copied to and split
at its first dot, both halves cut to theirs. -/
def qualifiedNames (text : CString) : CString × CString :=
  let kept := text.take (maxName * 2 - 1)
  ((kept.takeWhile (· ≠ dot)).take (maxName - 1),
    ((kept.dropWhile (· ≠ dot)).drop 1).take (maxName - 1))

/-- The names in a pair of buffers. -/
def namesOf (names : CBuf maxName × CBuf maxName) : CString × CString :=
  (names.1.chars, names.2.chars)

theorem namesOf_splitQualified (text : CString) :
    namesOf (splitQualified (snprintf text : CBuf (maxName * 2)).chars) =
      qualifiedNames text := by
  unfold namesOf splitQualified qualifiedNames snprintf
  simp only
  split
  · next hdot =>
      have htake := List.takeWhile_append_dropWhile
        (p := fun c => decide (c ≠ dot)) (l := text.take (maxName * 2 - 1))
      rw [hdot, List.append_nil] at htake
      rw [hdot, htake]
      simp
  · next d right hdot =>
      rw [hdot]
      simp

/-! ## What relations change -/

/-- A table without its references: what no relation changes. -/
def Table.outline (table : Table) : CBuf maxName × List (CBuf maxName) × CountedArray Row maxRows :=
  (table.name, table.columns.items.map Column.name, table.rows)

/-- The same names and rows. -/
def SameOutline (tables tables' : Tables) : Prop :=
  tables.items.map Table.outline = tables'.items.map Table.outline

theorem SameOutline.getElem?_eq {tables tables' : Tables} (h : SameOutline tables tables')
    (i : Nat) : tables.items[i]?.map Table.outline = tables'.items[i]?.map Table.outline := by
  simpa using congrArg (fun outlines => outlines[i]?) h

/-- A relation finds its place by the names alone. -/
theorem SameOutline.relationPlace_eq {tables tables' : Tables} (h : SameOutline tables tables')
    (source : CBuf maxName × CBuf maxName) :
    relationPlace tables source = relationPlace tables' source := by
  have hfind : findTable tables source.1.chars = findTable tables' source.1.chars :=
    CountedArray.findPlace?_congr Table.outline
      (fun outline => decide (outline.1.chars = source.1.chars)) h
  unfold relationPlace
  rw [hfind]
  cases findTable tables' source.1.chars with
  | none => rfl
  | some ti =>
      have hget := h.getElem?_eq ti.val
      simp only [Option.bind_eq_bind, Option.bind_some]
      cases htable : tables.items[ti.val]? with
      | none =>
          rw [htable, Option.map_none, eq_comm, Option.map_eq_none_iff] at hget
          rw [hget]
      | some table =>
          rw [htable, Option.map_some, eq_comm, Option.map_eq_some_iff] at hget
          obtain ⟨table', htable', houtline⟩ := hget
          have hcolumn : findColumn table source.2.chars = findColumn table' source.2.chars :=
            CountedArray.findPlace?_congr Column.name
              (fun name => decide (name.chars = source.2.chars))
              (congrArg (fun outline => outline.2.1) houtline).symm
          rw [htable', Option.bind_some, Option.bind_some, hcolumn]

/-- The target of a relation, where the relation starts from the given column. -/
def targetFor (tables : Tables) (i : Fin maxTables) (c : Fin maxColumns)
    (relationJson : CJson) : Option (CBuf maxName × CBuf maxName) := do
  let (source, target) ← relationEnds relationJson
  if relationPlace tables source = some (i, c) then some target else none

/-- A column after a relation that may start from it. -/
def Column.after (column : Column) (target : Option (CBuf maxName × CBuf maxName)) : Column :=
  target.elim column column.refersTo

/-- A list in which an item is replaced by one with the same image has the same
images. -/
theorem map_set_of_eq {α β : Type} {f : α → β} {items : List α} {k : Nat} {x y : α}
    (hx : items[k]? = some x) (hy : f y = f x) : (items.set k y).map f = items.map f := by
  obtain ⟨hlen, rfl⟩ := List.getElem?_eq_some_iff.mp hx
  rw [List.map_set, hy, ← List.getElem_map f (h := by simpa using hlen), List.set_getElem_self]

/-- The write of the relation loop sets the reference of one column, and nothing
else. -/
theorem setReference_spec {tables : Tables} {ti : Fin maxTables} {ci : Fin maxColumns}
    {table : Table} {column : Column} (target : CBuf maxName × CBuf maxName)
    (htable : tables.items[ti.val]? = some table)
    (hcolumn : table.columns.items[ci.val]? = some column) :
    SameOutline tables (setReference tables ti ci target) ∧
      ∀ i c, columnAt (setReference tables ti ci target) i c =
        (columnAt tables i c).map fun col =>
          col.after (if (ti, ci) = (i, c) then some target else none) := by
  have htlen := (List.getElem?_eq_some_iff.mp htable).1
  have hclen := (List.getElem?_eq_some_iff.mp hcolumn).1
  have hset : setReference tables ti ci target = tables.set ti.val
      { table with columns := table.columns.set ci.val (column.refersTo target) } := by
    simp [setReference, htable, hcolumn]
  rw [hset]
  constructor
  · unfold SameOutline
    rw [CountedArray.items_set, map_set_of_eq htable]
    simp only [Table.outline, CountedArray.items_set, map_set_of_eq hcolumn
      (show (column.refersTo target).name = column.name from rfl)]
  · intro i c
    unfold columnAt
    rw [CountedArray.items_set, List.getElem?_set]
    -- the column written, another column of its table, a column of another table
    by_cases hi : ti = i
    · subst hi
      simp only [htlen, if_true, Option.bind_eq_bind, Option.bind_some, htable,
        CountedArray.items_set, List.getElem?_set, Prod.mk.injEq, true_and]
      by_cases hc : ci = c
      · subst hc
        rw [if_pos rfl, if_pos hclen, hcolumn]
        simp [Column.after]
      · have hval : ¬ ci.val = c.val := fun h => hc (Fin.ext h)
        simp [hc, hval, Column.after]
    · have hval : ¬ ti.val = i.val := fun h => hi (Fin.ext h)
      simp [hi, hval, Column.after]

theorem relationPlace_eq_some {tables : Tables} {source : CBuf maxName × CBuf maxName}
    {ti : Fin maxTables} {ci : Fin maxColumns}
    (h : relationPlace tables source = some (ti, ci)) :
    ∃ table column, tables.items[ti.val]? = some table ∧
      table.columns.items[ci.val]? = some column := by
  unfold relationPlace at h
  simp only [Option.bind_eq_bind, Option.bind_eq_some_iff, Option.some.injEq,
    Prod.mk.injEq] at h
  obtain ⟨ti', -, table, htable, ci', hfind, rfl, rfl⟩ := h
  obtain ⟨column, hcolumn, -⟩ := findColumn_eq_some hfind
  exact ⟨table, column, htable, hcolumn⟩

/-- One relation sets the reference of the column it starts from, and nothing
else. -/
theorem loadRelation_spec (tables : Tables) (relationJson : CJson) :
    SameOutline tables (loadRelation tables relationJson) ∧
      ∀ i c, columnAt (loadRelation tables relationJson) i c =
        (columnAt tables i c).map fun col => col.after (targetFor tables i c relationJson) := by
  have hsame : ∀ t : Tables, (∀ i c, targetFor tables i c relationJson = none) → t = tables →
      SameOutline tables t ∧ ∀ i c, columnAt t i c =
        (columnAt tables i c).map fun col => col.after (targetFor tables i c relationJson) := by
    rintro t hnone rfl
    refine ⟨rfl, fun i c => ?_⟩
    simp [hnone, Column.after]
  unfold loadRelation
  cases hends : relationEnds relationJson with
  | none => exact hsame _ (by simp [targetFor, hends]) rfl
  | some ends =>
      obtain ⟨source, target⟩ := ends
      cases hplace : relationPlace tables source with
      | none => exact hsame _ (by simp [targetFor, hends, hplace]) (by simp [hplace])
      | some place =>
          obtain ⟨ti, ci⟩ := place
          have htarget : ∀ i c, targetFor tables i c relationJson =
              if (ti, ci) = (i, c) then some target else none := by
            intro i c
            simp [targetFor, hends, hplace]
          obtain ⟨table, column, htable, hcolumn⟩ := relationPlace_eq_some hplace
          simp only [hplace, htarget]
          exact setReference_spec target htable hcolumn

/-- The target of the last relation that starts from the given column. -/
def lastTarget (tables : Tables) (relations : List CJson) (i : Fin maxTables)
    (c : Fin maxColumns) : Option (CBuf maxName × CBuf maxName) :=
  (relations.filterMap (targetFor tables i c)).getLast?

theorem lastTarget_append (tables : Tables) (relations : List CJson) (relationJson : CJson)
    (i : Fin maxTables) (c : Fin maxColumns) :
    lastTarget tables (relations ++ [relationJson]) i c =
      (targetFor tables i c relationJson).or (lastTarget tables relations i c) := by
  unfold lastTarget
  rw [List.filterMap_append]
  cases htarget : targetFor tables i c relationJson with
  | none => simp [htarget]
  | some target => simp [htarget]

theorem Column.after_or (column : Column) (target target' : Option (CBuf maxName × CBuf maxName)) :
    (column.after target').after target = column.after (target.or target') := by
  cases target with
  | none => rfl
  | some target => cases target' <;> rfl

/-- The relation loop: the last relation that starts from a column decides its
reference. -/
theorem foldl_loadRelation_spec (tables : Tables) (relations : List CJson) :
    SameOutline tables (relations.foldl loadRelation tables) ∧
      ∀ i c, columnAt (relations.foldl loadRelation tables) i c =
        (columnAt tables i c).map fun col => col.after (lastTarget tables relations i c) := by
  induction relations using List.reverseRecOn with
  | nil => exact ⟨rfl, fun i c => by simp [lastTarget, Column.after]⟩
  | append_singleton relations relationJson ih =>
      obtain ⟨hsame, hcolumns⟩ := ih
      obtain ⟨hsame', hcolumns'⟩ :=
        loadRelation_spec (relations.foldl loadRelation tables) relationJson
      rw [List.foldl_append, List.foldl_cons, List.foldl_nil]
      refine ⟨hsame.trans hsame', fun i c => ?_⟩
      -- the relations before have changed no name, so the last one starts where it did
      have htarget : targetFor (relations.foldl loadRelation tables) i c relationJson =
          targetFor tables i c relationJson := by
        simp only [targetFor, hsame.relationPlace_eq]
      rw [hcolumns', hcolumns, Option.map_map, lastTarget_append, htarget]
      refine congrArg (fun f => Option.map f _) (funext fun col => ?_)
      exact Column.after_or col _ _

/-- The entries of the `relations` array, if the document has one. -/
def relationsOf (root : CJson) : List CJson := (root.getArray (lit "relations")).getD []

theorem loadRelations_eq (tables : Tables) (root : CJson) :
    loadRelations tables root = (relationsOf root).foldl loadRelation tables := by
  unfold loadRelations relationsOf
  cases root.getArray (lit "relations") <;> rfl

/-! ## Documents and tables -/

/-- The two names at the ends of a relation, if it is an object with both. -/
def relationTexts (relationJson : CJson) :
    Option ((CString × CString) × (CString × CString)) :=
  if relationJson.isObject then do
    let source ← relationJson.getString (lit "from")
    let target ← relationJson.getString (lit "to")
    some (qualifiedNames source, qualifiedNames target)
  else
    none

/-- The column that a pair of names stands for: `find_table`, then `find_column`. -/
def placeNamed (tables : Tables) (names : CString × CString) :
    Option (Fin maxTables × Fin maxColumns) := do
  let ti ← findTable tables names.1
  let table ← tables.items[ti.val]?
  let ci ← findColumn table names.2
  some (ti, ci)

/-- The names in the last relation that starts from the given column. -/
def relationAt (tables : Tables) (relations : List CJson) (i : Fin maxTables)
    (c : Fin maxColumns) : Option (CString × CString) :=
  (relations.filterMap fun relationJson => do
    let (source, target) ← relationTexts relationJson
    if placeNamed tables source = some (i, c) then some target else none).getLast?

/-- A column is the one an entry of a `columns` array describes, where the last
relation that starts from it says `relation`. -/
structure DescribesColumn (entry : CJson) (column : Column)
    (relation : Option (CString × CString)) : Prop where
  name : ∃ name, entry.getString (lit "name") = some name ∧
    column.name.chars = name.take (maxName - 1)
  type : column.type.chars =
    ((entry.getString (lit "type")).getD (lit "TEXT")).take (maxType - 1)
  primaryKey : column.primaryKey = cjsonGetBool entry (lit "primary_key")
  unique : column.unique = cjsonGetBool entry (lit "unique")
  notNull : column.notNull =
    (cjsonGetBool entry (lit "not_null") || cjsonGetBool entry (lit "primary_key"))
  reference : (column.refTable.chars, column.refColumn.chars) =
    relation.getD ((entry.getString (lit "references")).elim ([], []) qualifiedNames)

/-- A table is the one an entry of the `tables` array describes: cut to
`MAX_COLUMNS` columns, and without rows. -/
structure DescribesTable (entry : CJson) (table : Table)
    (relation : Fin maxColumns → Option (CString × CString)) : Prop where
  name : ∃ name, entry.getString (lit "name") = some name ∧
    table.name.chars = name.take (maxName - 1)
  columns : ∃ columnEntries, entry.getArray (lit "columns") = some columnEntries ∧
    table.columns.count = min columnEntries.length maxColumns ∧
    ∀ (c : Fin maxColumns) columnEntry column, columnEntries[c.val]? = some columnEntry →
      table.columns.items[c.val]? = some column →
      DescribesColumn columnEntry column (relation c)
  rows : table.rows = .empty

theorem cjsonCopyString_eq_some {size : Nat} [NeZero size] {object : CJson} {key : CString}
    {buffer : CBuf size} (h : cjsonCopyString object key = some buffer) :
    ∃ text, object.getString key = some text ∧ buffer.chars = text.take (size - 1) := by
  unfold cjsonCopyString at h
  obtain ⟨text, htext, rfl⟩ := Option.map_eq_some_iff.mp h
  exact ⟨text, htext, rfl⟩

/-- The reference that a column entry states itself. -/
theorem namesOf_loadReference (entry : CJson) :
    namesOf (loadReference entry) =
      (entry.getString (lit "references")).elim ([], []) qualifiedNames := by
  unfold loadReference cjsonCopyString
  cases entry.getString (lit "references") with
  | none => rfl
  | some text => exact namesOf_splitQualified text

/-- A column as loaded, before any relation. -/
theorem loadColumnEntry_describes {entry : CJson} {column : Column}
    (h : loadColumnEntry entry = .ok column) : DescribesColumn entry column none := by
  unfold loadColumnEntry at h
  split at h
  · cases h
  · unfold loadColumnJson at h
    split at h
    · cases h
    · next name hname =>
        obtain rfl := Except.ok.inj h
        refine ⟨cjsonCopyString_eq_some hname, ?_, rfl, rfl, rfl, namesOf_loadReference entry⟩
        unfold cjsonCopyString
        cases entry.getString (lit "type") <;> rfl

theorem snprintf_chars {size : Nat} [NeZero size] (buffer : CBuf size) :
    (snprintf buffer.chars : CBuf size) = buffer := by
  refine CBuf.ext (List.take_of_length_le ?_)
  have := buffer.fits
  omega

/-- A relation changes the reference of a column to its target. -/
theorem DescribesColumn.after {entry : CJson} {column : Column}
    (h : DescribesColumn entry column none) (target : Option (CBuf maxName × CBuf maxName)) :
    DescribesColumn entry (column.after target) (target.map namesOf) := by
  cases target with
  | none => exact h
  | some target =>
      refine ⟨h.name, h.type, h.primaryKey, h.unique, h.notNull, ?_⟩
      simp [Column.after, Column.refersTo, namesOf, snprintf_chars]

theorem relationTexts_eq (relationJson : CJson) :
    relationTexts relationJson =
      (relationEnds relationJson).map fun ends => (namesOf ends.1, namesOf ends.2) := by
  unfold relationTexts relationEnds cjsonCopyString
  cases relationJson.isObject with
  | false => rfl
  | true =>
      cases relationJson.getString (lit "from") with
      | none => rfl
      | some source =>
          cases relationJson.getString (lit "to") with
          | none => rfl
          | some target =>
              have hsource := namesOf_splitQualified source
              have htarget := namesOf_splitQualified target
              simpa using ⟨hsource.symm, htarget.symm⟩

/-- The last relation, in the names of the document and as the loop reads it. -/
theorem relationAt_eq {tables tables' : Tables} (h : SameOutline tables tables')
    (relations : List CJson) (i : Fin maxTables) (c : Fin maxColumns) :
    relationAt tables' relations i c = (lastTarget tables relations i c).map namesOf := by
  unfold relationAt lastTarget
  rw [← List.getLast?_map, List.map_filterMap]
  congr 1
  refine List.filterMap_congr fun relationJson _ => ?_
  unfold targetFor
  rw [relationTexts_eq]
  cases relationEnds relationJson with
  | none => rfl
  | some ends =>
      obtain ⟨source, target⟩ := ends
      have hplace : placeNamed tables' (namesOf source) = relationPlace tables source :=
        (h.relationPlace_eq source).symm
      simp only [Option.map_some, Option.bind_eq_bind, Option.bind_some, hplace]
      split <;> rfl

/-- A column behind the relation loop is a column before it, with the reference of
the last relation that starts from it. -/
theorem column_before {tables : Tables} {relations : List CJson} {i : Fin maxTables}
    {c : Fin maxColumns} {table table' : Table} {column' : Column}
    (htable : tables.items[i.val]? = some table)
    (htable' : (relations.foldl loadRelation tables).items[i.val]? = some table')
    (hcolumn' : table'.columns.items[c.val]? = some column') :
    ∃ column, table.columns.items[c.val]? = some column ∧
      column' = column.after (lastTarget tables relations i c) := by
  have hcolumns := (foldl_loadRelation_spec tables relations).2 i c
  rw [columnAt_eq_some htable' hcolumn', eq_comm, Option.map_eq_some_iff] at hcolumns
  obtain ⟨column, hcolumn, hsame⟩ := hcolumns
  exact ⟨column, by simpa [columnAt, htable] using hcolumn, hsame.symm⟩

/-- An entry of the `tables` array, against its table behind the relation loop. -/
theorem loadTableJson_describes {entry : CJson} {tables : Tables} {relations : List CJson}
    {i : Fin maxTables} {table table' : Table} (hentry : loadTableJson entry = .ok table)
    (htable : tables.items[i.val]? = some table)
    (htable' : (relations.foldl loadRelation tables).items[i.val]? = some table') :
    DescribesTable entry table'
      (relationAt (relations.foldl loadRelation tables) relations i) := by
  obtain ⟨-, hname, ⟨columnEntries, hcolumnEntries, hcolumns⟩, -, hrows⟩ :=
    loadTableJson_eq_ok_iff.mp hentry
  have hsame := (foldl_loadRelation_spec tables relations).1
  have houtline := hsame.getElem?_eq i.val
  rw [htable, htable', Option.map_some, Option.map_some, Option.some.injEq] at houtline
  have hlen : table'.columns.items.length = table.columns.items.length := by
    simpa [Table.outline] using (congrArg (fun outline => outline.2.1.length) houtline).symm
  refine ⟨?_, ⟨columnEntries, hcolumnEntries, ?_, ?_⟩, ?_⟩
  · rw [← show table.name = table'.name from congrArg Prod.fst houtline]
    exact cjsonCopyString_eq_some hname
  · rw [CountedArray.count, hlen, ← hcolumns.length_eq, List.length_take, Nat.min_comm]
  · intro c columnEntry column' hcolumnEntry hcolumn'
    obtain ⟨column, hcolumn, rfl⟩ := column_before htable htable' hcolumn'
    rw [relationAt_eq hsame]
    refine (loadColumnEntry_describes ?_).after _
    exact hcolumns.read_eq (by rw [List.getElem?_take_of_lt c.isLt]; exact hcolumnEntry) hcolumn
  · rw [← show table.rows = table'.rows from congrArg (fun outline => outline.2.2) houtline]
    exact hrows

/-- After a successful load the tables are those of the document, entry by entry:
its first `MAX_TABLES` tables with their first `MAX_COLUMNS` columns. -/
theorem loadErJson_ok_describes {cjsonParse : List UInt8 → Option CJson} {state : SharedState}
    {file : ErFile} {text : CString} (hok : (loadErJson cjsonParse state file).2 = .ok text) :
    ∃ root entries tables, tableEntries cjsonParse file = some (root, entries) ∧
      (loadErJson cjsonParse state file).1 = { state with tables := tables } ∧
      tables.count = min entries.length maxTables ∧
      ∀ (i : Fin maxTables) entry table, entries[i.val]? = some entry →
        tables.items[i.val]? = some table →
        DescribesTable entry table (relationAt tables (relationsOf root) i) := by
  cases hentries : tableEntries cjsonParse file with
  | none =>
      obtain ⟨message, hload⟩ := loadErJson_of_no_entries state hentries
      rw [hload] at hok
      cases hok
  | some found =>
      obtain ⟨root, entries⟩ := found
      rw [loadErJson_of_entries state hentries] at hok ⊢
      unfold loadEntries at hok ⊢
      split
      · next hload =>
          rw [hload] at hok
          cases hok
      · next tables hload =>
          have hloaded := loadTables_empty_eq_ok_iff.mp hload
          have hsame := (foldl_loadRelation_spec tables (relationsOf root)).1
          have hcount : (loadRelations tables root).count = tables.count := by
            rw [loadRelations_eq]
            simpa [CountedArray.count] using (congrArg List.length hsame).symm
          refine ⟨root, entries, loadRelations tables root, rfl, rfl, ?_, ?_⟩
          · rw [hcount, CountedArray.count, ← hloaded.length_eq, List.length_take, Nat.min_comm]
          · intro i entry table' hentry htable'
            rw [loadRelations_eq] at htable' ⊢
            have hget := hsame.getElem?_eq i.val
            rw [htable', Option.map_some, Option.map_eq_some_iff] at hget
            obtain ⟨table, htable, -⟩ := hget
            refine loadTableJson_describes ?_ htable htable'
            exact hloaded.read_eq (by rw [List.getElem?_take_of_lt i.isLt]; exact hentry) htable

/-- The sample document, entry by entry. -/
theorem sampleLoad_describes :
    ∃ root entries tables, tableEntries sampleParse (.holding sampleText) = some (root, entries) ∧
      (loadErJson sampleParse (stateInit 0) (.holding sampleText)).1 =
        { stateInit 0 with tables := tables } ∧
      tables.count = min entries.length maxTables ∧
      ∀ (i : Fin maxTables) entry table, entries[i.val]? = some entry →
        tables.items[i.val]? = some table →
        DescribesTable entry table (relationAt tables (relationsOf root) i) := by
  have hok : (loadErJson sampleParse (stateInit 0) (.holding sampleText)).2 =
      .ok (lit "loaded 2 tables") := by
    decide +kernel
  exact loadErJson_ok_describes hok

/-! ### A document with one table too many -/

/-- The text of an entry of the `tables` array. -/
def entryText : List UInt8 :=
  (lit "\x7b\"name\":\"t\",\"columns\":[\x7b\"name\":\"a\"\x7d]\x7d").map Subtype.val

/-- The text of a document with 33 tables. -/
def longText : List UInt8 :=
  (lit "\x7b\"tables\":[").map Subtype.val ++
    (List.replicate 32 (entryText ++ (lit ",").map Subtype.val)).flatten ++ entryText ++
    (lit "]\x7d").map Subtype.val

/-- The entries of its `tables` array. -/
def longEntries : List CJson :=
  List.replicate 33 (.object [(lit "name", .string (lit "t")),
    (lit "columns", .array [.object [(lit "name", .string (lit "a"))]])])

/-- The answer of cJSON on that text. -/
def longParse (json : List UInt8) : Option CJson :=
  if json = longText then some (.object [(lit "tables", .array longEntries)]) else none

/-- The document has 33 tables; the load succeeds and leaves 32. -/
theorem longLoad_cut :
    longEntries.length = 33 ∧
    (loadErJson longParse (stateInit 0) (.holding longText)).2 =
      .ok (lit "loaded 32 tables") ∧
    (loadErJson longParse (stateInit 0) (.holding longText)).1.tables.count = 32 := by
  decide +kernel

end SqlCodeGenerator
