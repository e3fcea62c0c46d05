import SqlCodeGenerator.DdlRendering
import SqlCodeGenerator.RowCapacity
import SqlCodeGenerator.ValidatorAgreement
import SqlCodeGenerator.Library.Blocks
import SqlCodeGenerator.Library.Keywords

/-!
# What the DDL says and what the validator enforces

The validator looks at the names, the flags and the references of the loaded
columns; `generate_sql` prints these together with the names and types of the
document, which it pastes as they are.  So the constraints can be read back from
the text as long as no name and no type looks like a part of the DDL.

* `Table.enforced`: what the validator uses of a table;
* `enforced_of_ddl_eq`: schemas of plain names and types with the same rendering
  agree in it;
* `validateInsertBatch_of_enforced`: then the validator accepts the same batches.
-/

namespace SqlCodeGenerator

open Library

/-! ## What the validator uses of a schema -/

/-- What the validator uses of a column. -/
structure EnforcedColumn where
  name : CBuf maxName
  required : Bool
  unique : Bool
  reference : Option (CString × CString)

/-- The name of a column and its constraints, as the validator enforces them. -/
def Column.enforced (c : Column) : EnforcedColumn where
  name := c.name
  required := c.notNull || c.primaryKey
  unique := c.primaryKey || c.unique
  reference := if c.refTable.chars = [] then none else some (c.refTable.chars, c.refColumn.chars)

/-- The name of a table and its columns, as the validator uses them. -/
def Table.enforced (t : Table) : CBuf maxName × List EnforcedColumn :=
  (t.name, t.columns.items.map Column.enforced)

/-- Two schemas of which the validator uses the same. -/
def SameEnforced (tables tables' : Tables) : Prop :=
  tables.items.map Table.enforced = tables'.items.map Table.enforced

namespace SameEnforced

variable {tables tables' : Tables}

theorem names (h : SameEnforced tables tables') : SameNames tables tables' := by
  have hnames := congrArg
    (List.map fun e : CBuf maxName × List EnforcedColumn => (e.1, e.2.map EnforcedColumn.name)) h
  rw [List.map_map, List.map_map] at hnames
  have htable : (fun e : CBuf maxName × List EnforcedColumn =>
      (e.1, e.2.map EnforcedColumn.name)) ∘ Table.enforced = Table.names := by
    funext t
    simp only [Function.comp_apply, Table.enforced, Table.names, List.map_map]
    rfl
  rwa [htable] at hnames

/-- The columns at the same place are used alike. -/
theorem columnAt_eq (h : SameEnforced tables tables') (i : Fin maxTables) (c : Fin maxColumns) :
    (columnAt tables i c).map Column.enforced = (columnAt tables' i c).map Column.enforced := by
  have hcolumns : ∀ t : Tables, (columnAt t i c).map Column.enforced =
      ((t.items.map Table.enforced)[i.val]?).bind fun e => e.2[c.val]? := by
    intro t
    unfold columnAt
    rw [List.getElem?_map]
    cases t.items[i.val]? with
    | none => rfl
    | some table => simp [Table.enforced]
  rw [hcolumns, hcolumns, h]

/-- A column at a place of one schema has a counterpart in the other. -/
theorem exists_columnAt (h : SameEnforced tables tables') {i : Fin maxTables}
    {c : Fin maxColumns} {col : Column} (hcol : columnAt tables' i c = some col) :
    ∃ col', columnAt tables i c = some col' ∧ col'.enforced = col.enforced := by
  have hsame := h.columnAt_eq i c
  rw [hcol, Option.map_some, Option.map_eq_some_iff] at hsame
  exact hsame

end SameEnforced

/-- References resolve by names alone. -/
theorem SameNames.resolve_eq {tables tables' : Tables} (h : SameNames tables tables')
    {col col' : Column} (htable : col.refTable.chars = col'.refTable.chars)
    (hcolumn : col.refColumn.chars = col'.refColumn.chars) :
    resolve tables col = resolve tables' col' := by
  unfold resolve
  rw [← htable, ← hcolumn, ← h.findTable_eq]
  cases findTable tables col.refTable.chars with
  | none => rfl
  | some rt =>
      have hget := h.getElem?_eq rt.val
      cases htarget : tables.items[rt.val]? with
      | none =>
          rw [htarget, Option.map_none, eq_comm, Option.map_eq_none_iff] at hget
          simp [htarget, hget]
      | some target =>
          rw [htarget, Option.map_some, eq_comm, Option.map_eq_some_iff] at hget
          obtain ⟨target', htarget', hnames⟩ := hget
          have hfind := findColumn_congr (congrArg Prod.snd hnames) col.refColumn.chars
          simp only [Option.bind_eq_bind, Option.bind_some, htarget, htarget', hfind]

/-- The reference of a column that has one, as the validator uses it. -/
theorem Column.enforced_reference_eq_iff {c c' : Column}
    (h : c.enforced.reference = c'.enforced.reference) (hne : c.refTable.chars ≠ []) :
    c.refTable.chars = c'.refTable.chars ∧ c.refColumn.chars = c'.refColumn.chars := by
  unfold Column.enforced at h
  simp only [hne, if_false] at h
  split at h
  · cases h
  · rw [Option.some.injEq, Prod.mk.injEq] at h
    exact h

theorem Column.refTable_ne_nil_iff {c c' : Column}
    (h : c.enforced.reference = c'.enforced.reference) :
    c.refTable.chars ≠ [] ↔ c'.refTable.chars ≠ [] := by
  unfold Column.enforced at h
  by_cases hc : c.refTable.chars = [] <;> by_cases hc' : c'.refTable.chars = [] <;> simp_all

/-- A row that one schema admits, a schema used alike admits. -/
theorem SameEnforced.admissible {tables tables' : Tables} (h : SameEnforced tables tables')
    {contents : Fin maxTables → List (Fin maxColumns → Option CString)}
    {x : Fin maxTables × (Fin maxColumns → Option CString)}
    (hx : (schemaOf tables).Admissible contents x) :
    (schemaOf tables').Admissible contents x := by
  refine Schema.Admissible.weaken ?_ ?_ ?_ hx
  · rintro i c ⟨col, hcol, hflag⟩
    obtain ⟨col', hcol', hsame⟩ := h.exists_columnAt hcol
    exact ⟨col', hcol', (congrArg EnforcedColumn.unique hsame).trans hflag⟩
  · rintro i c ⟨col, hcol, hflag⟩
    obtain ⟨col', hcol', hsame⟩ := h.exists_columnAt hcol
    exact ⟨col', hcol', (congrArg EnforcedColumn.required hsame).trans hflag⟩
  · rintro i c ⟨col, hcol, href⟩
    obtain ⟨col', hcol', hsame⟩ := h.exists_columnAt hcol
    have hreference := congrArg EnforcedColumn.reference hsame
    have href' := (Column.refTable_ne_nil_iff hreference).mpr href
    refine ⟨⟨col', hcol', href'⟩, ?_⟩
    rintro place ⟨found, hfound, hplace⟩
    obtain rfl : found = col' := Option.some.inj (hfound.symm.trans hcol')
    obtain ⟨htable, hcolumn⟩ := Column.enforced_reference_eq_iff hreference href'
    exact ⟨col, hcol, (h.names.resolve_eq htable hcolumn) ▸ hplace⟩

/-- Without stored rows, a batch accepted over one schema is accepted over a
schema used alike. -/
theorem SameEnforced.acceptedBatch {tables tables' : Tables} (h : SameEnforced tables tables')
    (hrows : Rowless tables) (hrows' : Rowless tables')
    {pgQueryParse : CString → Option CString} {sql : CString} {batch : InsertBatch}
    (haccepted : acceptedBatch pgQueryParse tables sql = .ok batch) :
    acceptedBatch pgQueryParse tables' sql = .ok batch := by
  obtain ⟨haccept, hparse, hvalid⟩ := acceptedBatch_eq_ok_iff.mp haccepted
  obtain ⟨hroom, hadmits⟩ := validateRows_eq_ok_iff.mp hvalid
  have hcount : tables.count = tables'.count := by
    simpa [CountedArray.count] using congrArg List.length h
  have hseen : seen tables [] = seen tables' [] := by
    funext i
    simp [seen, contents, hrows.storedRows_eq, hrows'.storedRows_eq]
  refine acceptedBatch_eq_ok_iff.mpr ⟨haccept, parseBatch_congr h.names hparse,
    validateRows_eq_ok_iff.mpr ⟨?_, ?_⟩⟩
  · intro ir hir
    have hindex := (hasRoom_iff.mp (hroom ir hir)).1
    rw [hasRoom_iff, ← hcount, hrows'.storedRows_eq]
    exact ⟨hindex, by decide⟩
  · rw [← hseen]
    exact AdmitsAll.mono (fun _ _ hx => h.admissible hx) hadmits

/-- The validator accepts the same batches over schemas used alike. -/
theorem validateInsertBatch_of_enforced {state state' : SharedState}
    (h : SameEnforced state.tables state'.tables) (hrows : Rowless state.tables)
    (hrows' : Rowless state'.tables) (pgQueryParse : CString → Option CString) (sql : CString) :
    (∃ text, validateInsertBatch pgQueryParse state sql = .ok text) ↔
      ∃ text, validateInsertBatch pgQueryParse state' sql = .ok text := by
  have hdirection : ∀ s s' : SharedState, SameEnforced s.tables s'.tables → Rowless s.tables →
      Rowless s'.tables → (∃ text, validateInsertBatch pgQueryParse s sql = .ok text) →
      ∃ text, validateInsertBatch pgQueryParse s' sql = .ok text := by
    rintro s s' hs hrow hrow' ⟨text, htext⟩
    obtain ⟨batch, haccepted, rfl⟩ := validateInsertBatch_eq_ok_iff.mp htext
    exact ⟨_, validateInsertBatch_eq_ok_iff.mpr
      ⟨batch, hs.acceptedBatch hrow hrow' haccepted, rfl⟩⟩
  exact ⟨hdirection _ _ h hrows hrows', hdirection _ _ (Eq.symm h) hrows' hrows⟩

/-! ## Plain names and types -/

/-- The words with which the clauses of a column begin. -/
def clauseWords : List CString :=
  [lit " PRIMARY KEY", lit " NOT NULL", lit " UNIQUE", lit " REFERENCES"]

/-- The names and the type of a column cannot be taken for another part of its
line. -/
structure Column.Plain (c : Column) : Prop where
  name : newline ∉ c.name.chars ∧ chr ' ' ∉ c.name.chars
  type : newline ∉ c.type.chars ∧ ∀ word ∈ clauseWords, ¬ word <:+: c.type.chars
  refTable : newline ∉ c.refTable.chars ∧ openParen ∉ c.refTable.chars
  refColumn : newline ∉ c.refColumn.chars

/-- Neither can the name of a table and the names and types of its columns. -/
structure Table.Plain (t : Table) : Prop where
  name : newline ∉ t.name.chars
  columns : ∀ c ∈ t.columns.items, c.Plain

instance (c : Column) : Decidable c.Plain :=
  decidable_of_iff
    ((newline ∉ c.name.chars ∧ chr ' ' ∉ c.name.chars) ∧
      (newline ∉ c.type.chars ∧ ∀ word ∈ clauseWords, ¬ word <:+: c.type.chars) ∧
      (newline ∉ c.refTable.chars ∧ openParen ∉ c.refTable.chars) ∧ newline ∉ c.refColumn.chars)
    ⟨fun ⟨hname, htype, htable, hcolumn⟩ => ⟨hname, htype, htable, hcolumn⟩,
      fun h => ⟨h.name, h.type, h.refTable, h.refColumn⟩⟩

instance (t : Table) : Decidable t.Plain :=
  decidable_of_iff (newline ∉ t.name.chars ∧ ∀ c ∈ t.columns.items, c.Plain)
    ⟨fun ⟨hname, hcolumns⟩ => ⟨hname, hcolumns⟩, fun h => ⟨h.name, h.columns⟩⟩

/-! ## The line of a column -/

/-- The text of the reference of a column. -/
def referenceText (c : Column) : CString :=
  if c.refTable.chars = [] then []
  else lit " REFERENCES" ++ (chr ' ' :: c.refTable.chars ++ openParen ::
    (c.refColumn.chars ++ [closeParen]))

/-- The text of the clauses of a column. -/
def clauseText (c : Column) : CString :=
  (if c.primaryKey then lit " PRIMARY KEY" else []) ++
    ((if c.notNull && !c.primaryKey then lit " NOT NULL" else []) ++
      ((if c.unique && !c.primaryKey then lit " UNIQUE" else []) ++ referenceText c))

theorem piecesText_clausePieces (c : Column) : piecesText (clausePieces c) = clauseText c := by
  have hparts : lit " REFERENCES " = lit " REFERENCES" ++ [chr ' '] ∧ lit "(" = [openParen] ∧
      lit ")" = [closeParen] := by decide +kernel
  have hflag : ∀ (flag : Bool) (piece : DdlPiece),
      piecesText (if flag then [piece] else []) = if flag then piece.text else [] := by
    intro flag piece
    cases flag <;> simp
  have hreference : piecesText (if c.refTable.chars ≠ [] then
      [.references c.refTable.chars c.refColumn.chars] else []) = referenceText c := by
    unfold referenceText
    by_cases href : c.refTable.chars = []
    · simp [href]
    · simp [href, DdlPiece.text, hparts]
  unfold clausePieces clauseText
  rw [piecesText_append, piecesText_append, piecesText_append, hflag, hflag, hflag, hreference,
    List.append_assoc, List.append_assoc]
  rfl

theorem clauseWords_apart : Apart clauseWords := by decide +kernel

/-- A flag may or may not print its word; what follows begins with a later one. -/
theorem begins_flag {words : List CString} {word rest : CString} (flag : Bool)
    (hword : word ∈ words) (hrest : Begins words rest) :
    Begins words ((if flag then word else []) ++ rest) := by
  cases flag with
  | true => exact Or.inr ⟨word, hword, List.prefix_append word rest⟩
  | false => exact hrest

theorem begins_referenceText (c : Column) : Begins [lit " REFERENCES"] (referenceText c) := by
  unfold referenceText
  split
  · exact begins_nil
  · exact Or.inr ⟨_, List.mem_singleton_self _, List.prefix_append _ _⟩

/-- The clauses behind PRIMARY KEY. -/
theorem begins_uniqueText (c : Column) : Begins [lit " UNIQUE", lit " REFERENCES"]
    ((if c.unique && !c.primaryKey then lit " UNIQUE" else []) ++ referenceText c) :=
  begins_flag _ List.mem_cons_self
    ((begins_referenceText c).mono (List.subset_cons_of_subset _ (List.Subset.refl _)))

theorem begins_notNullText (c : Column) : Begins [lit " NOT NULL", lit " UNIQUE", lit " REFERENCES"]
    ((if c.notNull && !c.primaryKey then lit " NOT NULL" else []) ++
      ((if c.unique && !c.primaryKey then lit " UNIQUE" else []) ++ referenceText c)) :=
  begins_flag _ List.mem_cons_self
    ((begins_uniqueText c).mono (List.subset_cons_of_subset _ (List.Subset.refl _)))

theorem begins_clauseText (c : Column) : Begins clauseWords (clauseText c) :=
  begins_flag _ List.mem_cons_self
    ((begins_notNullText c).mono (List.subset_cons_of_subset _ (List.Subset.refl _)))

/-- The reference of a column, read off its text. -/
theorem reference_eq_of_text {c c' : Column} (hc : c.Plain) (hc' : c'.Plain)
    (h : referenceText c = referenceText c') : c.enforced.reference = c'.enforced.reference := by
  have hword : lit " REFERENCES" ≠ [] := by decide +kernel
  unfold referenceText at h
  unfold Column.enforced
  split at h
  · next hnone =>
      split at h
      · next hnone' => simp only [hnone, hnone', if_true]
      · exact absurd (List.append_eq_nil_iff.mp h.symm).1 hword
  · next hsome =>
      split at h
      · exact absurd (List.append_eq_nil_iff.mp h).1 hword
      · next hsome' =>
          have hnames := (List.cons.inj (List.append_cancel_left h)).2
          have htable := upTo_unique hc.refTable.2 hc'.refTable.2 hnames
          rw [htable] at hnames
          have hcolumn := List.append_cancel_right
            (List.cons.inj (List.append_cancel_left hnames)).2
          simp only [hsome', if_false, htable, hcolumn]

/-- The constraints of a column, read off its clauses. -/
theorem constraints_eq_of_text {c c' : Column} (hc : c.Plain) (hc' : c'.Plain)
    (h : clauseText c = clauseText c') :
    c.enforced.required = c'.enforced.required ∧ c.enforced.unique = c'.enforced.unique ∧
      c.enforced.reference = c'.enforced.reference := by
  have hdiffer : (∀ word ∈ [lit " NOT NULL", lit " UNIQUE", lit " REFERENCES"],
        Differ (lit " PRIMARY KEY") word) ∧
      (∀ word ∈ [lit " UNIQUE", lit " REFERENCES"], Differ (lit " NOT NULL") word) ∧
      (∀ word ∈ [lit " REFERENCES"], Differ (lit " UNIQUE") word) := by decide +kernel
  have hne : lit " PRIMARY KEY" ≠ [] ∧ lit " NOT NULL" ≠ [] ∧ lit " UNIQUE" ≠ [] := by
    decide +kernel
  obtain ⟨hprimary, h⟩ := flag_unique hdiffer.1 hne.1 (begins_notNullText c)
    (begins_notNullText c') h
  obtain ⟨hnotNull, h⟩ := flag_unique hdiffer.2.1 hne.2.1 (begins_uniqueText c)
    (begins_uniqueText c') h
  obtain ⟨hunique, h⟩ := flag_unique hdiffer.2.2 hne.2.2 (begins_referenceText c)
    (begins_referenceText c') h
  refine ⟨?_, ?_, reference_eq_of_text hc hc' h⟩
  · show (c.notNull || c.primaryKey) = (c'.notNull || c'.primaryKey)
    rw [hprimary] at hnotNull ⊢
    cases hkey : c'.primaryKey with
    | true => simp
    | false => simpa [hkey] using hnotNull
  · show (c.primaryKey || c.unique) = (c'.primaryKey || c'.unique)
    rw [hprimary] at hunique ⊢
    cases hkey : c'.primaryKey with
    | true => simp
    | false => simpa [hkey] using hunique

/-- The line of a column, without what ends it. -/
def columnBody (c : Column) : CString :=
  lit "    " ++ (c.name.chars ++ chr ' ' :: (c.type.chars ++ clauseText c))

/-- A column, read off its line. -/
theorem enforced_eq_of_columnBody {c c' : Column} (hc : c.Plain) (hc' : c'.Plain)
    (h : columnBody c = columnBody c') : c.enforced = c'.enforced := by
  have hline := List.append_cancel_left h
  have hname := upTo_unique hc.name.2 hc'.name.2 hline
  rw [hname] at hline
  have hrest := (List.cons.inj (List.append_cancel_left hline)).2
  obtain ⟨-, hclauses⟩ := freeText_unique clauseWords_apart hc.type.2 hc'.type.2
    (begins_clauseText c) (begins_clauseText c') hrest
  obtain ⟨hrequired, hunique, hreference⟩ := constraints_eq_of_text hc hc' hclauses
  have hbuffer : c.name = c'.name := CBuf.ext hname
  unfold Column.enforced at hrequired hunique hreference ⊢
  simp only at hrequired hunique hreference
  rw [hbuffer, hrequired, hunique, hreference]

/-! ## The statements of a schema -/

/-- The columns of a table are printed line by line. -/
theorem piecesText_columnsPieces_cons (c : Column) (cs : List Column) (more : CString) :
    piecesText (columnsPieces (c :: cs)) ++ more =
      (columnBody c ++ (if cs.isEmpty then [] else [comma])) ++
        newline :: (piecesText (columnsPieces cs) ++ more) := by
  have hparts : lit " " = [chr ' '] ∧ lit "," = [comma] ∧ lit "\n" = [newline] := by
    decide +kernel
  rw [columnsPieces, columnPieces, piecesText_append, piecesText_cons, piecesText_append,
    piecesText_clausePieces]
  simp [DdlPiece.text, columnBody, hparts]

/-- There is one line for each column. -/
theorem newline_notMem_columnBody {c : Column} (hc : c.Plain) : newline ∉ columnBody c := by
  have hwords : newline ∉ lit "    " ∧ newline ∉ lit " PRIMARY KEY" ∧ newline ∉ lit " NOT NULL" ∧
      newline ∉ lit " UNIQUE" ∧ newline ∉ lit " REFERENCES" ∧ newline ≠ chr ' ' ∧
      newline ≠ openParen ∧ newline ≠ closeParen := by decide +kernel
  obtain ⟨hindent, hprimary, hnotNull, hunique, hreferences, hspace, hopen, hclose⟩ := hwords
  have hflag : ∀ (flag : Bool) (word : CString), newline ∉ word →
      newline ∉ (if flag then word else []) := by
    intro flag word hword
    cases flag with
    | true => exact hword
    | false => exact List.not_mem_nil
  have hreference : newline ∉ referenceText c := by
    unfold referenceText
    split
    · exact List.not_mem_nil
    · simp [hreferences, hspace, hopen, hclose, hc.refTable.1, hc.refColumn]
  unfold columnBody clauseText
  simp only [List.mem_append, List.mem_cons, not_or]
  exact ⟨hindent, hc.name.1, hspace, hc.type.1, hflag _ _ hprimary, hflag _ _ hnotNull,
    hflag _ _ hunique, hreference⟩

/-- The end of a statement and what follows. -/
def statementEnd (rest : CString) : CString := lit ");\n\n" ++ rest

/-- A line of a column does not begin as the end of a statement does. -/
theorem statementEnd_ne_columns {c : Column} {cs : List Column} {rest rest' : CString} :
    statementEnd rest ≠ piecesText (columnsPieces (c :: cs)) ++ rest' := by
  have hheads : lit ");\n\n" = closeParen :: lit ";\n\n" ∧ lit "    " = chr ' ' :: lit "   " ∧
      closeParen ≠ chr ' ' := by decide +kernel
  intro h
  rw [statementEnd, piecesText_columnsPieces_cons, columnBody, hheads.1, hheads.2.1] at h
  simp only [List.cons_append, List.append_assoc] at h
  exact hheads.2.2 (List.cons.inj h).1

/-- The columns of a table, read off their lines. -/
theorem columns_eq_of_text {cs cs' : List Column} (hcs : ∀ c ∈ cs, c.Plain)
    (hcs' : ∀ c ∈ cs', c.Plain) {rest rest' : CString}
    (h : piecesText (columnsPieces cs) ++ statementEnd rest =
      piecesText (columnsPieces cs') ++ statementEnd rest') :
    cs.map Column.enforced = cs'.map Column.enforced ∧ rest = rest' := by
  induction cs generalizing cs' with
  | nil =>
      cases cs' with
      | nil => exact ⟨rfl, List.append_cancel_left h⟩
      | cons c' cs' => exact absurd h statementEnd_ne_columns
  | cons c cs ih =>
      cases cs' with
      | nil => exact absurd h.symm statementEnd_ne_columns
      | cons c' cs' =>
          have hc := hcs c List.mem_cons_self
          have hc' := hcs' c' List.mem_cons_self
          have hline : ∀ (d : Column) (ds : List Column), d.Plain →
              newline ∉ columnBody d ++ (if ds.isEmpty then [] else [comma]) := by
            intro d ds hd
            have hcomma : newline ≠ comma := by decide +kernel
            have hbody := newline_notMem_columnBody hd
            split <;> simp [hbody, hcomma]
          rw [piecesText_columnsPieces_cons, piecesText_columnsPieces_cons] at h
          have hfirst := upTo_unique (hline c cs hc) (hline c' cs' hc') h
          rw [hfirst] at h
          obtain ⟨hcolumns, hrest⟩ := ih (fun d hd => hcs d (List.mem_cons_of_mem _ hd))
            (fun d hd => hcs' d (List.mem_cons_of_mem _ hd))
            (List.cons.inj (List.append_cancel_left h)).2
          -- as many columns follow, so the lines end alike
          have hempty : cs.isEmpty = cs'.isEmpty := by
            rw [← List.isEmpty_map (f := Column.enforced), hcolumns, List.isEmpty_map]
          rw [hempty] at hfirst
          have hbody := enforced_eq_of_columnBody hc hc' (List.append_cancel_right hfirst)
          exact ⟨by rw [List.map_cons, List.map_cons, hbody, hcolumns], hrest⟩

/-- The text of a statement. -/
theorem piecesText_tablePieces (t : Table) (rest : CString) :
    piecesText (tablePieces t) ++ rest =
      lit "CREATE TABLE " ++ ((t.name.chars ++ lit " (") ++
        newline :: (piecesText (columnsPieces t.columns.items) ++ statementEnd rest)) := by
  have hopen : lit " (\n" = lit " (" ++ [newline] := by decide +kernel
  rw [tablePieces, piecesText_cons, piecesText_append, piecesText_cons, piecesText_nil]
  simp [DdlPiece.text, statementEnd, hopen]

/-- The tables of a schema, read off their statements. -/
theorem tables_eq_of_text {ts ts' : List Table} (hts : ∀ t ∈ ts, t.Plain)
    (hts' : ∀ t ∈ ts', t.Plain)
    (h : piecesText (ts.flatMap tablePieces) = piecesText (ts'.flatMap tablePieces)) :
    ts.map Table.enforced = ts'.map Table.enforced := by
  have hstatement : lit "CREATE TABLE " ≠ [] ∧ newline ∉ lit " (" := by decide +kernel
  have hnonempty : ∀ (t : Table) (rest : List Table),
      piecesText ((t :: rest).flatMap tablePieces) ≠ [] := by
    intro t rest
    rw [List.flatMap_cons, piecesText_append, piecesText_tablePieces]
    intro hnil
    exact hstatement.1 (List.append_eq_nil_iff.mp hnil).1
  have hline : ∀ t : Table, t.Plain → newline ∉ t.name.chars ++ lit " (" := by
    intro t ht
    rw [List.mem_append, not_or]
    exact ⟨ht.name, hstatement.2⟩
  induction ts generalizing ts' with
  | nil =>
      cases ts' with
      | nil => rfl
      | cons t' ts' => exact absurd h.symm (hnonempty t' ts')
  | cons t ts ih =>
      cases ts' with
      | nil => exact absurd h (hnonempty t ts)
      | cons t' ts' =>
          have ht := hts t List.mem_cons_self
          have ht' := hts' t' List.mem_cons_self
          rw [List.flatMap_cons, List.flatMap_cons, piecesText_append, piecesText_append,
            piecesText_tablePieces, piecesText_tablePieces] at h
          have hbehind := List.append_cancel_left h
          have hname := upTo_unique (hline t ht) (hline t' ht') hbehind
          rw [hname] at hbehind
          obtain ⟨hcolumns, hrest⟩ := columns_eq_of_text ht.columns ht'.columns
            (List.cons.inj (List.append_cancel_left hbehind)).2
          have htables := ih (fun u hu => hts u (List.mem_cons_of_mem _ hu))
            (fun u hu => hts' u (List.mem_cons_of_mem _ hu)) hrest
          have hbuffer : t.name = t'.name := CBuf.ext (List.append_cancel_right hname)
          rw [List.map_cons, List.map_cons, htables, Table.enforced, Table.enforced, hbuffer,
            hcolumns]

/-- Schemas of plain names and types with the same rendering are used alike. -/
theorem enforced_of_ddl_eq {tables tables' : Tables} (hplain : ∀ t ∈ tables.items, t.Plain)
    (hplain' : ∀ t ∈ tables'.items, t.Plain) (h : ddl tables = ddl tables') :
    SameEnforced tables tables' := by
  have hnotice : (lit "-- No ER diagram loaded.\n").head? = some (chr '-') ∧
      (lit "CREATE TABLE ").head? = some (chr 'C') ∧ chr '-' ≠ chr 'C' := by decide +kernel
  -- the notice printed without a schema is not the beginning of a statement
  have hstatement : ∀ t : Tables, t.count ≠ 0 →
      (piecesText (ddlPieces t)).head? = some (chr 'C') := by
    intro t ht
    unfold ddlPieces
    cases hitems : t.items with
    | nil => exact absurd (congrArg List.length hitems) ht
    | cons first rest =>
        rw [List.flatMap_cons, piecesText_append, piecesText_tablePieces, List.head?_append,
          hnotice.2.1]
        rfl
  have hother : ∀ t t' : Tables, t.count = 0 → t'.count ≠ 0 → ddl t ≠ ddl t' := by
    intro t t' ht ht' hsame
    have hheads := congrArg List.head? hsame
    unfold ddl at hheads
    rw [if_pos ht, if_neg ht', hnotice.1, hstatement t' ht', Option.some.injEq] at hheads
    exact hnotice.2.2 hheads
  by_cases hempty : tables.count = 0
  · by_cases hempty' : tables'.count = 0
    · unfold SameEnforced
      rw [List.length_eq_zero_iff.mp hempty, List.length_eq_zero_iff.mp hempty']
    · exact absurd h (hother _ _ hempty hempty')
  · by_cases hempty' : tables'.count = 0
    · exact absurd h.symm (hother _ _ hempty' hempty)
    · unfold ddl at h
      rw [if_neg hempty, if_neg hempty'] at h
      exact tables_eq_of_text hplain hplain' h

/-- Two schemas of plain names and types, without stored rows, for which
`generate_sql` leaves the same uncut text: the validator accepts the same batches
over both. -/
theorem sameDdl_validates_alike {state state' : SharedState} {outLen : Nat}
    (hrows : Rowless state.tables) (hrows' : Rowless state'.tables)
    (hplain : ∀ t ∈ state.tables.items, t.Plain) (hplain' : ∀ t ∈ state'.tables.items, t.Plain)
    (hwhole : (ddl state.tables).length < outLen) (hwhole' : (ddl state'.tables).length < outLen)
    (hsame : generateSql state.tables outLen = generateSql state'.tables outLen)
    (pgQueryParse : CString → Option CString) (sql : CString) :
    (∃ text, validateInsertBatch pgQueryParse state sql = .ok text) ↔
      ∃ text, validateInsertBatch pgQueryParse state' sql = .ok text := by
  have hddl : ddl state.tables = ddl state'.tables := by
    rwa [generateSql_eq, generateSql_eq, List.take_of_length_le (by omega),
      List.take_of_length_le (by omega)] at hsame
  exact validateInsertBatch_of_enforced (enforced_of_ddl_eq hplain hplain' hddl) hrows hrows'
    pgQueryParse sql

/-! ### Two documents with one column -/

/-- A document with one table of one column, with the members of that column. -/
def columnDocument (members : List (CString × CJson)) : CJson :=
  .object [(lit "tables", .array [.object [(lit "name", .string (lit "t")),
    (lit "columns", .array [.object members])]])]

/-- The text of that document, from the text of the members. -/
def columnDocumentText (members : CString) : List UInt8 :=
  (lit "\x7b\"tables\":[\x7b\"name\":\"t\",\"columns\":[\x7b" ++ members ++
    lit "\x7d]\x7d]\x7d").map Subtype.val

/-- The state after such a document has been loaded. -/
def columnLoaded (text : CString) (members : List (CString × CJson)) :
    SharedState × Except CString CString :=
  loadErJson
    (fun json => if json = columnDocumentText text then some (columnDocument members) else none)
    (stateInit 0) (.holding (columnDocumentText text))

/-- `"primary_key": true, "unique": true`. -/
def keyAndUnique : SharedState × Except CString CString :=
  columnLoaded (lit "\"name\":\"a\",\"primary_key\":true,\"unique\":true")
    [(lit "name", .string (lit "a")), (lit "primary_key", .bool true),
      (lit "unique", .bool true)]

/-- `"primary_key": true`. -/
def keyOnly : SharedState × Except CString CString :=
  columnLoaded (lit "\"name\":\"a\",\"primary_key\":true")
    [(lit "name", .string (lit "a")), (lit "primary_key", .bool true)]

/-- Both print `a TEXT PRIMARY KEY`, and the validator treats a batch alike. -/
theorem sameDdl_validates_alike_key :
    (∃ text, validateInsertBatch (fun _ => none) keyAndUnique.1
      (lit "INSERT INTO t VALUES (1), (1)") = .ok text) ↔
    ∃ text, validateInsertBatch (fun _ => none) keyOnly.1
      (lit "INSERT INTO t VALUES (1), (1)") = .ok text := by
  have hfacts : (∀ t ∈ keyAndUnique.1.tables.items, t.rows.items = [] ∧ t.Plain) ∧
      (∀ t ∈ keyOnly.1.tables.items, t.rows.items = [] ∧ t.Plain) ∧
      (ddl keyAndUnique.1.tables).length < 65536 ∧ (ddl keyOnly.1.tables).length < 65536 ∧
      generateSql keyAndUnique.1.tables 65536 = generateSql keyOnly.1.tables 65536 := by
    decide +kernel
  obtain ⟨hfirst, hsecond, hwhole, hwhole', hsame⟩ := hfacts
  exact sameDdl_validates_alike (fun t ht => (hfirst t ht).1) (fun t ht => (hsecond t ht).1)
    (fun t ht => (hfirst t ht).2) (fun t ht => (hsecond t ht).2) hwhole hwhole' hsame _ _

/-- A type that reads like a constraint: `"type": "TEXT NOT NULL"`. -/
def constraintInType : SharedState × Except CString CString :=
  columnLoaded (lit "\"name\":\"a\",\"type\":\"TEXT NOT NULL\"")
    [(lit "name", .string (lit "a")), (lit "type", .string (lit "TEXT NOT NULL"))]

/-- The constraint itself: `"type": "TEXT", "not_null": true`. -/
def constraintFlag : SharedState × Except CString CString :=
  columnLoaded (lit "\"name\":\"a\",\"type\":\"TEXT\",\"not_null\":true")
    [(lit "name", .string (lit "a")), (lit "type", .string (lit "TEXT")),
      (lit "not_null", .bool true)]

/-- Both documents load and print the same text, and a NULL is accepted over the
first and rejected over the second. -/
theorem constraintInType_not_enforced :
    constraintInType.2 = .ok (lit "loaded 1 tables") ∧
    constraintFlag.2 = .ok (lit "loaded 1 tables") ∧
    (ddl constraintInType.1.tables).length < 65536 ∧
    (ddl constraintFlag.1.tables).length < 65536 ∧
    generateSql constraintInType.1.tables 65536 = generateSql constraintFlag.1.tables 65536 ∧
    (∃ text, validateInsertBatch (fun _ => none) constraintInType.1
      (lit "INSERT INTO t VALUES (NULL)") = .ok text) ∧
    ¬ ∃ text, validateInsertBatch (fun _ => none) constraintFlag.1
      (lit "INSERT INTO t VALUES (NULL)") = .ok text := by
  have hfacts : constraintInType.2 = .ok (lit "loaded 1 tables") ∧
      constraintFlag.2 = .ok (lit "loaded 1 tables") ∧
      (ddl constraintInType.1.tables).length < 65536 ∧
      (ddl constraintFlag.1.tables).length < 65536 ∧
      generateSql constraintInType.1.tables 65536 = generateSql constraintFlag.1.tables 65536 ∧
      validateInsertBatch (fun _ => none) constraintInType.1
        (lit "INSERT INTO t VALUES (NULL)") = .ok (lit "OK: 1 row(s) accepted") ∧
      validateInsertBatch (fun _ => none) constraintFlag.1 (lit "INSERT INTO t VALUES (NULL)") =
        .error (lit "constraint failed: t.a cannot be NULL") := by
    decide +kernel
  obtain ⟨hload, hload', hwhole, hwhole', hsame, haccepts, hrejects⟩ := hfacts
  refine ⟨hload, hload', hwhole, hwhole', hsame, ⟨_, haccepts⟩, ?_⟩
  rintro ⟨text, htext⟩
  rw [hrejects] at htext
  cases htext

end SqlCodeGenerator
