import SqlCodeGenerator.ColumnPlacement
import SqlCodeGenerator.ConstraintRefinement
import SqlCodeGenerator.InsertRendering

/-!
# Which literals are NULL

`parse_value` copies a quoted text and a bare one into the same buffer, trims it,
and compares it with `NULL`.  The quotes are forgotten by then, and the letter case
of a bare word is not.

* `Written`: a literal as the text of a statement has it.
* `Written.Misread`: the three kinds of literals that the comparison misjudges.
* `nullsClassified_iff`: the cells of an accepted statement are NULL where its text
  says so exactly where no literal that stays in a column is of these kinds.
-/

namespace SqlCodeGenerator

open Library

variable {tables : Tables} {stmt : CString}

/-! ## Trimmed texts -/

theorem trimInplace_nil : trimInplace [] = [] := rfl

theorem trimInplace_trimInplace (text : CString) :
    trimInplace (trimInplace text) = trimInplace text := by
  have hend : (trimInplace text).rdropWhile isSpace = trimInplace text := by
    refine List.rdropWhile_eq_self_iff.mpr fun hne => ?_
    have hsuffix : trimInplace text <:+ text.rdropWhile isSpace := List.dropWhile_suffix isSpace
    rw [hsuffix.getLast hne]
    exact List.rdropWhile_last_not isSpace text _
  show skipWs ((trimInplace text).rdropWhile isSpace) = trimInplace text
  rw [hend]
  exact skipWs_skipWs (text.rdropWhile isSpace)

/-- A text that does not begin with white space is what stands in front of its last
white space, and that. -/
theorem exists_blanks_of_trimInplace {text : CString} (h : ∀ c ∈ text.head?, isSpace c = false) :
    ∃ blanks : Blanks, text = trimInplace text ++ blanks.text := by
  cases text with
  | nil => exact ⟨⟨[], fun c hc => by cases hc⟩, rfl⟩
  | cons c rest =>
      have hc : isSpace c = false := h c rfl
      have htrim : trimInplace (c :: rest) = c :: rest.rdropWhile isSpace := by
        have hend := @rdropWhile_append_cons _ isSpace [] rest c hc
        show skipWs (([] ++ c :: rest).rdropWhile isSpace) = _
        rw [hend]
        exact skipWs_cons_of_not_isSpace hc
      refine ⟨⟨rest.rtakeWhile isSpace, fun d hd => List.mem_rtakeWhile_imp hd⟩, ?_⟩
      rw [htrim, List.cons_append, List.rdropWhile_append_rtakeWhile]

/-! ## Literals -/

/-- A literal as it is written in a tuple: what stands between its apostrophes, or
all up to what ends it, without the white space around it. -/
inductive Written where
  | quoted (content : CString)
  | bare (text : CString) (trimmed : trimInplace text = text)
  deriving DecidableEq

namespace Written

/-- Is it the keyword NULL, in any letter case? -/
def isNullKeyword : Written → Bool
  | quoted _ => false
  | bare text _ => text.map toLower = lit "null"

/-- The text that is copied for it. -/
def text : Written → CString
  | quoted content => content
  | bare text _ => text

/-- The cell that `parse_value` makes of it. -/
def cell (w : Written) : Cell := cellOfText w.text

/-- The literals that `strcmp(value, "NULL")` misjudges. -/
inductive Misread : Written → Prop
  /-- In quotes, `NULL` with nothing but white space around it, as far as it is kept. -/
  | quoted {content : CString} (hnull : trimInplace (content.take (maxValue - 1)) = lit "NULL") :
      Misread (.quoted content)
  /-- The keyword, not all in capitals. -/
  | otherCase {text : CString} {trimmed : trimInplace text = text}
      (hword : text.map toLower = lit "null") (hcase : text ≠ lit "NULL") :
      Misread (.bare text trimmed)
  /-- A bare text that does not fit, with `NULL` and nothing but white space in the
  part that is kept. -/
  | cutOff {text : CString} {trimmed : trimInplace text = text} (hlong : maxValue ≤ text.length)
      (hnull : trimInplace (text.take (maxValue - 1)) = lit "NULL") :
      Misread (.bare text trimmed)

end Written

theorem isNull_cellOfText (text : CString) :
    (cellOfText text).isNull = true ↔ trimInplace (text.take (maxValue - 1)) = lit "NULL" := by
  unfold cellOfText
  dsimp only
  split
  · next hnull => exact iff_of_true rfl hnull
  · next hnull => exact iff_of_false Bool.false_ne_true hnull

/-- The cell of a literal is NULL where the literal is the keyword, unless it is of one
of the three kinds. -/
theorem Written.isNull_cell_iff (w : Written) :
    (w.cell.isNull = true ↔ w.isNullKeyword = true) ↔ ¬ w.Misread := by
  unfold cell
  rw [isNull_cellOfText]
  cases w with
  | quoted content =>
      have hkind : (Written.quoted content).Misread ↔
          trimInplace (content.take (maxValue - 1)) = lit "NULL" :=
        ⟨fun h => by cases h with | quoted hnull => exact hnull, .quoted⟩
      rw [hkind]
      exact iff_false_right Bool.false_ne_true
  | bare text trimmed =>
      have hkeyword : (Written.bare text trimmed).isNullKeyword = true ↔
          text.map toLower = lit "null" := decide_eq_true_iff
      rw [hkeyword]
      by_cases hlong : maxValue ≤ text.length
      · -- too long for the keyword: the text is misread where it becomes NULL
        have hword : text.map toLower ≠ lit "null" := by
          intro hword
          have hlen := congrArg List.length hword
          rw [List.length_map, show (lit "null").length = 4 from rfl] at hlen
          exact absurd hlong (by rw [hlen]; decide)
        have hkind : (Written.bare text trimmed).Misread ↔
            trimInplace (text.take (maxValue - 1)) = lit "NULL" := by
          refine ⟨fun h => ?_, .cutOff hlong⟩
          cases h with
          | otherCase hword' => exact absurd hword' hword
          | cutOff _ hnull => exact hnull
        rw [hkind]
        exact iff_false_right hword
      · -- the text is kept as it is: it becomes NULL where it is `NULL`
        have hkept : text.take (maxValue - 1) = text := List.take_of_length_le (by omega)
        have hkind : (Written.bare text trimmed).Misread ↔
            text.map toLower = lit "null" ∧ text ≠ lit "NULL" := by
          refine ⟨fun h => ?_, fun h => .otherCase h.1 h.2⟩
          cases h with
          | otherCase hword hcase => exact ⟨hword, hcase⟩
          | cutOff hlong' => exact absurd hlong' hlong
        have hcapitals : text = lit "NULL" → text.map toLower = lit "null" := by
          rintro rfl
          decide
        rw [show (Written.bare text trimmed).text = text from rfl, hkept, trimmed, hkind]
        tauto

/-- The literal that begins at a place. -/
def writtenAt (p : CString) : Written :=
  match skipWs p with
  | [] => .bare [] trimInplace_nil
  | c :: rest =>
      if c = apostrophe then
        .quoted (quotedText rest).1
      else
        .bare (trimInplace ((c :: rest).takeWhile isBareValueChar)) (trimInplace_trimInplace _)

section WrittenAt

variable {p rest : CString} {c : CChar}

theorem text_writtenAt_of_nil (hp : skipWs p = []) : (writtenAt p).text = [] := by
  unfold writtenAt
  rw [hp]
  rfl

theorem text_writtenAt_of_quoted (hp : skipWs p = apostrophe :: rest) :
    (writtenAt p).text = (quotedText rest).1 := by
  unfold writtenAt
  rw [hp]
  dsimp only
  rw [if_pos rfl]
  rfl

theorem text_writtenAt_of_bare (hp : skipWs p = c :: rest) (hc : c ≠ apostrophe) :
    (writtenAt p).text = trimInplace ((c :: rest).takeWhile isBareValueChar) := by
  unfold writtenAt
  rw [hp]
  dsimp only
  rw [if_neg hc]
  rfl

end WrittenAt

/-- What `parse_value` makes of a value is the cell of the literal. -/
theorem parseValue_fst (p : CString) : (parseValue p).1 = (writtenAt p).cell := by
  show cellOfText (valueText (skipWs p)).1 = cellOfText (writtenAt p).text
  cases hp : skipWs p with
  | nil => rw [text_writtenAt_of_nil hp, valueText]
  | cons c rest =>
      by_cases hc : c = apostrophe
      · subst hc
        rw [text_writtenAt_of_quoted hp, valueText, if_pos rfl]
      · rw [text_writtenAt_of_bare hp hc, valueText, if_neg hc]
        have hspace : isSpace c = false := test_head_dropWhile hp
        have hstart : ∀ d ∈ ((c :: rest).takeWhile isBareValueChar).head?, isSpace d = false := by
          intro d hd
          rw [List.takeWhile_cons] at hd
          split at hd
          · obtain rfl : c = d := by simpa using hd
            exact hspace
          · cases hd
        -- the white space behind a bare text is trimmed sooner or later
        obtain ⟨blanks, hblanks⟩ := exists_blanks_of_trimInplace hstart
        show cellOfText ((c :: rest).takeWhile isBareValueChar) = _
        conv_lhs => rw [hblanks]
        exact cellOfText_append_blanks _ blanks

/-- `TuplesWritten p tuples`: the tuples behind `VALUES` are written as `tuples`. -/
def TuplesWritten (p : CString) (tuples : List (List Written)) : Prop :=
  ∃ placess, TuplesPlaces p placess ∧ tuples = placess.map (List.map writtenAt)

theorem TuplesWritten.unique {p : CString} {tuples tuples' : List (List Written)}
    (h : TuplesWritten p tuples) (h' : TuplesWritten p tuples') : tuples = tuples' := by
  obtain ⟨placess, hplaces, rfl⟩ := h
  obtain ⟨placess', hplaces', rfl⟩ := h'
  rw [hplaces.unique hplaces']

/-- The cells of the tuples are those of their literals. -/
theorem tuplesRead_iff_written {p : CString} {tuples : List (List Cell)} :
    TuplesRead p tuples ↔
      ∃ written, TuplesWritten p written ∧ tuples = written.map (List.map Written.cell) := by
  have hcells : ∀ placess : List (List CString),
      placess.map (List.map fun place => (parseValue place).1) =
        (placess.map (List.map writtenAt)).map (List.map Written.cell) := by
    intro placess
    rw [List.map_map]
    refine List.map_congr_left fun places _ => ?_
    rw [Function.comp_apply, List.map_map]
    exact List.map_congr_left fun place _ => parseValue_fst place
  rw [tuplesRead_iff]
  constructor
  · rintro ⟨placess, hplaces, rfl⟩
    exact ⟨_, ⟨placess, hplaces, rfl⟩, hcells placess⟩
  · rintro ⟨written, ⟨placess, hplaces, rfl⟩, rfl⟩
    exact ⟨placess, hplaces, (hcells placess).symm⟩

/-! ## The value that stays in a column -/

section LastFor

variable {α : Type}

/-- The last of the values that are written for a column. -/
def lastFor : List (Fin maxColumns) → List α → Fin maxColumns → Option α
  | ci :: columns, x :: values, c =>
      (lastFor columns values c).or (if ci = c then some x else none)
  | _, _, _ => none

theorem lastFor_map {β : Type} (f : α → β) (columns : List (Fin maxColumns)) (values : List α)
    (c : Fin maxColumns) :
    lastFor columns (values.map f) c = (lastFor columns values c).map f := by
  induction columns generalizing values with
  | nil => rfl
  | cons ci columns ih =>
      cases values with
      | nil => rfl
      | cons x values =>
          rw [List.map_cons, lastFor, lastFor, ih, Option.map_or]
          split
          · rfl
          · rfl

/-- It is one of the values that are written for the column. -/
theorem mem_zip_of_lastFor {columns : List (Fin maxColumns)} {values : List α}
    {c : Fin maxColumns} {x : α} (h : lastFor columns values c = some x) :
    (c, x) ∈ columns.zip values := by
  induction columns generalizing values with
  | nil => cases h
  | cons ci columns ih =>
      cases values with
      | nil => cases h
      | cons y values =>
          rw [lastFor, Option.or_eq_some_iff] at h
          rw [List.zip_cons_cons, List.mem_cons]
          rcases h with hlater | ⟨-, hhere⟩
          · exact Or.inr (ih hlater)
          · split at hhere
            · next hci => exact Or.inl (by rw [hci, Option.some.inj hhere])
            · cases hhere

/-- A cell of a row holds the last value that is stored in it. -/
theorem cell_storeAll_eq (row : Row) (columns : List (Fin maxColumns)) (cells : List Cell)
    (c : Fin maxColumns) :
    (storeAll row columns cells).cell c = (lastFor columns cells c).getD (row.cell c) := by
  induction columns generalizing row cells with
  | nil => rfl
  | cons ci columns ih =>
      cases cells with
      | nil => rfl
      | cons x cells =>
          rw [storeAll, ih, lastFor, Row.cell_store]
          cases lastFor columns cells c with
          | some y => rfl
          | none =>
              by_cases hci : ci = c
              · rw [if_pos hci, if_pos hci.symm]
                rfl
              · rw [if_neg hci, if_neg fun h => hci h.symm]
                rfl

end LastFor

/-- The columns that are filled are columns of the table. -/
theorem ColumnsChosen.lt_count {table : Table} {p rest : CString}
    {columns : List (Fin maxColumns)} (h : ColumnsChosen table p columns rest)
    {c : Fin maxColumns} (hc : c ∈ columns) : c.val < table.columns.count := by
  have hplace : ∃ col, table.columns.items[c.val]? = some col := by
    cases h with
    | listed hread =>
        induction hread with
        | close => cases hc
        | column hopen hname hcolumn hsep hrest ih =>
            rcases List.mem_cons.mp hc with rfl | hlater
            · exact (findColumn_eq_some hcolumn).imp fun _ h => h.1
            · exact ih hlater
        | last hopen hname hcolumn hsep =>
            obtain rfl := List.mem_singleton.mp hc
            exact (findColumn_eq_some hcolumn).imp fun _ h => h.1
    | natural =>
        obtain ⟨⟨place, col⟩, hmem, rfl⟩ := List.mem_map.mp hc
        exact ⟨col, CountedArray.mem_places_iff.mp hmem⟩
  obtain ⟨col, hcol⟩ := hplace
  exact (List.getElem?_eq_some_iff.mp hcol).1

/-! ## Statements -/

/-- The row that is appended for a tuple of literals. -/
def Reading.writtenRow (r : Reading) (ws : List Written) : InsertRow :=
  tupleRow r.target.tableIndex r.target.table r.columns (ws.map Written.cell)

/-- The cells of the rows are NULL where the text of the statement says so. -/
structure Reading.NullsClassified (r : Reading) (tables : Tables) (tuples : List (List Written)) :
    Prop where
  /-- A cell is NULL exactly where its column is not listed or the literal written for it
  is the keyword, in any letter case. -/
  flagged : ∀ ws ∈ tuples, ∀ c : Fin maxColumns, c.val < r.target.table.columns.count →
    (((r.writtenRow ws).row.cell c).isNull = true ↔
      ∀ w ∈ lastFor r.columns ws c, w.isNullKeyword = true)
  /-- A row that passes the checks has in every column that must not be NULL a literal
  that is not the keyword. -/
  checked : ∀ ws ∈ tuples, ∀ earlier, validateRow tables earlier (r.writtenRow ws) = .ok () →
    ∀ (c : Fin maxColumns) (col : Column), r.target.table.columns.items[c.val]? = some col →
      (col.notNull || col.primaryKey) = true →
      ∃ w, lastFor r.columns ws c = some w ∧ w.isNullKeyword = false

/-- A cell of a row, by the literal that is written for its column. -/
theorem Reading.cell_writtenRow (r : Reading) (ws : List Written) {c : Fin maxColumns}
    (hc : c.val < r.target.table.columns.count) :
    (lastFor r.columns ws c = none ∧ ((r.writtenRow ws).row.cell c).isNull = true) ∨
      ∃ w, lastFor r.columns ws c = some w ∧ (r.writtenRow ws).row.cell c = w.cell := by
  have hcell : (r.writtenRow ws).row.cell c =
      ((lastFor r.columns ws c).map Written.cell).getD ((blankRow r.target.table).cell c) := by
    rw [← lastFor_map]
    exact cell_storeAll_eq (blankRow r.target.table) r.columns (ws.map Written.cell) c
  cases hlast : lastFor r.columns ws c with
  | none =>
      have hblank : ((blankRow r.target.table).cell c).isNull = true := by
        unfold blankRow Row.cell
        rw [FixedArray.get_tabulate]
        exact decide_eq_true hc
      rw [hlast] at hcell
      exact Or.inl ⟨rfl, by rw [hcell]; exact hblank⟩
  | some w =>
      rw [hlast] at hcell
      exact Or.inr ⟨w, rfl, hcell⟩

/-- A row that passes the checks is not NULL in a column that must not be. -/
theorem isNull_of_validateRow {earlier : List InsertRow} {ir : InsertRow} {table : Table}
    (htable : tables.items[ir.tableIndex.val]? = some table)
    (h : validateRow tables earlier ir = .ok ()) {c : Fin maxColumns} {col : Column}
    (hcol : table.columns.items[c.val]? = some col)
    (hrequired : (col.notNull || col.primaryKey) = true) : (ir.row.cell c).isNull ≠ true := by
  obtain ⟨-, hadmissible⟩ := validateRow_eq_ok_iff.mp h
  have hnone := hadmissible.required c ⟨col, columnAt_eq_some htable hcol, hrequired⟩
  exact fun hnull => hnone (view_eq_none_iff.mpr hnull)

/-- The cells of a reading are classified exactly where every literal that stays in a
column is. -/
theorem Reading.Of.nullsClassified_iff {r : Reading} (hr : r.Of tables stmt)
    (tuples : List (List Written)) :
    r.NullsClassified tables tuples ↔
      ∀ ws ∈ tuples, ∀ c w, lastFor r.columns ws c = some w → ¬ w.Misread := by
  have htable : tables.items[r.target.tableIndex.val]? = some r.target.table := by
    obtain ⟨-, -, _, -, -, htable, -⟩ := insertTarget_eq_ok_iff.mp hr.target
    exact htable
  constructor
  · intro h ws hws c w hw
    have hc : c.val < r.target.table.columns.count := 
      hr.columns.lt_count (List.of_mem_zip (mem_zip_of_lastFor hw)).1
    have hflag := h.flagged ws hws c hc
    rcases r.cell_writtenRow ws hc with ⟨hnone, -⟩ | ⟨w', hw', hcell⟩
    · rw [hnone] at hw
      cases hw
    · obtain rfl := Option.some.inj (hw'.symm.trans hw)
      rw [hw', hcell] at hflag
      exact w'.isNull_cell_iff.mp (by simpa using hflag)
  · intro h
    have hflagged : ∀ ws ∈ tuples, ∀ c : Fin maxColumns, c.val < r.target.table.columns.count →
        (((r.writtenRow ws).row.cell c).isNull = true ↔
          ∀ w ∈ lastFor r.columns ws c, w.isNullKeyword = true) := by
      intro ws hws c hc
      rcases r.cell_writtenRow ws hc with ⟨hnone, hnull⟩ | ⟨w, hw, hcell⟩
      · rw [hnone]
        exact iff_of_true hnull fun w hw => by cases hw
      · rw [hw, hcell, w.isNull_cell_iff.mpr (h ws hws c w hw)]
        simp
    refine ⟨hflagged, fun ws hws earlier hvalid c col hcol hrequired => ?_⟩
    have hc : c.val < r.target.table.columns.count := (List.getElem?_eq_some_iff.mp hcol).1
    have hnull := isNull_of_validateRow htable hvalid hcol hrequired
    rw [ne_eq, hflagged ws hws c hc] at hnull
    cases hlast : lastFor r.columns ws c with
    | none =>
        rw [hlast] at hnull
        exact absurd (fun w hw => by cases hw) hnull
    | some w =>
        rw [hlast] at hnull
        exact ⟨w, rfl, by simpa using hnull⟩

/-- For every accepted statement, with the literals that its tuples are written in: a cell
is NULL where the text says so exactly where no literal that stays in a column is one
that `parse_value` misreads. -/
theorem nullLiterals_iff {batch batch' : InsertBatch}
    (h : parseInsertStatement tables stmt batch = .ok batch') :
    (skipWs stmt = [] ∧ batch' = batch) ∨
      ∃ (r : Reading) (tuples : List (List Written)), r.Of tables stmt ∧
        TuplesWritten (r.values.drop 6) tuples ∧
        batch'.items = batch.items ++ tuples.map r.writtenRow ∧
        (r.NullsClassified tables tuples ↔
          ∀ ws ∈ tuples, ∀ c w, lastFor r.columns ws c = some w → ¬ w.Misread) := by
  refine (parseInsertStatement_eq_ok_iff.mp h).imp id ?_
  rintro ⟨r, hr, hitems⟩
  obtain ⟨tuples, htuples, hcells⟩ := tuplesRead_iff_written.mp hr.tuples
  refine ⟨r, tuples, hr, htuples, ?_, hr.nullsClassified_iff tuples⟩
  rw [hitems, Reading.rows, hcells, List.map_map]
  rfl

/-! ## Two columns, one of which must not be NULL -/

/-- A table `t` with the columns `a` and `b`, of which `b` is NOT NULL. -/
def strictTable : Table :=
  ⟨snprintf (lit "t"),
    ⟨[freeColumn (lit "a"), { freeColumn (lit "b") with notNull := true }], by decide⟩, .empty⟩

def strictTables : Tables := ⟨[strictTable], by decide⟩

/-- The reading of `INSERT INTO t VALUES` with the tuples that follow. -/
def strictReading (p : CString) (written : List (List Written)) : Reading :=
  ⟨⟨lit "t", 0, strictTable, lit "VALUES " ++ p⟩, [0, 1], lit "VALUES " ++ p, lit "VALUES " ++ p,
    written.map (List.map Written.cell)⟩

theorem strictReading_of {p : CString} {written : List (List Written)}
    (h : TuplesWritten (lit " " ++ p) written) (hpair : ∀ ws ∈ written, ws.length = 2) :
    (strictReading p written).Of strictTables (lit "INSERT INTO t VALUES " ++ p) where
  target := rfl
  columns := .natural (fun h => absurd (Option.some.inj h) (by decide))
  room := (by decide : 2 ≤ maxColumns)
  values := rfl
  tuples := tuplesRead_iff_written.mpr ⟨written, h, rfl⟩
  counts := by
    intro cells hcells
    obtain ⟨ws, hws, rfl⟩ := List.mem_map.mp hcells
    rw [List.length_map]
    exact hpair ws hws

/-- One tuple of two values. -/
theorem tuplesWritten_pair {p first second rest : CString} (hopen : skipWs p = openParen :: first)
    (hfirst : first ≠ [] ∧ first.head? ≠ some closeParen)
    (hcomma : skipWs (parseValue first).2 = comma :: second)
    (hsecond : second ≠ [] ∧ second.head? ≠ some closeParen)
    (hclose : skipWs (parseValue second).2 = closeParen :: rest) (hend : skipWs rest = []) :
    TuplesWritten p [[writtenAt first, writtenAt second]] :=
  ⟨[[first, second]],
    .tuple hopen (.value hfirst.1 hfirst.2 hcomma (.last hsecond.1 hsecond.2 hclose)) (.done hend),
    rfl⟩

/-- The keyword in capitals, and a text that spells it in small letters. -/
theorem capitals_classified :
    ∃ r tuples, Reading.Of strictTables (lit "INSERT INTO t VALUES (NULL, 'null')") r ∧
      TuplesWritten (r.values.drop 6) tuples ∧ r.NullsClassified strictTables tuples := by
  have hparse : parseInsertStatement strictTables (lit "INSERT INTO t VALUES (NULL, 'null')")
        .empty = .ok ⟨[⟨0, ((blankRow strictTable).store 0 ⟨snprintf [], true⟩).store 1
          ⟨snprintf (lit "null"), false⟩⟩], by decide⟩ ∧
      skipWs (lit "INSERT INTO t VALUES (NULL, 'null')") ≠ [] ∧
      lit "INSERT INTO t VALUES (NULL, 'null')" =
        lit "INSERT INTO t VALUES " ++ lit "(NULL, 'null')" := by
    decide +kernel
  obtain ⟨haccepted, hne, hsplit⟩ := hparse
  have hcomma : skipWs (parseValue (lit "NULL, 'null')")).2 = comma :: lit " 'null')" := by
    decide +kernel
  have hclose : skipWs (parseValue (lit " 'null')")).2 = closeParen :: [] := by
    decide +kernel
  have hopen : skipWs (lit " " ++ lit "(NULL, 'null')") = openParen :: lit "NULL, 'null')" := by
    decide +kernel
  have hwritten := tuplesWritten_pair hopen (by decide) hcomma (by decide) hclose rfl
  have hof := strictReading_of hwritten (by simp)
  rw [← hsplit] at hof
  rcases nullLiterals_iff haccepted with ⟨hblank, -⟩ | ⟨r, tuples, hr, htuples, -, hiff⟩
  · exact absurd hblank hne
  · refine ⟨r, tuples, hr, htuples, hiff.mpr fun ws hws c w hw => ?_⟩
    rw [hr.unique hof] at htuples
    obtain rfl := htuples.unique hwritten
    obtain rfl := List.mem_singleton.mp hws
    have hall : ∀ w ∈ [writtenAt (lit "NULL, 'null')"), writtenAt (lit " 'null')")],
        (w.cell.isNull = true ↔ w.isNullKeyword = true) := by
      decide +kernel
    exact w.isNull_cell_iff.mp (hall w (List.of_mem_zip (mem_zip_of_lastFor hw)).2)

/-- A quoted text is stored as NULL, and the keyword in small letters as a text, in a
column that must not be NULL. -/
theorem quotedNull_misread :
    ∃ row : InsertRow, parseInsertStatement strictTables
        (lit "INSERT INTO t VALUES ('NULL', null)") .empty = .ok ⟨[row], by simp⟩ ∧
      (row.row.cell 0).isNull = true ∧ row.row.cell 1 = ⟨snprintf (lit "null"), false⟩ ∧
      validateBatchRows strictTables ⟨[row], by simp⟩ = .ok () ∧
      ∀ r tuples, Reading.Of strictTables (lit "INSERT INTO t VALUES ('NULL', null)") r →
        TuplesWritten (r.values.drop 6) tuples → ¬ r.NullsClassified strictTables tuples := by
  refine ⟨⟨0, ((blankRow strictTable).store 0 ⟨snprintf [], true⟩).store 1
    ⟨snprintf (lit "null"), false⟩⟩, by decide +kernel, by decide +kernel, by decide +kernel,
    by decide +kernel, fun r tuples hr htuples hclassified => ?_⟩
  have hsplit : lit "INSERT INTO t VALUES ('NULL', null)" =
      lit "INSERT INTO t VALUES " ++ lit "('NULL', null)" := by
    decide +kernel
  have hopen : skipWs (lit " " ++ lit "('NULL', null)") = openParen :: lit "'NULL', null)" := by
    decide +kernel
  have hcomma : skipWs (parseValue (lit "'NULL', null)")).2 = comma :: lit " null)" := by
    decide +kernel
  have hclose : skipWs (parseValue (lit " null)")).2 = closeParen :: [] := by
    decide +kernel
  have hwritten := tuplesWritten_pair hopen (by decide) hcomma (by decide) hclose rfl
  have hof := strictReading_of hwritten (by simp)
  rw [← hsplit] at hof
  rw [hr.unique hof] at htuples hclassified
  obtain rfl := htuples.unique hwritten
  have hquoted : writtenAt (lit "'NULL', null)") = .quoted (lit "NULL") := by
    decide +kernel
  have hmisread : (writtenAt (lit "'NULL', null)")).Misread := by
    rw [hquoted]
    exact .quoted (by decide)
  exact (hof.nullsClassified_iff _).mp hclassified _ List.mem_cons_self 0 _ rfl hmisread

end SqlCodeGenerator
