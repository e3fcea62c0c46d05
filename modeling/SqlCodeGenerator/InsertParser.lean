import SqlCodeGenerator.Library.Outcome
import SqlCodeGenerator.Library.Scanning
import SqlCodeGenerator.Library.Splitting
import SqlCodeGenerator.Model

/-!
# The INSERT parser of `model.c`

`parse_identifier`, `parse_value`, `parse_insert_statement` and `parse_batch`.
A function that moves `const char **pp` returns the suffix it leaves the pointer
at.  The parser reads `state->tables` only, so it takes the tables.

`column_map` has `MAX_COLUMNS` places and the source writes it without a test;
the write past its end is the outcome `fault`.  Every other failure is
`error` with the text given to `set_err` or `snprintf(err, ...)`; the caller's
buffer cuts that text.
-/

namespace SqlCodeGenerator

open Library

abbrev maxBatchRows : Nat := 256

/-- The size of the buffer `stmt` of `parse_batch`. -/
abbrev maxStatement : Nat := 16384

/-- `InsertRow`. -/
structure InsertRow where
  tableIndex : Fin maxTables
  row : Row
  deriving DecidableEq

/-- `InsertBatch`. -/
abbrev InsertBatch := CountedArray InsertRow maxBatchRows

/-- `column_map` with `value_columns`: the column of each value, in order. -/
abbrev ColumnMap := CountedArray (Fin maxColumns) maxColumns

/-! ## Identifiers and values -/

/-- The quotes an identifier may stand in. -/
def isIdentifierQuote (c : CChar) : Bool := c = doubleQuote || c = backtick

/-- The characters of a bare identifier. -/
def isIdentifierChar (c : CChar) : Bool := isAlnum c || c = chr '_'

/-- `parse_identifier`: the name, and the position after it. -/
def parseIdentifier (p : CString) (outLen : Nat) : Option (CString × CString) :=
  match skipWs p with
  | [] => none
  | c :: rest =>
      if isIdentifierQuote c then
        -- the loop also stops when `out` is full, and then the quote is missing
        match spanUpTo (fun d => d ≠ c) (outLen - 1) rest with
        | (_, []) => none
        | (name, d :: after) => if d = c ∧ name ≠ [] then some (name, after) else none
      else
        match spanUpTo isIdentifierChar (outLen - 1) (c :: rest) with
        | (name, after) => if name ≠ [] then some (name, after) else none

/-- The text of a quoted value from behind its opening apostrophe: a doubled
apostrophe is one character, a single one ends the value. -/
def quotedText : CString → CString × CString
  | [] => ([], [])
  | c :: p =>
      if c = apostrophe then
        match p with
        | [] => ([], [])
        | d :: q =>
            if d = apostrophe then
              (apostrophe :: (quotedText q).1, (quotedText q).2)
            else
              ([], d :: q)
      else
        (c :: (quotedText p).1, (quotedText p).2)

/-- The characters of a bare value: all up to a comma or a closing parenthesis. -/
def isBareValueChar (c : CChar) : Bool := c ≠ comma && c ≠ closeParen

/-- The text of the value at a position, before trimming, and the position
after it. -/
def valueText : CString → CString × CString
  | [] => ([], [])
  | c :: p =>
      if c = apostrophe then
        quotedText p
      else
        ((c :: p).takeWhile isBareValueChar, (c :: p).dropWhile isBareValueChar)

/-- The cell of a value text: what fits in the buffer, trimmed, and the marker
for the text `NULL`. -/
def cellOfText (text : CString) : Cell :=
  let value := trimInplace (text.take (maxValue - 1))
  if value = lit "NULL" then ⟨snprintf [], true⟩ else ⟨snprintf value, false⟩

/-- `parse_value`: the cell, and the position after the value. -/
def parseValue (p : CString) : Cell × CString :=
  (cellOfText (valueText (skipWs p)).1, (valueText (skipWs p)).2)

/-! ### The scanners only move forward -/

theorem length_skipWs_le (p : CString) : (skipWs p).length ≤ p.length :=
  length_dropWhile_le isSpace p

theorem length_spanUpTo_snd (test : CChar → Bool) (room : Nat) (p : CString) :
    (spanUpTo test room p).2.length = p.length - (spanUpTo test room p).1.length := by
  have hsplit := congrArg List.length (spanUpTo_append test room p)
  rw [List.length_append] at hsplit
  omega

/-- An identifier takes at least one character. -/
theorem length_parseIdentifier_lt {p : CString} {outLen : Nat} {name after : CString}
    (h : parseIdentifier p outLen = some (name, after)) : after.length < p.length := by
  unfold parseIdentifier at h
  have hskip := length_skipWs_le p
  split at h
  · cases h
  · next c rest hp =>
      rw [hp, List.length_cons] at hskip
      split at h
      · split at h
        · cases h
        · next name' d after' hspan =>
            split at h
            · simp only [Option.some.injEq, Prod.mk.injEq] at h
              obtain ⟨rfl, rfl⟩ := h
              have hlen := congrArg List.length (congrArg Prod.snd hspan)
              rw [length_spanUpTo_snd, List.length_cons] at hlen
              omega
            · cases h
      · split at h
        next name' after' hspan =>
          split at h
          · next hname =>
              simp only [Option.some.injEq, Prod.mk.injEq] at h
              obtain ⟨rfl, rfl⟩ := h
              have hlen := congrArg List.length (congrArg Prod.snd hspan)
              rw [length_spanUpTo_snd, congrArg Prod.fst hspan, List.length_cons] at hlen
              have hpos := List.length_pos_of_ne_nil hname
              simp only at hlen
              omega
          · cases h

theorem quotedText_cons {c : CChar} (hc : c ≠ apostrophe) (p : CString) :
    quotedText (c :: p) = (c :: (quotedText p).1, (quotedText p).2) := by
  rw [quotedText.eq_def]
  simp [hc]

theorem quotedText_doubled (p : CString) :
    quotedText (apostrophe :: apostrophe :: p) =
      (apostrophe :: (quotedText p).1, (quotedText p).2) := by
  rw [quotedText.eq_def]
  simp

theorem quotedText_close {p : CString} (hp : p.head? ≠ some apostrophe) :
    quotedText (apostrophe :: p) = ([], p) := by
  rw [quotedText.eq_def]
  cases p with
  | nil => simp
  | cons d q =>
      have hd : d ≠ apostrophe := by simpa using hp
      simp [hd]

/-- The three ways a quoted text goes on, as an induction principle. -/
theorem quotedText_induction {motive : CString → Prop} (nil : motive [])
    (char : ∀ c p, c ≠ apostrophe → motive p → motive (c :: p))
    (doubled : ∀ p, motive p → motive (apostrophe :: apostrophe :: p))
    (close : ∀ p, p.head? ≠ some apostrophe → motive (apostrophe :: p))
    (p : CString) : motive p := by
  induction hn : p.length using Nat.strong_induction_on generalizing p with
  | _ n ih =>
      subst hn
      cases p with
      | nil => exact nil
      | cons c p =>
          by_cases hc : c = apostrophe
          · subst hc
            cases p with
            | nil => exact close [] (by simp)
            | cons d q =>
                by_cases hd : d = apostrophe
                · subst hd
                  exact doubled q (ih q.length (by simp) q rfl)
                · exact close (d :: q) (by simpa using hd)
          · exact char c p hc (ih p.length (by simp) p rfl)

theorem length_quotedText_le (p : CString) : (quotedText p).2.length ≤ p.length := by
  induction p using quotedText_induction with
  | nil => simp [quotedText]
  | char c p hc ih =>
      rw [quotedText_cons hc, List.length_cons]
      exact Nat.le_succ_of_le ih
  | doubled p ih =>
      rw [quotedText_doubled, List.length_cons, List.length_cons]
      exact Nat.le_succ_of_le (Nat.le_succ_of_le ih)
  | close p hp =>
      rw [quotedText_close hp, List.length_cons]
      exact Nat.le_succ _

theorem length_valueText_le (p : CString) : (valueText p).2.length ≤ p.length := by
  unfold valueText
  split
  · simp
  · next c q =>
      split
      · exact Nat.le_succ_of_le (length_quotedText_le q)
      · exact length_dropWhile_le isBareValueChar (c :: q)

theorem length_parseValue_le (p : CString) : (parseValue p).2.length ≤ p.length :=
  (length_valueText_le (skipWs p)).trans (length_skipWs_le p)

/-! ## The column list -/

/-- The message for a listed column that the table does not have. -/
def unknownColumn (tableName colName : CString) : CString :=
  lit "constraint failed: unknown column '" ++ tableName ++ lit "." ++ colName ++ lit "'"

/-- The loop over an explicit column list, from behind its opening parenthesis
to behind its closing one. -/
def columnList (table : Table) (tableName : CString) (map : ColumnMap) (p : CString) :
    Outcome CString (ColumnMap × CString) :=
  match p with
  | [] => .error (lit "unterminated column list")
  | c :: rest =>
      if c = closeParen then
        .ok (map, rest)
      else
        match _hname : parseIdentifier (c :: rest) maxName with
        | none => .error (lit "expected column name")
        | some (colName, after) =>
            match findColumn table colName with
            | none => .error (unknownColumn tableName colName)
            | some ci =>
                -- `column_map[value_columns++] = ci`, whatever `value_columns` is
                match map.push? ci with
                | none => .fault
                | some map =>
                    match _hsep : skipWs after with
                    | [] => .error (lit "expected comma or ')' in column list")
                    | d :: next =>
                        if d = comma then
                          columnList table tableName map next
                        else if d = closeParen then
                          .ok (map, next)
                        else
                          .error (lit "expected comma or ')' in column list")
  termination_by p.length
  decreasing_by
    have hafter := length_parseIdentifier_lt _hname
    have hskip := length_skipWs_le after
    rw [_hsep] at hskip
    simp only [List.length_cons] at hafter hskip ⊢
    omega

/-- The columns of a table in their natural order. -/
def naturalColumns (table : Table) : ColumnMap :=
  ⟨table.columns.places.map Prod.fst, by
    simpa [CountedArray.count] using table.columns.fits⟩

/-- `column_map` and the position after the column list, if there is one. -/
def columnMap (table : Table) (tableName : CString) (p : CString) :
    Outcome CString (ColumnMap × CString) :=
  match p with
  | [] => .ok (naturalColumns table, [])
  | c :: rest =>
      if c = openParen then
        columnList table tableName .empty rest
      else
        .ok (naturalColumns table, c :: rest)

/-! ## The tuples -/

/-- The row after `memset`, with every column of the table marked NULL. -/
def blankRow (table : Table) : Row :=
  ⟨.tabulate fun c => ⟨snprintf [], decide (c.val < table.columns.count)⟩⟩

/-- The loop over one tuple, from behind its opening parenthesis to behind its
closing one.  `columns` is what is left of `column_map`. -/
def tupleValues (columns : List (Fin maxColumns)) (row : Row) (p : CString) :
    Outcome CString (Row × CString) :=
  match p, columns with
  | [], _ => .error (lit "unterminated values tuple")
  | c :: rest, [] =>
      if c = closeParen then .ok (row, rest) else .error (lit "too many values")
  | c :: rest, ci :: columns =>
      if c = closeParen then
        .error (lit "column count and value count differ")
      else
        let row := row.store ci (parseValue (c :: rest)).1
        match skipWs (parseValue (c :: rest)).2 with
        | [] => .error (lit "expected comma or ')' in values tuple")
        | d :: next =>
            if d = comma then
              tupleValues columns row next
            else if d = closeParen then
              -- the loop ends here and the values are counted
              tupleValues columns row (d :: next)
            else
              .error (lit "expected comma or ')' in values tuple")

theorem length_tupleValues_lt {columns : List (Fin maxColumns)} {row row' : Row}
    {p after : CString} (h : tupleValues columns row p = .ok (row', after)) :
    after.length < p.length := by
  induction columns generalizing row p with
  | nil =>
      cases p with
      | nil => simp [tupleValues] at h
      | cons c rest =>
          rw [tupleValues] at h
          split at h
          · simp only [Outcome.ok.injEq, Prod.mk.injEq] at h
            simp [h.2]
          · cases h
  | cons ci columns ih =>
      cases p with
      | nil => simp [tupleValues] at h
      | cons c rest =>
          rw [tupleValues] at h
          have hvalue := length_parseValue_le (c :: rest)
          have hskip := length_skipWs_le (parseValue (c :: rest)).2
          split at h
          · cases h
          · simp only at h
            split at h
            · cases h
            · next d next hsep =>
                rw [hsep, List.length_cons] at hskip
                split at h
                · have := ih h
                  omega
                · split at h
                  · have := ih h
                    rw [List.length_cons] at this
                    omega
                  · cases h

/-- The loop over the tuples behind `VALUES`. -/
def valuesTuples (tableIndex : Fin maxTables) (table : Table) (map : ColumnMap)
    (p : CString) (batch : InsertBatch) : Outcome CString InsertBatch :=
  match _hp : skipWs p with
  | [] => .ok batch
  | c :: rest =>
      if c = comma then
        -- any number of commas may stand before, between and behind the tuples
        valuesTuples tableIndex table map rest batch
      else if c ≠ openParen then
        .error (lit "expected '(' before values tuple")
      else if batch.count ≥ maxBatchRows then
        .error (lit "too many rows in insert batch")
      else
        match _htuple : tupleValues map.items (blankRow table) rest with
        | .error message => .error message
        | .fault => .fault
        | .ok (row, after) =>
            match batch.push? ⟨tableIndex, row⟩ with
            | none => .fault
            | some batch => valuesTuples tableIndex table map after batch
  termination_by p.length
  decreasing_by
    · have hskip := length_skipWs_le p
      rw [_hp, List.length_cons] at hskip
      omega
    · have hskip := length_skipWs_le p
      rw [_hp, List.length_cons] at hskip
      have := length_tupleValues_lt _htuple
      omega

/-! ## Statements -/

/-- What stands between the beginning of a statement and its column list: the
table named, and the position after its name and the white space behind it. -/
structure InsertTarget where
  tableName : CString
  tableIndex : Fin maxTables
  table : Table
  after : CString

/-- The beginning of `parse_insert_statement`: `INSERT`, `INTO`, the table. -/
def insertTarget (tables : Tables) (p : CString) : Outcome CString InsertTarget := do
  .failWhen (¬ ciStarts p (lit "insert")) (lit "only INSERT statements are accepted")
  let p := skipWs (p.drop 6)
  .failWhen (¬ ciStarts p (lit "into")) (lit "expected INTO")
  match parseIdentifier (p.drop 4) maxName with
  | none => .error (lit "expected table name")
  | some (tableName, p) =>
      match findTable tables tableName with
      | none =>
          .error (lit "constraint failed: table '" ++ tableName ++ lit "' does not exist")
      | some tableIndex =>
          match tables.items[tableIndex.val]? with
          | none => .fault
          | some table => .ok ⟨tableName, tableIndex, table, skipWs p⟩

/-- The end of `parse_insert_statement`: the jump to `VALUES` and the tuples. -/
def insertValues (target : InsertTarget) (map : ColumnMap) (p : CString)
    (batch : InsertBatch) : Outcome CString InsertBatch :=
  -- the search is for the letters, wherever they stand
  match ciFind p (lit "values") with
  | none => .error (lit "expected VALUES")
  | some p => valuesTuples target.tableIndex target.table map (p.drop 6) batch

/-- `parse_insert_statement`. -/
def parseInsertStatement (tables : Tables) (stmt : CString) (batch : InsertBatch) :
    Outcome CString InsertBatch :=
  let p := skipWs stmt
  if p = [] then
    .ok batch
  else do
    let target ← insertTarget tables p
    let (map, p) ← columnMap target.table target.tableName target.after
    insertValues target map p batch

/-! ## Batches -/

/-- What the splitting loop of `parse_batch` remembers: `in_string` and `p[-1]`
(no character stands before the text). -/
structure SplitState where
  inString : Bool
  previous : Option CChar
  deriving DecidableEq

def splitStart : SplitState := ⟨false, none⟩

/-- One character of the splitting loop: an apostrophe toggles `in_string`
unless a backslash stands before it. -/
def splitStep (s : SplitState) (c : CChar) : SplitState :=
  ⟨if c = apostrophe ∧ s.previous ≠ some backslash then !s.inString else s.inString, some c⟩

/-- A semicolon outside strings ends a statement. -/
def splitCuts (s : SplitState) (c : CChar) : Bool := c = semicolon && !s.inString

/-- The statement texts of a batch, as the splitting loop cuts them. -/
def splitStatements (sql : CString) : List CString :=
  cutText splitStep splitCuts splitStart sql

/-- The statements one after the other: each is copied into `stmt`, trimmed, and
parsed unless it is empty. -/
def parseStatements (tables : Tables) :
    List CString → InsertBatch → Outcome CString InsertBatch
  | [], batch => .ok batch
  | text :: rest, batch =>
      if text.length ≥ maxStatement then
        .error (lit "statement too large")
      else if trimInplace text = [] then
        parseStatements tables rest batch
      else do
        let batch ← parseInsertStatement tables (trimInplace text) batch
        parseStatements tables rest batch

/-- `parse_batch`. -/
def parseBatch (tables : Tables) (sql : CString) : Outcome CString InsertBatch := do
  let batch ← parseStatements tables (splitStatements sql) .empty
  if batch.count = 0 then .error (lit "empty insert batch") else .ok batch

end SqlCodeGenerator
