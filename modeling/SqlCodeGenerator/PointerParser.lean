import SqlCodeGenerator.InsertParser
import SqlCodeGenerator.Library.CheckedRuns

/-!
# The INSERT parser, pointer by pointer

The functions of the INSERT parser once more, this time with every step of a scanning
pointer, every write into a buffer, every use of an index and every loop as `model.c`
has them.

A pointer is the rest of the string that it points into, so the one at the NUL is `[]`.
It may be read there, and it must not be moved: `advance` leaves the text.  The text that
is written into a buffer so far gives the index of the next write.  Every loop gets
`fuel` rounds each time that it is entered.
-/

namespace SqlCodeGenerator
namespace Pointers

open Library

/-- The arrays that the parser indexes. -/
inductive ParserArray where
  /-- A string that is scanned: `sql`, `stmt`, or a value that is trimmed. -/
  | text
  /-- `out` of `parse_identifier`. -/
  | identifier
  /-- `value` of `parse_insert_statement`. -/
  | value
  | tables
  | columnMap
  | batchRows
  | stmt
  deriving DecidableEq

abbrev Run (α : Type) : Type := CheckedRun ParserArray CString α

abbrev Loop (σ ρ : Type) : Type := σ → Run (Round σ ρ)

/-! ## Pointers and buffers -/

/-- `p++`. -/
def advance : CString → Run CString
  | [] => .outside .text
  | _ :: p => .done p

/-- `p += n`. -/
def advanceBy : Nat → CString → Run CString
  | 0, p => .done p
  | n + 1, p => do
      let p ← advance p
      advanceBy n p

/-- `p[1]`, which is NUL where there is no character. -/
def charBehind : CString → Run (Option CChar)
  | [] => .outside .text
  | _ :: p => .done p.head?

/-- `p[-1]` for a pointer into `text`. -/
def charBefore (text p : CString) : Run (Option CChar) :=
  if p.length < text.length then .done text[text.length - p.length - 1]? else .outside .text

/-- `out[n++] = c` for a buffer of the given size. -/
def put (array : ParserArray) (size : Nat) (out : CString) (c : CChar) : Run CString := do
  .inside array out.length size
  .done (out ++ [c])

/-- `out[n] = '\0'`. -/
def endText (array : ParserArray) (size : Nat) (out : CString) : Run CString := do
  .inside array out.length size
  .done out

/-- Does a loop `while (*p != '\0' && *p != c)` end here? -/
def stopsAt (p : CString) (c : CChar) : Bool := p.head? = none || p.head? = some c

/-! ## The string helpers -/

/-- `skip_ws`. -/
def skipWs (fuel : Nat) : CString → Run CString :=
  .loop (fun p =>
    match p.head? with
    | none => .done (.stop p)
    | some c =>
        if isSpace c then do
          let p ← advance p
          .done (.next p)
        else
          .done (.stop p)) fuel

/-- The loop of `trim_inplace` at the end of the text. -/
def trimEnd (fuel : Nat) : CString → Run CString :=
  .loop (fun s =>
    match s.getLast? with
    | none => .done (.stop s)
    | some c => if isSpace c then .done (.next s.dropLast) else .done (.stop s)) fuel

/-- `trim_inplace`: the text from `start` on is moved to the front. -/
def trimInplace (fuel : Nat) (s : CString) : Run CString := do
  let s ← trimEnd fuel s
  skipWs fuel s

/-- `ci_starts`: the loop over the two pointers. -/
def ciStarts (fuel : Nat) (s word : CString) : Run Bool :=
  .loop (fun (s, word) =>
    match word with
    | [] => .done (.stop true)
    | d :: word =>
        if s.head?.map toLower = some (toLower d) then do
          let s ← advance s
          .done (.next (s, word))
        else
          .done (.stop false)) fuel (s, word)

/-- `ci_find`: the loop over the positions.  The one inside it is that of `ciStarts`: it
compares while both texts go on, and reports whether the word was used up. -/
def ciFind (fuel : Nat) (haystack needle : CString) : Run (Option CString) :=
  if needle = [] then
    .done (some haystack)
  else
    .loop (fun p =>
      match p.head? with
      | none => .done (.stop none)
      | some _ => do
          let found ← ciStarts fuel p needle
          if found then
            .done (.stop (some p))
          else do
            let p ← advance p
            .done (.next p)) fuel haystack

/-! ## Identifiers and values -/

/-- A loop that copies characters into `out` while they pass the test. -/
def copyWhile (test : CChar → Bool) (outLen fuel : Nat) (p : CString) :
    Run (CString × CString) :=
  .loop (fun (out, p) =>
    match p.head? with
    | none => .done (.stop (out, p))
    | some c =>
        if test c ∧ out.length + 1 < outLen then do
          let out ← put .identifier outLen out c
          let p ← advance p
          .done (.next (out, p))
        else
          .done (.stop (out, p))) fuel ([], p)

/-- The end of `parse_identifier`: the NUL, and the test for an empty name. -/
def endIdentifier (outLen : Nat) (out p : CString) : Run (Option (CString × CString)) := do
  let out ← endText .identifier outLen out
  if out = [] then .done none else .done (some (out, p))

/-- `parse_identifier`. -/
def parseIdentifier (fuel : Nat) (p : CString) (outLen : Nat) :
    Run (Option (CString × CString)) := do
  let p ← skipWs fuel p
  match p.head?.filter isIdentifierQuote with
  | some quote => do
      let p ← advance p
      let (out, p) ← copyWhile (fun d => d ≠ quote) outLen fuel p
      if p.head? = some quote then do
        let p ← advance p
        endIdentifier outLen out p
      else
        .done none
  | none => do
      let (out, p) ← copyWhile isIdentifierChar outLen fuel p
      endIdentifier outLen out p

/-- `if (n + 1 < value_len) value[n++] = c`. -/
def putValue (value : CString) (c : CChar) : Run CString :=
  if value.length + 1 < maxValue then put .value maxValue value c else .done value

/-- The loop of `parse_value` over a quoted value, from behind the opening apostrophe. -/
def quotedValue (fuel : Nat) (p : CString) : Run (CString × CString) :=
  .loop (fun (value, p) =>
    match p.head? with
    | none => .done (.stop (value, p))
    | some c =>
        if c = apostrophe then do
          let behind ← charBehind p
          if behind = some apostrophe then do
            let value ← putValue value apostrophe
            let p ← advanceBy 2 p
            .done (.next (value, p))
          else do
            let p ← advance p
            .done (.stop (value, p))
        else do
          let value ← putValue value c
          let p ← advance p
          .done (.next (value, p))) fuel ([], p)

/-- The loop of `parse_value` over a bare value. -/
def bareValue (fuel : Nat) (p : CString) : Run (CString × CString) :=
  .loop (fun (value, p) =>
    match p.head? with
    | none => .done (.stop (value, p))
    | some c =>
        if isBareValueChar c then do
          let value ← putValue value c
          let p ← advance p
          .done (.next (value, p))
        else
          .done (.stop (value, p))) fuel ([], p)

/-- The two branches of `parse_value`. -/
def copiedValue (fuel : Nat) (p : CString) : Run (CString × CString) :=
  if p.head? = some apostrophe then do
    let p ← advance p
    quotedValue fuel p
  else
    bareValue fuel p

/-- `parse_value`: `value`, `*is_null`, and the position after the value. -/
def parseValue (fuel : Nat) (p : CString) : Run (CString × Bool × CString) := do
  let p ← skipWs fuel p
  let (value, p) ← copiedValue fuel p
  let value ← endText .value maxValue value
  let value ← trimInplace fuel value
  if value = lit "NULL" then .done ([], true, p) else .done (value, false, p)

/-! ## The column list -/

/-- The loop over an explicit column list, from behind its opening parenthesis to behind
its closing one. -/
def columnList (fuel : Nat) (table : Table) (tableName p : CString) :
    Run (ColumnMap × CString) := do
  let (map, p) ← .loop (fun (map, p) =>
    if stopsAt p closeParen then
      .done (.stop (map, p))
    else do
      match ← parseIdentifier fuel p maxName with
      | none => .failed (lit "expected column name")
      | some (colName, p) =>
          match findColumn table colName with
          | none => .failed (unknownColumn tableName colName)
          | some ci =>
              -- `column_map[value_columns++] = ci`
              match map.push? ci with
              | none => .outside .columnMap
              | some map => do
                  let p ← skipWs fuel p
                  if p.head? = some comma then do
                    let p ← advance p
                    .done (.next (map, p))
                  else if p.head? = some closeParen then
                    .done (.next (map, p))
                  else
                    .failed (lit "expected comma or ')' in column list"))
    fuel ((CountedArray.empty : ColumnMap), p)
  if p.head? = some closeParen then do
    let p ← advance p
    .done (map, p)
  else
    .failed (lit "unterminated column list")

/-- `column_map` and the position after the column list, if there is one. -/
def columnMap (fuel : Nat) (table : Table) (tableName p : CString) :
    Run (ColumnMap × CString) :=
  if p.head? = some openParen then do
    let p ← advance p
    columnList fuel table tableName p
  else
    .done (naturalColumns table, p)

/-! ## The tuples -/

/-- `column_map[value_index]`, which must have been written. -/
def mappedColumn (map : ColumnMap) (valueIndex : Nat) : Run (Fin maxColumns) :=
  match map.items[valueIndex]? with
  | none => .outside .columnMap
  | some ci => .done ci

/-- The loop over one tuple, from behind its opening parenthesis to behind its closing
one. -/
def tupleValues (fuel : Nat) (map : ColumnMap) (row : Row) (p : CString) :
    Run (Row × CString) := do
  let (row, valueIndex, p) ← .loop (fun (row, valueIndex, p) =>
    if stopsAt p closeParen then
      .done (.stop (row, valueIndex, p))
    else if valueIndex ≥ map.count then
      .failed (lit "too many values")
    else do
      let (value, isNull, p) ← parseValue fuel p
      let ci ← mappedColumn map valueIndex
      let row := row.store ci ⟨snprintf value, isNull⟩
      let p ← skipWs fuel p
      if p.head? = some comma then do
        let p ← advance p
        .done (.next (row, valueIndex + 1, p))
      else if p.head? = some closeParen then
        .done (.next (row, valueIndex + 1, p))
      else
        .failed (lit "expected comma or ')' in values tuple"))
    fuel (row, 0, p)
  if p.head? ≠ some closeParen then
    .failed (lit "unterminated values tuple")
  else if valueIndex ≠ map.count then
    .failed (lit "column count and value count differ")
  else do
    let p ← advance p
    .done (row, p)

/-- The loop over the tuples behind `VALUES`. -/
def valuesTuples (fuel : Nat) (tableIndex : Fin maxTables) (table : Table) (map : ColumnMap)
    (p : CString) (batch : InsertBatch) : Run InsertBatch :=
  .loop (fun (p, batch) => do
    let p ← skipWs fuel p
    if p.head? = none then
      .done (.stop batch)
    else if p.head? = some comma then do
      let p ← advance p
      .done (.next (p, batch))
    else if p.head? ≠ some openParen then
      .failed (lit "expected '(' before values tuple")
    else do
      let p ← advance p
      if batch.count ≥ maxBatchRows then
        .failed (lit "too many rows in insert batch")
      else do
        -- `&batch->rows[batch->count]`
        .inside .batchRows batch.count maxBatchRows
        let (row, p) ← tupleValues fuel map (blankRow table) p
        match batch.push? ⟨tableIndex, row⟩ with
        | none => .outside .batchRows
        | some batch => .done (.next (p, batch))) fuel (p, batch)

/-! ## Statements -/

/-- The beginning of `parse_insert_statement`: `INSERT`, `INTO`, the table. -/
def insertTarget (fuel : Nat) (tables : Tables) (p : CString) : Run InsertTarget := do
  if ¬ (← ciStarts fuel p (lit "insert")) then
    .failed (lit "only INSERT statements are accepted")
  else do
    let p ← advanceBy 6 p
    let p ← skipWs fuel p
    if ¬ (← ciStarts fuel p (lit "into")) then
      .failed (lit "expected INTO")
    else do
      let p ← advanceBy 4 p
      match ← parseIdentifier fuel p maxName with
      | none => .failed (lit "expected table name")
      | some (tableName, p) =>
          match findTable tables tableName with
          | none =>
              .failed (lit "constraint failed: table '" ++ tableName ++ lit "' does not exist")
          | some tableIndex =>
              match tables.items[tableIndex.val]? with
              | none => .outside .tables
              | some table => do
                  let p ← skipWs fuel p
                  .done ⟨tableName, tableIndex, table, p⟩

/-- The end of `parse_insert_statement`: the jump to `VALUES` and the tuples. -/
def insertValues (fuel : Nat) (target : InsertTarget) (map : ColumnMap) (p : CString)
    (batch : InsertBatch) : Run InsertBatch := do
  match ← ciFind fuel p (lit "values") with
  | none => .failed (lit "expected VALUES")
  | some values => do
      let p ← advanceBy 6 values
      valuesTuples fuel target.tableIndex target.table map p batch

/-- `parse_insert_statement`. -/
def parseInsertStatement (fuel : Nat) (tables : Tables) (stmt : CString) (batch : InsertBatch) :
    Run InsertBatch := do
  let p ← skipWs fuel stmt
  if p.head? = none then
    .done batch
  else do
    let target ← insertTarget fuel tables p
    let (map, p) ← columnMap fuel target.table target.tableName target.after
    insertValues fuel target map p batch

/-! ## Batches -/

/-- The variables of the loop of `parse_batch`. -/
structure BatchScan where
  p : CString
  start : CString
  inString : Bool
  batch : InsertBatch

/-- Does the apostrophe at `p` begin or end a string? -/
def toggles (sql p : CString) : Run Bool :=
  if p.head? = some apostrophe then
    if p.length = sql.length then
      .done true
    else do
      let before ← charBefore sql p
      .done (before ≠ some backslash)
  else
    .done false

/-- The statement between `start` and `p`: it is copied into `stmt`, trimmed, and parsed
unless it is empty. -/
def parseStatement (fuel : Nat) (tables : Tables) (start p : CString) (batch : InsertBatch) :
    Run InsertBatch :=
  let len := start.length - p.length
  if len ≥ maxStatement then
    .failed (lit "statement too large")
  else do
    -- `memcpy(stmt, start, len)` and `stmt[len] = '\0'`
    .inside .stmt len maxStatement
    let stmt ← trimInplace fuel (start.take len)
    if stmt = [] then .done batch else parseInsertStatement fuel tables stmt batch

/-- One round of the loop of `parse_batch`. -/
def batchRound (fuel : Nat) (tables : Tables) (sql : CString) : Loop BatchScan InsertBatch :=
  fun s => do
    let toggled ← toggles sql s.p
    let inString := if toggled then !s.inString else s.inString
    if (s.p.head? = some semicolon ∧ inString = false) ∨ s.p.head? = none then do
      let batch ← parseStatement fuel tables s.start s.p s.batch
      if s.p.head? = none then
        .done (.stop batch)
      else do
        let start ← advance s.p
        .done (.next ⟨start, start, inString, batch⟩)
    else do
      let p ← advance s.p
      .done (.next { s with p := p, inString := inString })

/-- `parse_batch`. -/
def parseBatch (fuel : Nat) (tables : Tables) (sql : CString) : Run InsertBatch := do
  let batch ← .loop (batchRound fuel tables sql) fuel ⟨sql, sql, false, .empty⟩
  if batch.count = 0 then .failed (lit "empty insert batch") else .done batch

end Pointers
end SqlCodeGenerator
