import SqlCodeGenerator.SqlGenerator

/-!
# The DDL as a sequence of pieces

Every call of `appendf` in `generate_sql` appends one piece.  `ddlPieces` lists
the pieces of a schema in the order of the calls, each with what it is about, and
`ddl` is the text they make together.

* `appendf_eq`: a call appends its piece and cuts the result to the buffer, as
  long as the text before it is inside the buffer;
* `generateSql_eq`: the text left in the buffer is the whole rendering, cut once.
-/

namespace SqlCodeGenerator

/-! ## The pieces -/

/-- What one call of `appendf` in `generate_sql` prints. -/
inductive DdlPiece where
  | createTable (name : CString)
  | column (name type : CString)
  | primaryKey
  | notNull
  | unique
  | references (refTable refColumn : CString)
  | endColumn (last : Bool)
  | endTable
  deriving DecidableEq

/-- The text of a piece. -/
def DdlPiece.text : DdlPiece → CString
  | createTable name => lit "CREATE TABLE " ++ name ++ lit " (\n"
  | column name type => lit "    " ++ name ++ lit " " ++ type
  | primaryKey => lit " PRIMARY KEY"
  | notNull => lit " NOT NULL"
  | unique => lit " UNIQUE"
  | references refTable refColumn =>
      lit " REFERENCES " ++ refTable ++ lit "(" ++ refColumn ++ lit ")"
  | endColumn last => (if last then [] else lit ",") ++ lit "\n"
  | endTable => lit ");\n\n"

/-- The constraint clauses of a column. -/
def clausePieces (c : Column) : List DdlPiece :=
  (if c.primaryKey then [.primaryKey] else []) ++
    (if c.notNull && !c.primaryKey then [.notNull] else []) ++
    (if c.unique && !c.primaryKey then [.unique] else []) ++
    if c.refTable.chars ≠ [] then [.references c.refTable.chars c.refColumn.chars] else []

/-- The pieces of one column. -/
def columnPieces (c : Column) (last : Bool) : List DdlPiece :=
  .column c.name.chars c.type.chars :: (clausePieces c ++ [.endColumn last])

/-- The pieces of the columns of a table. -/
def columnsPieces : List Column → List DdlPiece
  | [] => []
  | c :: rest => columnPieces c rest.isEmpty ++ columnsPieces rest

/-- The pieces of one table. -/
def tablePieces (t : Table) : List DdlPiece :=
  .createTable t.name.chars :: (columnsPieces t.columns.items ++ [.endTable])

/-- The pieces of a schema, in the order they are printed. -/
def ddlPieces (tables : Tables) : List DdlPiece := tables.items.flatMap tablePieces

/-- The text that pieces make together. -/
def piecesText (pieces : List DdlPiece) : CString := pieces.flatMap DdlPiece.text

/-- The whole rendering of a schema. -/
def ddl (tables : Tables) : CString :=
  if tables.count = 0 then lit "-- No ER diagram loaded.\n" else piecesText (ddlPieces tables)

@[simp] theorem piecesText_nil : piecesText [] = [] := rfl

@[simp] theorem piecesText_cons (piece : DdlPiece) (pieces : List DdlPiece) :
    piecesText (piece :: pieces) = piece.text ++ piecesText pieces := List.flatMap_cons

@[simp] theorem piecesText_append (pieces pieces' : List DdlPiece) :
    piecesText (pieces ++ pieces') = piecesText pieces ++ piecesText pieces' :=
  List.flatMap_append

theorem piecesText_flatMap {α : Type} (f : α → List DdlPiece) (xs : List α) :
    piecesText (xs.flatMap f) = xs.flatMap fun x => piecesText (f x) :=
  List.flatMap_assoc

/-! ## Appending into a buffer -/

section Buffer

variable {outLen : Nat}

/-- A call of `appendf` cuts once what it makes of the text so far. -/
theorem appendf_eq (whole text : CString) :
    appendf outLen (whole.take (outLen - 1)) text = (whole ++ text).take (outLen - 1) := by
  unfold appendf
  split
  · next hfull =>
      -- only a buffer without any room is full: the text never reaches its last place
      have hnone : outLen = 0 := by
        rw [List.length_take] at hfull
        omega
      simp [hnone]
  · next hroom =>
      rw [List.take_append, List.length_take]
      congr 2
      rw [List.length_take] at hroom
      omega

/-- The pieces appended one after the other. -/
theorem foldl_appendf_eq (whole : CString) (pieces : List DdlPiece) :
    pieces.foldl (fun out piece => appendf outLen out piece.text) (whole.take (outLen - 1)) =
      (whole ++ piecesText pieces).take (outLen - 1) := by
  induction pieces generalizing whole with
  | nil => simp
  | cons piece pieces ih =>
      rw [List.foldl_cons, appendf_eq, ih, piecesText_cons, List.append_assoc]

/-- The body of the loop over the columns appends the pieces of the column. -/
theorem appendColumn_eq_foldl (out : CString) (c : Column) (last : Bool) :
    appendColumn outLen out c last =
      (columnPieces c last).foldl (fun out piece => appendf outLen out piece.text) out := by
  unfold appendColumn columnPieces clausePieces
  simp only [List.foldl_cons, List.foldl_append, List.foldl_nil, DdlPiece.text]
  congr 1
  -- a clause that is not printed is an empty list of pieces
  cases c.primaryKey <;> cases c.notNull <;> cases c.unique <;>
    by_cases href : c.refTable.chars = [] <;> simp [href]

theorem appendColumns_eq_foldl (out : CString) (columns : List Column) :
    appendColumns outLen out columns =
      (columnsPieces columns).foldl (fun out piece => appendf outLen out piece.text) out := by
  induction columns generalizing out with
  | nil => rfl
  | cons c rest ih =>
      rw [appendColumns, ih, columnsPieces, List.foldl_append, appendColumn_eq_foldl]

/-- The body of the loop over the tables appends the pieces of the table. -/
theorem appendTable_eq_foldl (out : CString) (t : Table) :
    appendTable outLen out t =
      (tablePieces t).foldl (fun out piece => appendf outLen out piece.text) out := by
  show appendf outLen (appendColumns outLen _ t.columns.items) (lit ");\n\n") = _
  rw [appendColumns_eq_foldl, tablePieces, List.foldl_cons, List.foldl_append]
  rfl

/-- `generate_sql` leaves the whole rendering, cut to the buffer. -/
theorem generateSql_eq (tables : Tables) (outLen : Nat) :
    generateSql tables outLen = (ddl tables).take (outLen - 1) := by
  unfold generateSql ddl
  split
  · rfl
  · have htables : ∀ (items : List Table) (whole : CString),
        items.foldl (appendTable outLen) (whole.take (outLen - 1)) =
          (whole ++ piecesText (items.flatMap tablePieces)).take (outLen - 1) := by
      intro items
      induction items with
      | nil => simp
      | cons t rest ih =>
          intro whole
          rw [List.foldl_cons, appendTable_eq_foldl, foldl_appendf_eq, ih, List.flatMap_cons,
            piecesText_append, List.append_assoc]
    simpa [ddlPieces] using htables tables.items []

end Buffer

end SqlCodeGenerator
