import SqlCodeGenerator.Model

/-!
# The DDL generator

`appendf` and `generate_sql` of `model.c`.  The text grows piece by piece in the
caller's buffer, and every piece is cut to the room that is left.
-/

namespace SqlCodeGenerator

/-- `appendf(out, out_len, "%s", text)`. -/
def appendf (outLen : Nat) (out text : CString) : CString :=
  if out.length ≥ outLen then out else out ++ text.take (outLen - out.length - 1)

/-- The pieces appended for one column. -/
def appendColumn (outLen : Nat) (out : CString) (c : Column) (last : Bool) : CString :=
  let out := appendf outLen out (lit "    " ++ c.name.chars ++ lit " " ++ c.type.chars)
  let out := if c.primaryKey then appendf outLen out (lit " PRIMARY KEY") else out
  let out := if c.notNull && !c.primaryKey then appendf outLen out (lit " NOT NULL") else out
  let out := if c.unique && !c.primaryKey then appendf outLen out (lit " UNIQUE") else out
  let out :=
    if c.refTable.chars ≠ [] then
      appendf outLen out
        (lit " REFERENCES " ++ c.refTable.chars ++ lit "(" ++ c.refColumn.chars ++ lit ")")
    else out
  appendf outLen out ((if last then [] else lit ",") ++ lit "\n")

/-- The loop over the columns of a table. -/
def appendColumns (outLen : Nat) : CString → List Column → CString
  | out, [] => out
  | out, c :: rest => appendColumns outLen (appendColumn outLen out c rest.isEmpty) rest

/-- The pieces appended for one table. -/
def appendTable (outLen : Nat) (out : CString) (t : Table) : CString :=
  let out := appendf outLen out (lit "CREATE TABLE " ++ t.name.chars ++ lit " (\n")
  let out := appendColumns outLen out t.columns.items
  appendf outLen out (lit ");\n\n")

/-- `generate_sql`: the text it leaves in a buffer of `outLen` characters. -/
def generateSql (tables : Tables) (outLen : Nat) : CString :=
  if tables.count = 0 then
    (lit "-- No ER diagram loaded.\n").take (outLen - 1)
  else
    tables.items.foldl (appendTable outLen) []

end SqlCodeGenerator
