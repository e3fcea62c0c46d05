import SqlCodeGenerator.DdlRendering
import SqlCodeGenerator.Library.TextBuffers

/-!
# The DDL in its buffer

`appendf` and `generate_sql` of `model.c` once more, on the bytes of `out`: what the buffer
holds before the call is arbitrary, `strlen` looks for the NUL, and `vsnprintf` writes byte
after byte.  An access outside the buffer has no result.

* `Bytes.generateSql_eq_foldlM`: the loops append the pieces of the schema;
* `boundedRendering`: every access is inside the buffer, and what it holds in the end is
  the whole rendering, cut once;
* `Bytes.generateSql_refines`: this is the text that `generateSql` says.
-/

namespace SqlCodeGenerator

open Library

namespace Bytes

/-! ## The calls on the bytes -/

/-- `strlen`, for a string that ends inside the buffer. -/
def strlen (out : List UInt8) : Option Nat := textLength 0 out

/-- `vsnprintf(out + used, room, fmt, ap)`, with what the format makes of its arguments. -/
def vsnprintf (out : List UInt8) (used room : Nat) (text : CString) : Option (List UInt8) :=
  placeCut 0 out used room (text.map Subtype.val)

/-- `appendf`. -/
def appendf (outLen : Nat) (out : List UInt8) (text : CString) : Option (List UInt8) := do
  let used ← strlen out
  if used ≥ outLen then some out else vsnprintf out used (outLen - used) text

/-- The body of the loop over the columns. -/
def appendColumn (outLen : Nat) (out : List UInt8) (c : Column) (last : Bool) :
    Option (List UInt8) := do
  let out ← appendf outLen out (lit "    " ++ c.name.chars ++ lit " " ++ c.type.chars)
  let out ← if c.primaryKey then appendf outLen out (lit " PRIMARY KEY") else some out
  let out ←
    if c.notNull && !c.primaryKey then appendf outLen out (lit " NOT NULL") else some out
  let out ← if c.unique && !c.primaryKey then appendf outLen out (lit " UNIQUE") else some out
  let out ←
    if c.refTable.chars ≠ [] then
      appendf outLen out
        (lit " REFERENCES " ++ c.refTable.chars ++ lit "(" ++ c.refColumn.chars ++ lit ")")
    else some out
  appendf outLen out ((if last then [] else lit ",") ++ lit "\n")

/-- The loop over the columns, from column `j` on. -/
def appendColumns (outLen columnCount : Nat) :
    Nat → List UInt8 → List Column → Option (List UInt8)
  | _, out, [] => some out
  | j, out, c :: rest => do
      let out ← appendColumn outLen out c (j + 1 == columnCount)
      appendColumns outLen columnCount (j + 1) out rest

/-- The body of the loop over the tables. -/
def appendTable (outLen : Nat) (out : List UInt8) (t : Table) : Option (List UInt8) := do
  let out ← appendf outLen out (lit "CREATE TABLE " ++ t.name.chars ++ lit " (\n")
  let out ← appendColumns outLen t.columns.count 0 out t.columns.items
  appendf outLen out (lit ");\n\n")

/-- `generate_sql`: what it leaves in `out`. -/
def generateSql (tables : Tables) (outLen : Nat) (out : List UInt8) : Option (List UInt8) := do
  let out ← storeCell out 0 0
  if tables.count = 0 then
    vsnprintf out 0 outLen (lit "-- No ER diagram loaded.\n")
  else
    tables.items.foldlM (appendTable outLen) out

/-! ## The loops append the pieces -/

/-- The call for one piece. -/
def appendPiece (outLen : Nat) (out : List UInt8) (piece : DdlPiece) : Option (List UInt8) :=
  appendf outLen out piece.text

variable {outLen : Nat}

theorem appendColumn_eq_foldlM (out : List UInt8) (c : Column) (last : Bool) :
    appendColumn outLen out c last = (columnPieces c last).foldlM (appendPiece outLen) out := by
  unfold appendColumn columnPieces clausePieces
  rw [List.foldlM_cons]
  show _ = (appendf outLen out _).bind _
  congr 1
  funext out
  -- a clause that is not printed is an empty list of pieces
  cases c.primaryKey <;> cases c.notNull <;> cases c.unique <;>
    by_cases href : c.refTable.chars = [] <;>
      simp [href, appendPiece, DdlPiece.text]

theorem appendColumns_eq_foldlM {columnCount j : Nat} (out : List UInt8) {columns : List Column}
    (hcount : j + columns.length = columnCount) :
    appendColumns outLen columnCount j out columns =
      (columnsPieces columns).foldlM (appendPiece outLen) out := by
  induction columns generalizing j out with
  | nil => rfl
  | cons c rest ih =>
      have hlast : (j + 1 == columnCount) = rest.isEmpty := by
        rw [← hcount]
        cases rest with
        | nil => exact beq_self_eq_true _
        | cons d rest =>
            refine beq_eq_false_iff_ne.mpr ?_
            rw [List.length_cons, List.length_cons]
            omega
      rw [appendColumns, columnsPieces, List.foldlM_append, hlast, appendColumn_eq_foldlM]
      congr 1
      funext out
      refine ih out ?_
      rw [List.length_cons] at hcount
      omega

theorem appendTable_eq_foldlM (out : List UInt8) (t : Table) :
    appendTable outLen out t = (tablePieces t).foldlM (appendPiece outLen) out := by
  have hcount : 0 + t.columns.items.length = t.columns.count := Nat.zero_add _
  rw [tablePieces, List.foldlM_cons]
  unfold appendTable
  congr 1
  funext out
  rw [appendColumns_eq_foldlM out hcount, List.foldlM_append]
  congr 1
  funext out
  rw [List.foldlM_cons]
  exact (bind_pure _).symm

/-- The loop over the tables. -/
theorem foldlM_appendTable (out : List UInt8) (tables : List Table) :
    tables.foldlM (appendTable outLen) out =
      (tables.flatMap tablePieces).foldlM (appendPiece outLen) out := by
  induction tables generalizing out with
  | nil => rfl
  | cons t rest ih =>
      rw [List.foldlM_cons, List.flatMap_cons, List.foldlM_append, appendTable_eq_foldlM]
      congr 1
      funext out
      exact ih out

/-- `generate_sql` empties the buffer and appends the pieces of the schema. -/
theorem generateSql_eq_foldlM {tables : Tables} (hcount : tables.count ≠ 0) (byte : UInt8)
    (out : List UInt8) :
    generateSql tables outLen (byte :: out) =
      (ddlPieces tables).foldlM (appendPiece outLen) (0 :: out) := by
  have hstore : storeCell (byte :: out) 0 0 = some (0 :: out) := if_pos (Nat.succ_pos _)
  unfold generateSql
  rw [hstore]
  show (if tables.count = 0 then _ else tables.items.foldlM (appendTable outLen) (0 :: out)) = _
  rw [if_neg hcount]
  exact foldlM_appendTable (0 :: out) tables.items

/-! ## The text in the buffer -/

/-- No byte of a string is NUL. -/
theorem zero_notMem_bytes (text : CString) : (0 : UInt8) ∉ text.map Subtype.val := by
  intro hmem
  obtain ⟨c, -, hc⟩ := List.mem_map.mp hmem
  exact c.property hc

/-- The string of a buffer that holds it. -/
theorem cstr_of_contains {out : List UInt8} {text : CString}
    (h : Contains 0 out (text.map Subtype.val)) : cstr out = text := by
  obtain ⟨-, rest, rfl⟩ := h
  induction text with
  | nil => rfl
  | cons c text ih =>
      rw [List.map_cons, List.cons_append, cstr, dif_pos c.property, ih]

/-- The buffer in the end holds the whole rendering, cut once. -/
theorem generateSql_contains (tables : Tables) {out : List UInt8} (hlen : 1 ≤ out.length) :
    ∃ out', generateSql tables out.length out = some out' ∧ out'.length = out.length ∧
      Contains 0 out' (((ddl tables).take (out.length - 1)).map Subtype.val) := by
  cases out with
  | nil => exact absurd hlen (Nat.not_succ_le_zero 0)
  | cons byte out =>
      have hempty : Contains (0 : UInt8) (0 :: out) [] := contains_nil 0 out
      rw [List.map_take]
      by_cases hcount : tables.count = 0
      · obtain ⟨out', hplace, hlength, hheld⟩ := placeCut_spec hempty
          (zero_notMem_bytes (lit "-- No ER diagram loaded.\n"))
        refine ⟨out', ?_, hlength, ?_⟩
        · have hstore : storeCell (byte :: out) 0 0 = some (0 :: out) := if_pos (Nat.succ_pos _)
          unfold generateSql
          rw [hstore]
          show (if tables.count = 0 then _ else _) = _
          rw [if_pos hcount]
          exact hplace
        · rw [ddl, if_pos hcount]
          exact hheld
      · have hstart : Contains (0 : UInt8) (0 :: out)
            (([] : List UInt8).take ((byte :: out).length - 1)) := by
          rw [List.take_nil]
          exact hempty
        obtain ⟨out', happend, hlength, hheld⟩ := foldlM_appendCut_spec
          (fun piece : DdlPiece => piece.text.map Subtype.val) (ddlPieces tables)
          (fun piece _ => zero_notMem_bytes piece.text) rfl hstart
        refine ⟨out', ?_, hlength, ?_⟩
        · rw [generateSql_eq_foldlM hcount]
          exact happend
        · rw [ddl, if_neg hcount, piecesText, List.map_flatMap]
          exact hheld

end Bytes

/-- For every schema and every buffer of at least one byte, `generate_sql` makes no access
outside the buffer and leaves a NUL-terminated string in it: as much of the whole rendering
as there is room for.  In a buffer with room for all of it, that is the whole rendering. -/
theorem boundedRendering (tables : Tables) :
    (∀ out : List UInt8, 1 ≤ out.length →
      ∃ out', Bytes.generateSql tables out.length out = some out' ∧
        out'.length = out.length ∧
        Bytes.strlen out' = some (min (ddl tables).length (out.length - 1)) ∧
        cstr out' = (ddl tables).take (min (ddl tables).length (out.length - 1))) ∧
    ∀ out : List UInt8, (ddl tables).length < out.length →
      ∃ out', Bytes.generateSql tables out.length out = some out' ∧ cstr out' = ddl tables := by
  constructor
  · intro out hlen
    obtain ⟨out', hrun, hlength, hheld⟩ := Bytes.generateSql_contains tables hlen
    refine ⟨out', hrun, hlength, ?_, ?_⟩
    · have hend : Bytes.strlen out' = some _ := hheld.textLength_eq
      rw [hend, List.length_map, List.length_take, Nat.min_comm]
    · rw [Bytes.cstr_of_contains hheld, List.take_eq_take_min, Nat.min_comm]
  · intro out hroom
    have hlen : 1 ≤ out.length := Nat.one_le_of_lt hroom
    obtain ⟨out', hrun, -, hheld⟩ := Bytes.generateSql_contains tables hlen
    refine ⟨out', hrun, ?_⟩
    rw [Bytes.cstr_of_contains hheld]
    exact List.take_of_length_le (by omega)

/-! ### A buffer that ends inside a column -/

/-- A table of one column. -/
def keyOnlyTables : Tables :=
  ⟨[⟨snprintf (lit "t"),
    ⟨[⟨snprintf (lit "id"), snprintf (lit "INT"), true, false, false, snprintf [], snprintf []⟩],
      by decide⟩, .empty⟩], by decide⟩

/-- The line of the column is cut behind its second blank, and nothing follows it. -/
theorem boundedRendering_cut :
    ∃ out', Bytes.generateSql keyOnlyTables 20 (List.replicate 20 255) = some out' ∧
      cstr out' = lit "CREATE TABLE t (\n  " := by
  have hlen : 1 ≤ (List.replicate 20 (255 : UInt8)).length := by decide
  obtain ⟨out', hrun, -, -, htext⟩ := (boundedRendering keyOnlyTables).1 _ hlen
  refine ⟨out', hrun, ?_⟩
  rw [htext]
  decide +kernel

/-- The text-level model of `generate_sql` says what its bytes hold. -/
theorem Bytes.generateSql_refines (tables : Tables) {out : List UInt8} (hlen : 1 ≤ out.length) :
    ∃ out', Bytes.generateSql tables out.length out = some out' ∧
      cstr out' = SqlCodeGenerator.generateSql tables out.length := by
  obtain ⟨out', hrun, -, hheld⟩ := Bytes.generateSql_contains tables hlen
  refine ⟨out', hrun, ?_⟩
  rw [Bytes.cstr_of_contains hheld, generateSql_eq]

end SqlCodeGenerator
