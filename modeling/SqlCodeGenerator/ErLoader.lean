import SqlCodeGenerator.Model

/-!
# Loading an ER document

`read_json_file`, `cjson_copy_string`, `cjson_get_bool`, `load_column_json` and
`load_er_json` of `model.c`.

cJSON is not part of the repository.  `CJson` is the part of a parsed document
that the loader looks at, and the answer of `cJSON_ParseWithLength` on a text is
a parameter.  What the operating system answers on a path is an `ErFile`.

A loop of the source that returns in its middle has already written what it
wrote: `loadTables` and `loadErJson` answer with the tables they leave beside
their result.  Of `state->tables` only the first `table_count` entries are kept,
since nothing reads behind them.
-/

namespace SqlCodeGenerator

open Library

/-! ## Documents -/

/-- A document as cJSON parses it.  A number is its `valueint`. -/
inductive CJson where
  | null
  | bool (value : Bool)
  | number (valueint : Int)
  | string (valuestring : CString)
  | array (entries : List CJson)
  | object (members : List (CString × CJson))

namespace CJson

/-- `cJSON_IsObject`. -/
def isObject : CJson → Bool
  | object _ => true
  | _ => false

/-- `cJSON_GetObjectItemCaseSensitive`: the first member of that key.  Only the
children of an object have keys. -/
def getObjectItem (json : CJson) (key : CString) : Option CJson :=
  match json with
  | object members => (members.find? fun m => decide (m.1 = key)).map Prod.snd
  | _ => none

/-- `cJSON_IsArray` on a member, with what `cJSON_ArrayForEach` runs through. -/
def getArray (json : CJson) (key : CString) : Option (List CJson) :=
  match json.getObjectItem key with
  | some (array entries) => some entries
  | _ => none

/-- `cJSON_IsString` on a member, with its `valuestring`. -/
def getString (json : CJson) (key : CString) : Option CString :=
  match json.getObjectItem key with
  | some (string text) => some text
  | _ => none

end CJson

/-- `cjson_copy_string`: the text of a string member, cut to the buffer. -/
def cjsonCopyString {outLen : Nat} [NeZero outLen] (object : CJson) (key : CString) :
    Option (CBuf outLen) :=
  (object.getString key).map snprintf

/-- `cjson_get_bool`: a Boolean member, or a number other than zero. -/
def cjsonGetBool (object : CJson) (key : CString) : Bool :=
  match object.getObjectItem key with
  | some (.bool value) => value
  | some (.number valueint) => decide (valueint ≠ 0)
  | _ => false

/-! ## Files -/

abbrev maxErFileSize : Nat := 1024 * 1024

/-- What the calls of `read_json_file` answer on a path, in the order it makes
them.  `size` is the result of `ftell`, or the text of `strerror(errno)`; `data`
is what `fread` finds from the start of the file. -/
structure ErFile where
  opens : Bool
  seeksToEnd : Bool
  size : Except CString Nat
  rewinds : Bool
  allocates : Bool
  data : List UInt8

/-- A file that is read without trouble. -/
def ErFile.holding (data : List UInt8) : ErFile :=
  ⟨true, true, .ok data.length, true, true, data⟩

/-- `read_json_file`. -/
def readJsonFile (file : ErFile) : Except CString (List UInt8) :=
  if !file.opens then
    .error (lit "cannot open ER file")
  else if !file.seeksToEnd then
    .error (lit "cannot seek ER file")
  else
    match file.size with
    | .error reason => .error (lit "cannot tell ER file size: " ++ reason)
    | .ok len =>
        if len = 0 ∨ len > maxErFileSize then
          .error (lit "ER file is empty or too large")
        else if !file.rewinds then
          .error (lit "cannot rewind ER file")
        else if !file.allocates then
          .error (lit "out of memory")
        else if (file.data.take len).length ≠ len then
          .error (lit "cannot read ER file")
        else
          .ok (file.data.take len)

/-! ## Columns and tables -/

/-- The `references` member of a column: the two halves of the name in it, or
two empty texts. -/
def loadReference (columnJson : CJson) : CBuf maxName × CBuf maxName :=
  match (cjsonCopyString columnJson (lit "references") : Option (CBuf (maxName * 2))) with
  | none => (snprintf [], snprintf [])
  | some ref => splitQualified ref.chars

/-- `load_column_json`. -/
def loadColumnJson (columnJson : CJson) : Except CString Column :=
  match cjsonCopyString columnJson (lit "name") with
  | none => .error (lit "column without name")
  | some name =>
      let primaryKey := cjsonGetBool columnJson (lit "primary_key")
      .ok {
        name := name
        type := (cjsonCopyString columnJson (lit "type")).getD (snprintf (lit "TEXT"))
        primaryKey := primaryKey
        unique := cjsonGetBool columnJson (lit "unique")
        notNull := cjsonGetBool columnJson (lit "not_null") || primaryKey
        refTable := (loadReference columnJson).1
        refColumn := (loadReference columnJson).2 }

/-- One entry of a `columns` array. -/
def loadColumnEntry (columnJson : CJson) : Except CString Column :=
  if !columnJson.isObject then
    .error (lit "column entry must be object")
  else
    loadColumnJson columnJson

/-- The loop over a `columns` array. -/
def loadColumns (columns : CountedArray Column maxColumns) (entries : List CJson) :
    CountedArray Column maxColumns × Except CString Unit :=
  columns.fill loadColumnEntry entries

/-- One entry of the `tables` array. -/
def loadTableJson (tableJson : CJson) : Except CString Table :=
  if !tableJson.isObject then
    .error (lit "table entry must be object")
  else
    match cjsonCopyString tableJson (lit "name") with
    | none => .error (lit "table without name")
    | some name =>
        match tableJson.getArray (lit "columns") with
        | none => .error (lit "table without columns")
        | some entries =>
            match loadColumns .empty entries with
            | (_, .error message) => .error message
            | (columns, .ok ()) =>
                if columns.count = 0 then
                  .error (lit "table has no columns")
                else
                  .ok ⟨name, columns, .empty⟩

/-- The loop over the `tables` array: the tables it leaves, and whether it came
to its end. -/
def loadTables (tables : Tables) (entries : List CJson) : Tables × Except CString Unit :=
  tables.fill loadTableJson entries

/-! ## Relations -/

/-- The column with its reference set to a pair of names. -/
def Column.refersTo (column : Column) (target : CBuf maxName × CBuf maxName) : Column :=
  { column with refTable := snprintf target.1.chars, refColumn := snprintf target.2.chars }

/-- The write of the relation loop at a table and a column found. -/
def setReference (tables : Tables) (ti : Fin maxTables) (ci : Fin maxColumns)
    (target : CBuf maxName × CBuf maxName) : Tables :=
  match tables.items[ti.val]? with
  | none => tables
  | some table =>
      match table.columns.items[ci.val]? with
      | none => tables
      | some column =>
          tables.set ti.val
            { table with columns := table.columns.set ci.val (column.refersTo target) }

/-- The two ends of a relation entry, if it is an object with both. -/
def relationEnds (relationJson : CJson) :
    Option ((CBuf maxName × CBuf maxName) × (CBuf maxName × CBuf maxName)) :=
  if relationJson.isObject then do
    let source : CBuf (maxName * 2) ← cjsonCopyString relationJson (lit "from")
    let target : CBuf (maxName * 2) ← cjsonCopyString relationJson (lit "to")
    some (splitQualified source.chars, splitQualified target.chars)
  else
    none

/-- The place a relation entry starts from: `find_table`, then `find_column`. -/
def relationPlace (tables : Tables) (source : CBuf maxName × CBuf maxName) :
    Option (Fin maxTables × Fin maxColumns) := do
  let ti ← findTable tables source.1.chars
  let table ← tables.items[ti.val]?
  let ci ← findColumn table source.2.chars
  some (ti, ci)

/-- One entry of the `relations` array. -/
def loadRelation (tables : Tables) (relationJson : CJson) : Tables :=
  match relationEnds relationJson with
  | none => tables
  | some (source, target) =>
      match relationPlace tables source with
      | none => tables
      | some (ti, ci) => setReference tables ti ci target

/-- The loop over the `relations` array, when the document has one. -/
def loadRelations (tables : Tables) (root : CJson) : Tables :=
  match root.getArray (lit "relations") with
  | none => tables
  | some relations => relations.foldl loadRelation tables

/-! ## The whole load -/

/-- The part of `load_er_json` from `state->table_count = 0` on. -/
def loadEntries (state : SharedState) (root : CJson) (entries : List CJson) :
    SharedState × Except CString CString :=
  match loadTables .empty entries with
  | (tables, .error message) => ({ state with tables := tables }, .error message)
  | (tables, .ok ()) =>
      let tables := loadRelations tables root
      ({ state with tables := tables },
        .ok (lit "loaded " ++ decimal tables.count ++ lit " tables"))

/-- `load_er_json` for an answer of cJSON: the state it leaves, with the text of
`err` and the return value 0 (`ok`) or -1 (`error`). -/
def loadErJson (cjsonParse : List UInt8 → Option CJson) (state : SharedState)
    (file : ErFile) : SharedState × Except CString CString :=
  match readJsonFile file with
  | .error message => (state, .error message)
  | .ok json =>
      match cjsonParse json with
      | none => (state, .error (lit "invalid ER JSON"))
      | some root =>
          match root.getArray (lit "tables") with
          | none => (state, .error (lit "missing tables array"))
          | some entries => loadEntries state root entries

theorem loadEntries_frame (state : SharedState) (root : CJson) (entries : List CJson) :
    ∃ tables, (loadEntries state root entries).1 = { state with tables := tables } := by
  unfold loadEntries
  split
  · exact ⟨_, rfl⟩
  · exact ⟨_, rfl⟩

/-- A load changes the tables only. -/
theorem loadErJson_frame (cjsonParse : List UInt8 → Option CJson) (state : SharedState)
    (file : ErFile) :
    ∃ tables, (loadErJson cjsonParse state file).1 = { state with tables := tables } := by
  unfold loadErJson
  split
  · exact ⟨state.tables, rfl⟩
  · split
    · exact ⟨state.tables, rfl⟩
    · split
      · exact ⟨state.tables, rfl⟩
      · exact loadEntries_frame _ _ _

end SqlCodeGenerator
