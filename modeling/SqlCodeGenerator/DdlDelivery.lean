import SqlCodeGenerator.DdlRendering
import SqlCodeGenerator.LoadDerivations
import SqlCodeGenerator.Requests

/-!
# Delivering the DDL

`generate_sql` prints into a buffer of 65536 characters and always returns 0, and
`appendf` drops what does not fit.  So a request for the DDL is answered by
`OP_OK` with a text that is cut as soon as the rendering is too long.

* `ddlSize` is the size of the rendering, from the lengths of the names and types
  of a schema alone;
* `ddlDelivered_iff`: a request delivers the whole rendering, or is answered by
  `OP_ERROR`, exactly when it is cancelled, or one of the calls of the download
  fails, or the size is at most 65535.
-/

namespace SqlCodeGenerator

open Library

/-! ## The size of the rendering -/

/-- The characters printed for a column. -/
def columnSize (c : Column) (last : Bool) : Nat :=
  5 + c.name.chars.length + c.type.chars.length +
    (if c.primaryKey then 12 else 0) +
    (if c.notNull && !c.primaryKey then 9 else 0) +
    (if c.unique && !c.primaryKey then 7 else 0) +
    (if c.refTable.chars ≠ [] then 14 + c.refTable.chars.length + c.refColumn.chars.length
      else 0) +
    if last then 1 else 2

/-- The characters printed for the columns of a table. -/
def columnsSize : List Column → Nat
  | [] => 0
  | c :: rest => columnSize c rest.isEmpty + columnsSize rest

/-- The characters printed for a table. -/
def tableSize (t : Table) : Nat := 20 + t.name.chars.length + columnsSize t.columns.items

/-- The characters printed for a schema. -/
def ddlSize (tables : Tables) : Nat :=
  if tables.count = 0 then 25 else (tables.items.map tableSize).sum

theorem length_columnPieces (c : Column) (last : Bool) :
    (piecesText (columnPieces c last)).length = columnSize c last := by
  have hcolumn : (lit "    ").length = 4 ∧ (lit " ").length = 1 := by decide +kernel
  have hclauses : (lit " PRIMARY KEY").length = 12 ∧ (lit " NOT NULL").length = 9 ∧
      (lit " UNIQUE").length = 7 := by decide +kernel
  have href : (lit " REFERENCES ").length = 12 ∧ (lit "(").length = 1 ∧
      (lit ")").length = 1 := by decide +kernel
  have hend : (lit ",").length = 1 ∧ (lit "\n").length = 1 := by decide +kernel
  -- clause by clause, as the printer decides on them
  have hclausePieces : (piecesText (clausePieces c)).length =
      (if c.primaryKey then 12 else 0) +
        (if c.notNull && !c.primaryKey then 9 else 0) +
        (if c.unique && !c.primaryKey then 7 else 0) +
        if c.refTable.chars ≠ [] then 14 + c.refTable.chars.length + c.refColumn.chars.length
        else 0 := by
    unfold clausePieces
    simp only [piecesText_append, List.length_append]
    congr 1
    · congr 1
      · congr 1
        · split <;> simp [DdlPiece.text, hclauses]
        · split <;> simp [DdlPiece.text, hclauses]
      · split <;> simp [DdlPiece.text, hclauses]
    · split
      · simp only [piecesText_cons, piecesText_nil, DdlPiece.text, List.length_append, href,
          List.append_nil]
        omega
      · rfl
  have hendPiece : (DdlPiece.endColumn last).text.length = if last then 1 else 2 := by
    cases last <;> simp [DdlPiece.text, hend]
  rw [columnPieces, piecesText_cons, piecesText_append, piecesText_cons, piecesText_nil,
    List.append_nil, List.length_append, List.length_append, hclausePieces, hendPiece, columnSize]
  simp only [DdlPiece.text, List.length_append, hcolumn]
  omega

theorem length_columnsPieces (columns : List Column) :
    (piecesText (columnsPieces columns)).length = columnsSize columns := by
  induction columns with
  | nil => rfl
  | cons c rest ih =>
      rw [columnsPieces, piecesText_append, List.length_append, length_columnPieces, ih,
        columnsSize]

theorem length_tablePieces (t : Table) : (piecesText (tablePieces t)).length = tableSize t := by
  have hstart : (lit "CREATE TABLE ").length = 13 ∧ (lit " (\n").length = 3 := by decide +kernel
  have hend : (lit ");\n\n").length = 4 := by decide +kernel
  rw [tablePieces, piecesText_cons, piecesText_append, List.length_append, List.length_append,
    length_columnsPieces, tableSize]
  simp only [piecesText_cons, piecesText_nil, DdlPiece.text, List.length_append, List.length_nil,
    hstart, hend]
  omega

/-- The rendering is as long as the sizes of its tables say. -/
theorem length_ddl (tables : Tables) : (ddl tables).length = ddlSize tables := by
  have hnotice : (lit "-- No ER diagram loaded.\n").length = 25 := by decide +kernel
  unfold ddl ddlSize
  split
  · exact hnotice
  · rw [ddlPieces, piecesText_flatMap, List.length_flatMap]
    simp only [length_tablePieces]

/-- The text in the buffer is the whole rendering exactly when that fits. -/
theorem generateSql_eq_ddl_iff {tables : Tables} {outLen : Nat} :
    generateSql tables outLen = ddl tables ↔ ddlSize tables ≤ outLen - 1 := by
  rw [generateSql_eq, List.take_eq_self_iff, length_ddl]

/-! ## What a request delivers -/

/-- The bytes read in a round. -/
def ReadRound.data : ReadRound → List UInt8
  | .interrupted => []
  | .failed _ => []
  | .bytes data _ => data

/-- A round after which the download goes on. -/
def ReadRound.Succeeds : ReadRound → Prop
  | .interrupted => True
  | .failed _ => False
  | .bytes _ sent => sent = true

/-- No call of `send_generated_sql_file` fails. -/
structure DownloadEnv.Succeeds (env : DownloadEnv) : Prop where
  create : env.create = .ok ()
  write : env.write = .ok ()
  reopen : env.reopen = .ok ()
  sendsBegin : env.sendsBegin = true
  rounds : ∀ round ∈ env.rounds, round.Succeeds
  sendsEnd : env.sendsEnd = true

/-- What is read back from the file is what was written to it. -/
def DownloadEnv.ReadsBack (env : DownloadEnv) (sql : CString) : Prop :=
  env.rounds.flatMap ReadRound.data = sql.map Subtype.val

/-- The line of a response that names its job. -/
def jobLine (r : Request) : CString :=
  if r.jobId > 0 then lit "job=" ++ decimal r.jobId ++ [newline] else []

/-- The DDL that reaches the client: the bytes of the chunks, or what the reply
carries behind the line of its job. -/
def deliveredText (r : Request) (h : Handled) : List UInt8 :=
  if h.responseSent then
    (h.messages.filter fun m => m.opId = opDownloadChunk).flatMap Message.payload
  else
    (h.reply r).flatMap fun m => m.payload.drop (jobLine r).length

/-- The request delivers the whole rendering, or it is answered by `OP_ERROR`. -/
def DdlDelivered (env : RequestEnv) (r : Request) (state : SharedState) : Prop :=
  ∀ state' h, handleRequest env r state = some (state', h) →
    h.respOp = opError ∨ deliveredText r h = (ddl state.tables).map Subtype.val

/-- A job identifier is an `int`, so its line is short. -/
theorem length_jobLine_le {r : Request} (hjob : r.jobId < 2 ^ 31) :
    (jobLine r).length ≤ 15 := by
  have hname : (lit "job=").length = 4 := by decide +kernel
  have hdigits : (decimal r.jobId).length ≤ 10 := by
    unfold decimal lit
    refine (List.length_filterMap_le _ _).trans ?_
    rw [String.length_toList]
    exact Nat.length_repr_le_iff (by decide) |>.mpr (by omega)
  unfold jobLine
  split
  · simp only [List.length_append, List.length_singleton, hname]
    omega
  · simp

/-- The text on the wire is the response behind the line of its job: the buffer
for it has room for both. -/
theorem wireText_eq {r : Request} (hjob : r.jobId < 2 ^ 31) {response : CString}
    (hresponse : response.length < responseSize) :
    wireText r response = jobLine r ++ response := by
  have hline := length_jobLine_le hjob
  unfold wireText
  unfold jobLine at hline ⊢
  split
  · next hpos =>
      rw [if_pos hpos] at hline
      have hwhole : lit "job=" ++ decimal r.jobId ++ newline :: response =
          lit "job=" ++ decimal r.jobId ++ [newline] ++ response := by simp
      rw [hwhole, cut, List.take_of_length_le]
      rw [List.length_append]
      show _ ≤ 67584 - 1
      have hbound : response.length < 65536 := hresponse
      omega
  · simp

/-! ### The rounds of a download -/

/-- The rounds that succeed send what they read, in chunks. -/
theorem sendRounds_of_succeeds {r : Request} {rounds : List ReadRound}
    (h : ∀ round ∈ rounds, round.Succeeds) :
    ∃ chunks, sendRounds r rounds = (chunks, .ok ()) ∧
      (∀ m ∈ chunks, m.opId = opDownloadChunk) ∧
      chunks.flatMap Message.payload = rounds.flatMap ReadRound.data := by
  induction rounds with
  | nil => exact ⟨[], rfl, by simp, rfl⟩
  | cons round rounds ih =>
      obtain ⟨chunks, hsend, hop, hdata⟩ := ih fun round' h' => h round' (List.mem_cons_of_mem _ h')
      have hround := h round List.mem_cons_self
      cases round with
      | interrupted => exact ⟨chunks, hsend, hop, hdata⟩
      | failed reason => exact absurd hround id
      | bytes data sent =>
          have hsent : sent = true := hround
          refine ⟨⟨r.fd, r.clientId, opDownloadChunk, data⟩ :: chunks, ?_, ?_, ?_⟩
          · simp [sendRounds, hsent, hsend]
          · intro m hm
            rcases List.mem_cons.mp hm with rfl | hm
            · rfl
            · exact hop m hm
          · simp [ReadRound.data, hdata]

/-- A round that fails ends the loop with a text for `err`. -/
theorem sendRounds_of_not_succeeds {r : Request} {rounds : List ReadRound}
    (h : ¬ ∀ round ∈ rounds, round.Succeeds) :
    ∃ chunks err, sendRounds r rounds = (chunks, .error err) := by
  induction rounds with
  | nil => exact absurd (fun _ hround => absurd hround List.not_mem_nil) h
  | cons round rounds ih =>
      cases round with
      | interrupted =>
          refine ih fun hrest => h fun round hround => ?_
          rcases List.mem_cons.mp hround with rfl | hround
          · trivial
          · exact hrest round hround
      | failed reason => exact ⟨_, _, rfl⟩
      | bytes data sent =>
          cases sent with
          | false => exact ⟨_, _, rfl⟩
          | true =>
              obtain ⟨chunks, err, hsend⟩ := ih fun hrest => h fun round hround => by
                rcases List.mem_cons.mp hround with rfl | hround
                · rfl
                · exact hrest round hround
              exact ⟨⟨r.fd, r.clientId, opDownloadChunk, data⟩ :: chunks, err, by
                simp [sendRounds, hsend]⟩

/-- A download without a failing call sends its file between begin and end. -/
theorem sendGeneratedSqlFile_of_succeeds {env : DownloadEnv} (h : env.Succeeds) (r : Request)
    (tables : Tables) :
    ∃ first chunks last text,
      sendGeneratedSqlFile env r tables = (first :: chunks ++ [last], .ok text) ∧
      first.opId = opDownloadBegin ∧ last.opId = opDownloadEnd ∧
      (∀ m ∈ chunks, m.opId = opDownloadChunk) ∧
      chunks.flatMap Message.payload = env.rounds.flatMap ReadRound.data := by
  obtain ⟨chunks, hsend, hop, hdata⟩ := sendRounds_of_succeeds (r := r) h.rounds
  unfold sendGeneratedSqlFile
  simp only [h.create, h.write, h.reopen, h.sendsBegin, h.sendsEnd, hsend, Bool.not_true,
    Bool.false_eq_true, if_false]
  exact ⟨_, chunks, _, _, rfl, rfl, rfl, hop, hdata⟩

/-- A download with a failing call returns -1 with a text for `err`. -/
theorem sendGeneratedSqlFile_of_not_succeeds {env : DownloadEnv} (h : ¬ env.Succeeds)
    (r : Request) (tables : Tables) :
    ∃ messages err, sendGeneratedSqlFile env r tables = (messages, .error err) := by
  unfold sendGeneratedSqlFile
  cases hcreate : env.create with
  | error reason => exact ⟨_, _, rfl⟩
  | ok _ =>
      cases hwrite : env.write with
      | error reason => exact ⟨_, _, rfl⟩
      | ok _ =>
          cases hreopen : env.reopen with
          | error reason => exact ⟨_, _, rfl⟩
          | ok _ =>
              cases hbegin : env.sendsBegin with
              | false => exact ⟨_, _, rfl⟩
              | true =>
                  by_cases hrounds : ∀ round ∈ env.rounds, round.Succeeds
                  · obtain ⟨chunks, hsend, -⟩ := sendRounds_of_succeeds (r := r) hrounds
                    cases hlast : env.sendsEnd with
                    | true => exact absurd ⟨hcreate, hwrite, hreopen, hbegin, hrounds, hlast⟩ h
                    | false => simp [hsend]
                  · obtain ⟨chunks, err, hsend⟩ := sendRounds_of_not_succeeds (r := r) hrounds
                    simp [hsend]

/-! ### The dispatch -/

theorem handleRequest_generateSql {env : RequestEnv} {r : Request} {state : SharedState}
    (hcancel : state.cancelClientId ≠ toInt r.clientId) (hop : r.opId = opGenerateSql) :
    handleRequest env r state = some (handleGenerateSql state) := by
  unfold handleRequest dispatchRequest
  rw [if_neg hcancel, hop]
  rfl

theorem handleRequest_downloadSql {env : RequestEnv} {r : Request} {state : SharedState}
    (hcancel : state.cancelClientId ≠ toInt r.clientId) (hop : r.opId = opDownloadSql) :
    handleRequest env r state = some (handleDownloadSql env r state) := by
  unfold handleRequest dispatchRequest
  rw [if_neg hcancel, hop]
  rfl

/-- The reply to `OP_GENERATE_SQL` carries what `generate_sql` left in the buffer. -/
theorem deliveredText_generateSql {r : Request} (hjob : r.jobId < 2 ^ 31)
    (state : SharedState) :
    deliveredText r (handleGenerateSql state).2 =
      (generateSql state.tables responseSize).map Subtype.val := by
  have hsize : (generateSql state.tables responseSize).length < responseSize := by
    rw [generateSql_eq, List.length_take]
    show min 65535 _ < 65536
    omega
  have hwire := wireText_eq hjob hsize
  unfold deliveredText handleGenerateSql
  simp only [Bool.false_eq_true, if_false, Handled.reply, List.flatMap_cons, List.flatMap_nil,
    List.append_nil, respondText, hwire, List.map_append]
  rw [List.drop_left' (by rw [List.length_map])]

/-- A download whose calls all succeed sends what it reads back. -/
theorem deliveredText_downloadSql {env : RequestEnv} (h : env.download.Succeeds) (r : Request)
    (state : SharedState) :
    (handleDownloadSql env r state).2.respOp = opOk ∧
      deliveredText r (handleDownloadSql env r state).2 =
        env.download.rounds.flatMap ReadRound.data := by
  obtain ⟨first, chunks, last, text, hsend, hfirst, hlast, hop, hdata⟩ :=
    sendGeneratedSqlFile_of_succeeds h r state.tables
  have hchunks : chunks.filter (fun m => m.opId = opDownloadChunk) = chunks :=
    List.filter_eq_self.mpr fun m hm => by simpa using hop m hm
  have hfirst' : first.opId ≠ opDownloadChunk := by rw [hfirst]; decide
  have hlast' : last.opId ≠ opDownloadChunk := by rw [hlast]; decide
  unfold handleDownloadSql deliveredText
  rw [hsend]
  refine ⟨rfl, ?_⟩
  simp only [if_true, List.cons_append, List.filter_cons, List.filter_append, List.filter_nil,
    hfirst', hlast', decide_false, Bool.false_eq_true, if_false, List.append_nil, hchunks, hdata]

theorem handleDownloadSql_of_not_succeeds {env : RequestEnv} (h : ¬ env.download.Succeeds)
    (r : Request) (state : SharedState) :
    (handleDownloadSql env r state).2.respOp = opError := by
  obtain ⟨messages, err, hsend⟩ := sendGeneratedSqlFile_of_not_succeeds h r state.tables
  unfold handleDownloadSql
  rw [hsend]

/-! ## The whole rendering, exactly when it fits -/

theorem map_val_generateSql_eq_ddl_iff {tables : Tables} :
    (generateSql tables responseSize).map Subtype.val = (ddl tables).map Subtype.val ↔
      ddlSize tables ≤ 65535 := by
  rw [(List.map_injective_iff.mpr Subtype.val_injective).eq_iff]
  exact generateSql_eq_ddl_iff

/-- What a request delivers, from what its operation leaves. -/
theorem ddlDelivered_iff_handled {env : RequestEnv} {r : Request} {state : SharedState}
    {handled : SharedState × Handled} (hhandle : handleRequest env r state = some handled) :
    DdlDelivered env r state ↔
      handled.2.respOp = opError ∨
        deliveredText r handled.2 = (ddl state.tables).map Subtype.val := by
  unfold DdlDelivered
  rw [hhandle]
  constructor
  · intro h
    exact h handled.1 handled.2 rfl
  · rintro h state' h' heq
    rw [Option.some.injEq] at heq
    rwa [heq] at h

theorem ddlDelivered_generateSql_iff {env : RequestEnv} {r : Request} {state : SharedState}
    (hcancel : state.cancelClientId ≠ toInt r.clientId) (hop : r.opId = opGenerateSql)
    (hjob : r.jobId < 2 ^ 31) :
    DdlDelivered env r state ↔ ddlSize state.tables ≤ 65535 := by
  have hok : (handleGenerateSql state).2.respOp ≠ opError := by
    show opOk ≠ opError
    decide
  rw [ddlDelivered_iff_handled (handleRequest_generateSql hcancel hop),
    deliveredText_generateSql hjob, map_val_generateSql_eq_ddl_iff, or_iff_right hok]

theorem ddlDelivered_downloadSql_iff {env : RequestEnv} {r : Request} {state : SharedState}
    (hcancel : state.cancelClientId ≠ toInt r.clientId) (hop : r.opId = opDownloadSql)
    (hreads : env.download.Succeeds →
      env.download.ReadsBack (generateSql state.tables responseSize)) :
    DdlDelivered env r state ↔ ¬ env.download.Succeeds ∨ ddlSize state.tables ≤ 65535 := by
  rw [ddlDelivered_iff_handled (handleRequest_downloadSql hcancel hop)]
  by_cases hsucceeds : env.download.Succeeds
  · obtain ⟨hrespOp, htext⟩ := deliveredText_downloadSql hsucceeds r state
    have hok : (handleDownloadSql env r state).2.respOp ≠ opError := by
      rw [hrespOp]
      decide
    rw [htext, hreads hsucceeds, map_val_generateSql_eq_ddl_iff, or_iff_right hok,
      or_iff_right (not_not_intro hsucceeds)]
  · exact iff_of_true (Or.inl (handleDownloadSql_of_not_succeeds hsucceeds r state))
      (Or.inl hsucceeds)

/-- A request for the DDL delivers the whole rendering, or is answered by
`OP_ERROR`, exactly when it is cancelled, or a call of the download fails, or the
rendering has at most 65535 characters. -/
theorem ddlDelivered_iff {env : RequestEnv} {r : Request} {state : SharedState}
    (hop : r.opId = opGenerateSql ∨ r.opId = opDownloadSql) (hjob : r.jobId < 2 ^ 31)
    (hreads : env.download.Succeeds →
      env.download.ReadsBack (generateSql state.tables responseSize)) :
    DdlDelivered env r state ↔
      state.cancelClientId = toInt r.clientId ∨
      (r.opId = opDownloadSql ∧ ¬ env.download.Succeeds) ∨
      ddlSize state.tables ≤ 65535 := by
  by_cases hcancel : state.cancelClientId = toInt r.clientId
  · have hcancelled : ∀ state' h, handleRequest env r state = some (state', h) →
        h.respOp = opError := by
      intro state' h hhandle
      rw [(handleRequest_cancelled hcancel hhandle).2.2]
      rfl
    exact iff_of_true (fun state' h hhandle => Or.inl (hcancelled state' h hhandle))
      (Or.inl hcancel)
  · rw [or_iff_right hcancel]
    rcases hop with hop | hop
    · have hother : r.opId ≠ opDownloadSql := by
        rw [hop]
        decide
      rw [ddlDelivered_generateSql_iff hcancel hop hjob,
        or_iff_right fun hdownload => hother hdownload.1]
    · rw [ddlDelivered_downloadSql_iff hcancel hop hreads]
      simp only [hop, true_and]

/-! ### A schema whose rendering is cut -/

/-- The calls of a request that all succeed, and a file that is read back. -/
def workingEnv (cjsonParse : List UInt8 → Option CJson) (sql : CString) : RequestEnv where
  createUpload := .ok ()
  openUpload := .ok ()
  writeUpload := .ok ()
  uploadFile := .holding []
  cjsonParse := cjsonParse
  download := ⟨.ok (), .ok (), .ok (), true, [.bytes (sql.map Subtype.val) true], true⟩
  child := ⟨true, true, true, true, fun _ => none⟩
  pgQueryParse := fun _ => none

theorem workingEnv_readsBack (cjsonParse : List UInt8 → Option CJson) (sql : CString) :
    (workingEnv cjsonParse sql).download.ReadsBack sql := by
  show sql.map Subtype.val ++ [] = sql.map Subtype.val
  exact List.append_nil _

/-- The name of a column of 63 characters. -/
def wideName (k : Nat) : CString :=
  lit "total_amount_invoiced_in_the_accounting_period_of_the_year_" ++ decimal (2000 + k)

def wideType : CString := lit "TIMESTAMP(6) WITH TIME ZONE DEFAULT CURRENT_TIMESTAMP"

def wideTableName (k : Nat) : CString := lit "ledger_" ++ decimal (10 + k)

/-- The entries of a document of 17 tables with 32 such columns each. -/
def wideEntries : List CJson :=
  (List.range 17).map fun i =>
    .object [(lit "name", .string (wideTableName i)),
      (lit "columns", .array ((List.range 32).map fun k =>
        .object [(lit "name", .string (wideName k)), (lit "type", .string wideType)]))]

def wideDocument : CJson := .object [(lit "tables", .array wideEntries)]

/-- A member with a text, as it stands in a document. -/
def memberText (key value : CString) : CString :=
  doubleQuote :: key ++ lit "\":\"" ++ value ++ [doubleQuote]

/-- The text of a column of that document. -/
def wideColumnText (k : Nat) : CString :=
  lit "\x7b" ++ memberText (lit "name") (wideName k) ++ lit "," ++
    memberText (lit "type") wideType ++ lit "\x7d"

/-- The text of a table of that document. -/
def wideTableText (i : Nat) : CString :=
  lit "\x7b" ++ memberText (lit "name") (wideTableName i) ++ lit ",\"columns\":[" ++
    (((List.range 32).map wideColumnText).intersperse (lit ",")).flatten ++ lit "]\x7d"

/-- The text of that document. -/
def wideText : List UInt8 :=
  (lit "\x7b\"tables\":[" ++ ((List.range 16).map fun i => wideTableText i ++ lit ",").flatten ++
    wideTableText 16 ++ lit "]\x7d").map Subtype.val

/-- The answer of cJSON on that text. -/
def wideParse (json : List UInt8) : Option CJson :=
  if json = wideText then some wideDocument else none

theorem length_wideText : wideText.length = 75645 := by
  have htable : ∀ i < 17, (wideTableText i).length = 4448 := by decide +kernel
  have hpieces : (lit "\x7b\"tables\":[").length = 11 ∧ (lit ",").length = 1 ∧
      (lit "]\x7d").length = 2 := by decide +kernel
  have hcommas : ((List.range 16).map fun i => wideTableText i ++ lit ",").flatten.length =
      16 * 4449 := by
    rw [List.length_flatten, List.map_map]
    have hconst : (List.range 16).map (List.length ∘ fun i => wideTableText i ++ lit ",") =
        (List.range 16).map fun _ => 4449 := by
      refine List.map_congr_left fun i hi => ?_
      rw [List.mem_range] at hi
      rw [Function.comp_apply, List.length_append, htable i (by omega), hpieces.2.1]
    rw [hconst]
    rfl
  unfold wideText
  rw [List.length_map, List.length_append, List.length_append, List.length_append, hcommas,
    htable 16 (by omega), hpieces.1, hpieces.2.2]

/-- The document is within `MAX_ER_FILE_SIZE`, so its entries are loaded. -/
theorem wideLoad_eq : loadErJson wideParse (stateInit 0) (.holding wideText) =
    loadEntries (stateInit 0) wideDocument wideEntries := by
  have hne : wideText ≠ [] := by
    rw [← List.length_pos_iff, length_wideText]
    omega
  have hsize : wideText.length ≤ maxErFileSize := by
    rw [length_wideText]
    decide
  refine loadErJson_holding hne hsize ?_ ?_
  · unfold wideParse
    exact if_pos rfl
  · simp [wideDocument, CJson.getArray, CJson.getObjectItem]

/-- A request of `OP_GENERATE_SQL` and one of `OP_DOWNLOAD_SQL`. -/
def generateRequest : Request := ⟨5, 1, opGenerateSql, 2, none, 0⟩
def downloadRequest : Request := ⟨5, 1, opDownloadSql, 3, none, 0⟩

/-- The document loads, both requests are answered by `OP_OK`, and neither
delivers the whole rendering. -/
theorem wideLoad_not_delivered :
    let loaded := loadErJson wideParse (stateInit 0) (.holding wideText)
    let env := workingEnv wideParse (generateSql loaded.1.tables responseSize)
    loaded.2 = .ok (lit "loaded 17 tables") ∧
      ¬ DdlDelivered env generateRequest loaded.1 ∧
      ¬ DdlDelivered env downloadRequest loaded.1 := by
  have hload : (loadEntries (stateInit 0) wideDocument wideEntries).2 =
        .ok (lit "loaded 17 tables") ∧
      (loadEntries (stateInit 0) wideDocument wideEntries).1.cancelClientId = 0 ∧
      65535 < ddlSize (loadEntries (stateInit 0) wideDocument wideEntries).1.tables := by
    decide +kernel
  rw [wideLoad_eq]
  generalize loadEntries (stateInit 0) wideDocument wideEntries = loaded at hload
  obtain ⟨hok, hcancel, hsize⟩ := hload
  refine ⟨hok, ?_, ?_⟩
  · rw [ddlDelivered_generateSql_iff (by rw [hcancel]; decide) rfl (by decide)]
    omega
  · rw [ddlDelivered_downloadSql_iff (by rw [hcancel]; decide) rfl
      fun _ => workingEnv_readsBack _ _]
    rintro (hfails | hfits)
    · refine hfails ⟨rfl, rfl, rfl, rfl, ?_, rfl⟩
      intro round hround
      rw [List.mem_singleton.mp hround]
      rfl
    · omega

/-- The download of that schema, as the general law says it. -/
theorem wideLoad_delivered_iff :
    let loaded := (loadErJson wideParse (stateInit 0) (.holding wideText)).1
    let env := workingEnv wideParse (generateSql loaded.tables responseSize)
    DdlDelivered env downloadRequest loaded ↔
      loaded.cancelClientId = toInt downloadRequest.clientId ∨
      (downloadRequest.opId = opDownloadSql ∧ ¬ env.download.Succeeds) ∨
      ddlSize loaded.tables ≤ 65535 :=
  ddlDelivered_iff (Or.inr rfl) (by decide) fun _ => workingEnv_readsBack _ _

end SqlCodeGenerator
