import SqlCodeGenerator.ErLoader
import SqlCodeGenerator.InsertValidator
import SqlCodeGenerator.Jobs
import SqlCodeGenerator.SqlGenerator

/-!
# Processing a request

`process_request` of `server.c` in its three parts: what it does before the
operation, the operation itself, and what it does after the label
`finish_request`.  Between the parts the interface threads may change the shared
state, so each part takes the state it finds.

What the operating system, cJSON and libpg_query answer while a request is
processed is a `RequestEnv`.  A text written by `snprintf` into a buffer is cut
to that buffer by `cut`.  The result `none` is an undefined memory access.
-/

namespace SqlCodeGenerator

open Library

/-! ## Operations and messages -/

def opUploadBegin : UInt32 := 10
def opUploadChunk : UInt32 := 11
def opUploadEnd : UInt32 := 12
def opDownloadBegin : UInt32 := 13
def opDownloadChunk : UInt32 := 14
def opDownloadEnd : UInt32 := 15
def opGenerateSql : UInt32 := 20
def opDownloadSql : UInt32 := 21
def opValidateInsert : UInt32 := 30
def opOk : UInt32 := 40
def opError : UInt32 := 41

/-- `is_processing_op`. -/
def isProcessingOp (opId : UInt32) : Bool :=
  opId = opUploadEnd || opId = opGenerateSql || opId = opDownloadSql || opId = opValidateInsert

/-- `Request`, without the link of the queue.  A `payload` of `none` is NULL. -/
structure Request where
  fd : Int
  clientId : UInt32
  opId : UInt32
  jobId : Nat
  payload : Option (List UInt8)
  payloadSize : Nat
  deriving DecidableEq

/-- A message handed to `send_message`. -/
structure Message where
  fd : Int
  clientId : UInt32
  opId : UInt32
  payload : List UInt8
  deriving DecidableEq

/-- `respond_text`. -/
def respondText (fd : Int) (clientId opId : UInt32) (text : CString) : Message :=
  ⟨fd, clientId, opId, text.map Subtype.val⟩

/-- `snprintf(buffer, size, "%s", text)`. -/
def cut (size : Nat) (text : CString) : CString := text.take (size - 1)

/-- The size of the buffer `response` of `process_request`. -/
abbrev responseSize : Nat := 65536

/-- The size of the buffer `err` of `process_request`. -/
abbrev errSize : Nat := 2048

/-- The size of the buffer `wire_response` of `process_request`. -/
abbrev wireSize : Nat := 67584

/-! ## The environment of a request -/

/-- A call that succeeds, or fails with the text of `strerror(errno)`. -/
abbrev SystemCall := Except CString Unit

/-- One round of the loop that reads the generated file back. -/
inductive ReadRound where
  | interrupted
  | failed (reason : CString)
  | bytes (data : List UInt8) (sent : Bool)

/-- The calls of `send_generated_sql_file`. -/
structure DownloadEnv where
  create : SystemCall
  write : SystemCall
  reopen : SystemCall
  sendsBegin : Bool
  /-- The rounds of the reading loop before the end of the file. -/
  rounds : List ReadRound
  sendsEnd : Bool

/-- The calls of `child_validate_insert` around the child. -/
structure ChildEnv where
  pipes : Bool
  forks : Bool
  /-- The parent's `read` returns the packet of the child (all of it). -/
  reads : Bool
  /-- `waitpid` succeeds in the end, interruptions aside. -/
  waits : Bool
  pgQueryParse : CString → Option CString

/-- What is answered while a request is processed. -/
structure RequestEnv where
  createUpload : SystemCall
  openUpload : SystemCall
  writeUpload : SystemCall
  uploadFile : ErFile
  cjsonParse : List UInt8 → Option CJson
  download : DownloadEnv
  child : ChildEnv
  pgQueryParse : CString → Option CString

/-! ## The child that validates an INSERT -/

/-- The newline between the verdict and the text of a packet. -/
def newline : CChar := chr '\n'

/-- What the child writes into the pipe: `"%d\n%s"` of its verdict and the text
that `validate_insert_batch` left in `msg`. -/
def childPacket (accepted : Bool) (message : CString) : CString :=
  cut 1200 ((if accepted then lit "1" else lit "0") ++ newline :: cut 1024 message)

/-- What the parent makes of a packet: the verdict is the first character, the
text stands behind the first newline. -/
def readPacket (packet : CString) : Bool × CString :=
  (packet.head? = some (chr '1'),
    match packet.dropWhile (· ≠ newline) with
    | [] => packet
    | _ :: message => message)

/-- `child_validate_insert`: return value 0 (`ok`) or -1 (`error`) with the text
left in `out`. -/
def childValidateInsert (env : ChildEnv) (state : SharedState) (sql : CString) :
    Outcome CString CString :=
  if !env.pipes then
    .error (lit "pipe failed")
  else if !env.forks then
    .error (lit "fork failed")
  else
    let respond (accepted : Bool) (message : CString) : Outcome CString CString :=
      if !env.waits then
        .error (lit "waitpid failed")
      else if !env.reads then
        .error (lit "child did not return validation result")
      else
        match readPacket (childPacket accepted message) with
        | (true, text) => .ok (cut errSize text)
        | (false, text) => .error (cut errSize text)
    match validateInsertBatch env.pgQueryParse state sql with
    | .ok message => respond true message
    | .error message => respond false message
    | .fault => .fault

/-! ## The parts of `process_request` -/

/-- `job_update` for the job of a request, if it has one. -/
def updateJobOf (r : Request) (now : Int) (status : JobStatus) (result : CString)
    (state : SharedState) : SharedState :=
  if r.jobId > 0 then jobUpdate now r.jobId status result state else state

/-- Before the operation: the client is marked active and the job running. -/
def beginRequest (now : Int) (r : Request) (state : SharedState) : SharedState :=
  let state := clientTouch now r.clientId state
  let state := { state with
    activeClientId := toInt r.clientId
    activeOpId := toInt r.opId
    activeStartedAt := now }
  updateJobOf r now .running (lit "running") state

/-- What the operation leaves for the end of `process_request`. -/
structure Handled where
  respOp : UInt32
  response : CString
  responseSent : Bool
  messages : List Message

/-- An operation that answers with a text only. -/
def Handled.text (respOp : UInt32) (response : CString) : Handled :=
  ⟨respOp, cut responseSize response, false, []⟩

/-- `OP_UPLOAD_BEGIN`. -/
def handleUploadBegin (env : RequestEnv) (state : SharedState) : SharedState × Handled :=
  (historyAdd state (lit "upload begin"),
    match env.createUpload with
    | .error reason => .text opError (lit "cannot create upload file: " ++ reason)
    | .ok () => .text opOk (lit "OK: upload started"))

/-- `append_upload_chunk`, and its text in `response`. -/
def handleUploadChunk (env : RequestEnv) (r : Request) (state : SharedState) :
    SharedState × Handled :=
  (state,
    match env.openUpload with
    | .error reason => .text opError (lit "cannot append upload file: " ++ reason)
    | .ok () =>
        match if r.payloadSize > 0 then env.writeUpload else .ok () with
        | .error reason => .text opError (lit "cannot write upload chunk: " ++ reason)
        | .ok () =>
            .text opOk (lit "OK: chunk stored (" ++ decimal r.payloadSize ++ lit " bytes)"))

/-- `OP_UPLOAD_END`: the uploaded file is loaded. -/
def handleUploadEnd (env : RequestEnv) (state : SharedState) : SharedState × Handled :=
  match loadErJson env.cjsonParse state env.uploadFile with
  | (state, .ok err) =>
      (historyAdd state (lit "schema loaded"), .text opOk (lit "OK: " ++ cut errSize err))
  | (state, .error err) =>
      (historyAdd state (lit "schema load failed"),
        .text opError (lit "ERROR: " ++ cut errSize err))

/-- `OP_GENERATE_SQL`. -/
def handleGenerateSql (state : SharedState) : SharedState × Handled :=
  (historyAdd state (lit "generate sql"),
    ⟨opOk, generateSql state.tables responseSize, false, []⟩)

/-- The loop of `send_generated_sql_file` over the file: the messages sent, and
the text of a failure. -/
def sendRounds (r : Request) : List ReadRound → List Message × Except CString Unit
  | [] => ([], .ok ())
  | .interrupted :: rest => sendRounds r rest
  | .failed reason :: _ => ([], .error (lit "cannot read generated SQL file: " ++ reason))
  | .bytes data sent :: rest =>
      if sent then
        (⟨r.fd, r.clientId, opDownloadChunk, data⟩ :: (sendRounds r rest).1,
          (sendRounds r rest).2)
      else
        ([], .error (lit "cannot send download chunk"))

/-- `send_generated_sql_file`: the messages sent, and the text of `err`. -/
def sendGeneratedSqlFile (env : DownloadEnv) (r : Request) (tables : Tables) :
    List Message × Except CString CString :=
  let sql := generateSql tables responseSize
  match env.create with
  | .error reason => ([], .error (lit "cannot create generated SQL file: " ++ reason))
  | .ok () =>
    match env.write with
    | .error reason => ([], .error (lit "cannot write generated SQL file: " ++ reason))
    | .ok () =>
      match env.reopen with
      | .error reason => ([], .error (lit "cannot reopen generated SQL file: " ++ reason))
      | .ok () =>
        if !env.sendsBegin then
          ([], .error (lit "cannot send download begin"))
        else
          let first := respondText r.fd r.clientId opDownloadBegin
            (lit "generated_" ++ decimal r.clientId.toNat ++ lit ".sql\n" ++ decimal sql.length)
          match sendRounds r env.rounds with
          | (chunks, .error err) => (first :: chunks, .error err)
          | (chunks, .ok ()) =>
            if !env.sendsEnd then
              (first :: chunks, .error (lit "cannot send download end"))
            else
              (first :: chunks ++ [respondText r.fd r.clientId opDownloadEnd (lit "OK")],
                .ok (lit "OK: generated SQL downloaded (" ++ decimal sql.length ++
                  lit " bytes)"))

/-- `OP_DOWNLOAD_SQL`. -/
def handleDownloadSql (env : RequestEnv) (r : Request) (state : SharedState) :
    SharedState × Handled :=
  match sendGeneratedSqlFile env.download r state.tables with
  | (messages, .ok err) =>
      (historyAdd state (lit "download sql"),
        ⟨opOk, cut responseSize (cut errSize err), true, messages⟩)
  | (messages, .error err) =>
      (state, ⟨opError, cut responseSize (lit "ERROR: " ++ cut errSize err), false, messages⟩)

/-- How an INSERT request ends. -/
inductive InsertVerdict where
  | empty
  | rejected (err : CString)
  | applyFailed (err : CString)
  | applied (err : CString) (after : SharedState)

/-- The branch of `OP_VALIDATE_INSERT` taken: the child validates, and the parent
applies what the child accepted. -/
def insertVerdict (env : RequestEnv) (r : Request) (state : SharedState) :
    Option InsertVerdict :=
  match r.payload with
  | none => some .empty
  | some payload =>
      match childValidateInsert env.child state (cstr payload) with
      | .fault => none
      | .error err => some (.rejected err)
      | .ok _ =>
          match applyInsertBatch env.pgQueryParse state (cstr payload) with
          | .fault => none
          | .error err => some (.applyFailed (cut errSize err))
          | .ok applied =>
              applied.after.map fun after => .applied (cut errSize applied.report) after

/-- `OP_VALIDATE_INSERT`. -/
def handleValidateInsert (env : RequestEnv) (r : Request) (state : SharedState) :
    Option (SharedState × Handled) :=
  let state := { state with insertCommands := state.insertCommands + 1 }
  (insertVerdict env r state).map fun
    | .empty => (state, .text opError (lit "empty insert payload"))
    | .rejected err =>
        (historyAdd state (lit "insert rejected"), .text opError (lit "ERROR: " ++ err))
    | .applyFailed err =>
        (historyAdd state (lit "insert apply failed"), .text opError (lit "ERROR: " ++ err))
    | .applied err after => (historyAdd after (lit "insert accepted"), .text opOk err)

/-- The branch of a request whose client is to be cancelled: it is counted, and
`cancel_client_id` is cleared. -/
def handleCancelled (state : SharedState) : SharedState × Handled :=
  (historyAdd { state with
      cancelledCommands := state.cancelledCommands + 1
      cancelClientId := 0 } (lit "command cancelled"),
    .text opError (lit "command cancelled by admin"))

/-- The operation, by `op_id`. -/
def dispatchRequest (env : RequestEnv) (r : Request) (state : SharedState) :
    Option (SharedState × Handled) :=
  if r.opId = opUploadBegin then
    some (handleUploadBegin env state)
  else if r.opId = opUploadChunk then
    some (handleUploadChunk env r state)
  else if r.opId = opUploadEnd then
    some (handleUploadEnd env state)
  else if r.opId = opGenerateSql then
    some (handleGenerateSql state)
  else if r.opId = opDownloadSql then
    some (handleDownloadSql env r state)
  else if r.opId = opValidateInsert then
    handleValidateInsert env r state
  else
    some (state, .text opError (lit "unknown operation " ++ decimal r.opId.toNat))

/-- The request is cancelled, or its operation performed.  The comparison with
`cancel_client_id` and what follows it are one step here. -/
def handleRequest (env : RequestEnv) (r : Request) (state : SharedState) :
    Option (SharedState × Handled) :=
  if state.cancelClientId = toInt r.clientId then
    some (handleCancelled state)
  else
    dispatchRequest env r state

/-- The text that goes over the wire for a response. -/
def wireText (r : Request) (response : CString) : CString :=
  if r.jobId > 0 then
    cut wireSize (lit "job=" ++ decimal r.jobId ++ newline :: response)
  else
    response

/-- The statistics of a processed request. -/
def countRequest (elapsed : Int) (h : Handled) (state : SharedState) : SharedState :=
  { state with
    totalCommands := state.totalCommands + 1
    totalExecMs := state.totalExecMs + elapsed
    failedCommands :=
      if h.respOp = opError then state.failedCommands + 1 else state.failedCommands }

/-- The worker is no longer active, if it still counts as active on the request. -/
def clearActive (r : Request) (state : SharedState) : SharedState :=
  if state.activeClientId = toInt r.clientId ∧ state.activeOpId = toInt r.opId then
    { state with activeClientId := 0, activeOpId := 0, activeStartedAt := 0 }
  else
    state

/-- The status in which the job of a request ends. -/
def Handled.status (h : Handled) : JobStatus := if h.respOp = opOk then .done else .error

/-- The reply, unless the operation has sent its own. -/
def Handled.reply (h : Handled) (r : Request) : List Message :=
  if h.responseSent then [] else [respondText r.fd r.clientId h.respOp (wireText r h.response)]

/-- After `finish_request`: statistics, the job record, the reply, in one step. -/
def finishRequest (now elapsed : Int) (r : Request) (h : Handled) (state : SharedState) :
    SharedState × List Message :=
  let state := updateJobOf r now h.status h.response (countRequest elapsed h state)
  (clearActive r state, h.reply r)

/-! ## Cancelled requests -/

/-- The text that a cancelled request is answered with. -/
def cancelText : CString := lit "command cancelled by admin"

/-- A request whose client is to be cancelled is not performed. -/
theorem handleRequest_cancelled {env : RequestEnv} {r : Request} {state state' : SharedState}
    {h : Handled} (hcancel : state.cancelClientId = toInt r.clientId)
    (hhandle : handleRequest env r state = some (state', h)) :
    state'.cancelClientId = 0 ∧ state'.cancelledCommands = state.cancelledCommands + 1 ∧
      h = .text opError cancelText := by
  unfold handleRequest at hhandle
  rw [if_pos hcancel] at hhandle
  obtain ⟨rfl, rfl⟩ := Prod.mk.inj (Option.some.inj hhandle)
  exact ⟨rfl, rfl, rfl⟩

/-! ## What the beginning and the end leave alone -/

theorem updateJobOf_frame (r : Request) (now : Int) (status : JobStatus) (result : CString)
    (state : SharedState) :
    ∃ jobs, updateJobOf r now status result state = { state with jobs := jobs } := by
  unfold updateJobOf
  split
  · exact jobUpdate_frame now r.jobId status result state
  · exact ⟨state.jobs, rfl⟩

theorem clearActive_frame (r : Request) (state : SharedState) :
    ∃ activeClientId activeOpId activeStartedAt, clearActive r state =
      { state with
        activeClientId := activeClientId
        activeOpId := activeOpId
        activeStartedAt := activeStartedAt } := by
  unfold clearActive
  split
  · exact ⟨_, _, _, rfl⟩
  · exact ⟨state.activeClientId, state.activeOpId, state.activeStartedAt, rfl⟩

@[simp] theorem clearActive_jobs (r : Request) (state : SharedState) :
    (clearActive r state).jobs = state.jobs := by
  obtain ⟨_, _, _, hframe⟩ := clearActive_frame r state
  rw [hframe]

/-- The clients are touched, one of them is active and its job runs. -/
theorem beginRequest_frame (now : Int) (r : Request) (state : SharedState) :
    ∃ clients jobs activeClientId activeOpId activeStartedAt, beginRequest now r state =
      { state with
        clients := clients
        jobs := jobs
        activeClientId := activeClientId
        activeOpId := activeOpId
        activeStartedAt := activeStartedAt } := by
  obtain ⟨clients, htouch⟩ := clientTouch_frame now r.clientId state
  unfold beginRequest
  rw [htouch]
  obtain ⟨jobs, hjob⟩ := updateJobOf_frame r now .running (lit "running")
    { state with
      clients := clients
      activeClientId := toInt r.clientId
      activeOpId := toInt r.opId
      activeStartedAt := now }
  exact ⟨clients, jobs, _, _, _, hjob⟩

/-- The statistics count the request, its job ends and no client is active. -/
theorem finishRequest_frame (now elapsed : Int) (r : Request) (h : Handled)
    (state : SharedState) :
    ∃ totalCommands totalExecMs failedCommands jobs activeClientId activeOpId activeStartedAt,
      (finishRequest now elapsed r h state).1 =
        { state with
          totalCommands := totalCommands
          totalExecMs := totalExecMs
          failedCommands := failedCommands
          jobs := jobs
          activeClientId := activeClientId
          activeOpId := activeOpId
          activeStartedAt := activeStartedAt } := by
  obtain ⟨jobs, hjob⟩ := updateJobOf_frame r now h.status h.response (countRequest elapsed h state)
  unfold finishRequest
  rw [hjob]
  obtain ⟨_, _, _, hclear⟩ := clearActive_frame r { countRequest elapsed h state with jobs := jobs }
  exact ⟨_, _, _, jobs, _, _, _, hclear⟩

theorem beginRequest_tables (now : Int) (r : Request) (state : SharedState) :
    (beginRequest now r state).tables = state.tables := by
  obtain ⟨_, _, _, _, _, hframe⟩ := beginRequest_frame now r state
  rw [hframe]

theorem finishRequest_tables (now elapsed : Int) (r : Request) (h : Handled)
    (state : SharedState) : (finishRequest now elapsed r h state).1.tables = state.tables := by
  obtain ⟨_, _, _, _, _, _, _, hframe⟩ := finishRequest_frame now elapsed r h state
  rw [hframe]

/-- The record of the job of a request, where it is still there at the end. -/
theorem finishRequest_job {now elapsed : Int} {r : Request} {h : Handled} {state : SharedState}
    {slot : Fin maxJobs} (hjob : 0 < r.jobId)
    (hslot : jobFind (finishRequest now elapsed r h state).1 r.jobId = some slot) :
    ((finishRequest now elapsed r h state).1.jobs.get slot).status = h.status := by
  unfold finishRequest updateJobOf at hslot ⊢
  simp only [gt_iff_lt, hjob, if_true] at hslot ⊢
  rw [clearActive_jobs]
  refine (jobUpdate_status ?_).1
  rw [← hslot]
  simp only [jobFind, clearActive_jobs]

end SqlCodeGenerator
