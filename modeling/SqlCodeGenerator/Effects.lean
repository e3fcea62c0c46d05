import SqlCodeGenerator.Hosts

/-!
# What requests leave behind

The part of a host that requests read and write: tables, files, jobs without their
times, and what has been reported.  Every function of the server that a request goes
through acts on it by a function of its own.

* `handleRequest_operated`: an operation looks at nothing but the tables, the
  identifier to cancel and the files.
* `Work.process_effects`, `Work.receive_effects`: `process_request` and the creation
  of a job, by their effects.
-/

namespace SqlCodeGenerator

open Library

/-! ## Effects -/

/-- A job without its times. -/
def JobInfo.untimed (job : JobInfo) : JobInfo :=
  { job with queuedAt := 0, startedAt := 0, finishedAt := 0 }

/-- What requests leave behind. -/
@[ext] structure Effects where
  tables : Tables
  cancelClientId : Int
  nextJobId : Nat
  jobs : Fin maxJobs → JobInfo
  disk : Disk
  outcomes : List JobOutcome

def Work.effects (work : Work) : Effects where
  tables := work.shared.tables
  cancelClientId := work.shared.cancelClientId
  nextJobId := work.shared.nextJobId
  jobs slot := (work.shared.jobs.get slot).untimed
  disk := work.disk
  outcomes := work.outcomes

def Host.effects (host : Host) : Effects := host.work.effects

/-- What an operation leaves. -/
structure Operated where
  tables : Tables
  cancelClientId : Int
  outcome : JobOutcome

def operated (r : Request) (result : SharedState × Handled) : Operated :=
  ⟨result.1.tables, result.1.cancelClientId, result.2.outcome r⟩

/-- A request without its descriptor, which only decides where replies go. -/
def Request.anonymous (r : Request) : Request := { r with fd := 0 }

namespace Effects

/-- A state in which an operation finds all that it looks at. -/
def bare (e : Effects) : SharedState :=
  { stateInit 0 with tables := e.tables, cancelClientId := e.cancelClientId }

/-- A record is written, if it is there. -/
def record (e : Effects) (jobId : Nat) (status : JobStatus) (result : CString) : Effects :=
  { e with
    jobs := fun slot =>
      if 0 < jobId ∧ (e.jobs slot).jobId = jobId then
        { e.jobs slot with status := status, result := snprintf result }
      else
        e.jobs slot }

/-- A request is marked as running. -/
def mark (e : Effects) (r : Request) : Effects := e.record r.jobId .running (lit "running")

/-- What a request has come to is recorded and reported. -/
def settle (e : Effects) (o : JobOutcome) : Effects :=
  { e.record o.jobId o.status o.response with outcomes := e.outcomes ++ [o] }

/-- The operation of a request. -/
def operate (p : Parsers) (e : Effects) (r : Request) : Option Operated :=
  (handleRequest (p.env e.disk r []) r.anonymous e.bare).map (operated r)

/-- What an operation does to tables and files. -/
def change (e : Effects) (r : Request) (o : Operated) : Effects :=
  { e with
    tables := o.tables
    cancelClientId := o.cancelClientId
    disk := e.disk.after r e.bare }

/-- A request is processed. -/
def perform (p : Parsers) (e : Effects) (r : Request) : Option Effects :=
  (e.operate p r).map fun o => (e.change r o).settle o.outcome

/-- A request is built, with its job if it has one. -/
def accept (e : Effects) (a : Arrival) : Request × Effects :=
  let kept := if a.payload = [] then none else some a.payload
  if isProcessingOp a.opId then
    (⟨0, a.clientId, a.opId, e.nextJobId, kept, a.payload.length⟩,
      { e with
        nextJobId := e.nextJobId + 1
        jobs := fun slot =>
          if slot = ringPlace maxJobs e.nextJobId then
            ⟨e.nextJobId, toInt a.clientId, toInt a.opId, .queued, snprintf (lit "queued"),
              0, 0, 0⟩
          else
            e.jobs slot })
  else
    (⟨0, a.clientId, a.opId, 0, kept, a.payload.length⟩, e)

end Effects

/-! ## An operation by its effects -/

/-- A load looks at the file, and leaves alone what it does not replace. -/
theorem loadErJson_congr (cjsonParse : List UInt8 → Option CJson) {state state' : SharedState}
    (file : ErFile) (htables : state'.tables = state.tables) :
    (loadErJson cjsonParse state' file).2 = (loadErJson cjsonParse state file).2 ∧
      (loadErJson cjsonParse state' file).1.tables =
        (loadErJson cjsonParse state file).1.tables := by
  unfold loadErJson
  split
  · exact ⟨rfl, htables⟩
  · split
    · exact ⟨rfl, htables⟩
    · split
      · exact ⟨rfl, htables⟩
      · unfold loadEntries
        split
        · exact ⟨rfl, rfl⟩
        · exact ⟨rfl, rfl⟩

/-- The text of a download whose calls all succeed. -/
theorem sendGeneratedSqlFile_text {rounds : List ReadRound}
    (hrounds : ∀ round ∈ rounds, round.Succeeds) (r : Request) (tables : Tables) :
    (sendGeneratedSqlFile ⟨.ok (), .ok (), .ok (), true, rounds, true⟩ r tables).2 =
      .ok (lit "OK: generated SQL downloaded (" ++
        decimal (generateSql tables responseSize).length ++ lit " bytes)") := by
  obtain ⟨chunks, hsend, -⟩ := sendRounds_of_succeeds (r := r) hrounds
  unfold sendGeneratedSqlFile
  simp only [hsend, Bool.not_true, Bool.false_eq_true, if_false]

theorem operated_congr {r : Request} {state other : SharedState} {h : Handled}
    (htables : other.tables = state.tables)
    (hcancel : other.cancelClientId = state.cancelClientId) :
    operated r (other, h) = operated r (state, h) := by
  unfold operated
  simp only [htables, hcancel]

/-- The end of an upload by its effects. -/
theorem operated_handleUploadEnd (env : RequestEnv) (r : Request) (state : SharedState) :
    operated r (handleUploadEnd env state) =
      ⟨(loadErJson env.cjsonParse state env.uploadFile).1.tables, state.cancelClientId,
        match (loadErJson env.cjsonParse state env.uploadFile).2 with
        | .ok err => ⟨r.jobId, .done, cut responseSize (lit "OK: " ++ cut errSize err)⟩
        | .error err =>
            ⟨r.jobId, .error, cut responseSize (lit "ERROR: " ++ cut errSize err)⟩⟩ := by
  obtain ⟨tables, hframe⟩ := loadErJson_frame env.cjsonParse state env.uploadFile
  unfold handleUploadEnd
  split
  · next after err hload =>
      rw [hload] at hframe ⊢
      obtain rfl : after = _ := hframe
      rfl
  · next after err hload =>
      rw [hload] at hframe ⊢
      obtain rfl : after = _ := hframe
      rfl

theorem handleUploadEnd_congr (env : RequestEnv) (r : Request) {state other : SharedState}
    (htables : other.tables = state.tables)
    (hcancel : other.cancelClientId = state.cancelClientId) :
    operated r (handleUploadEnd env other) = operated r (handleUploadEnd env state) := by
  obtain ⟨hresult, hloaded⟩ := loadErJson_congr env.cjsonParse env.uploadFile htables
  rw [operated_handleUploadEnd, operated_handleUploadEnd, hcancel, hresult, hloaded]

/-- A download that succeeds by its effects. -/
theorem operated_handleDownloadSql (env : RequestEnv) (r : Request) {r' : Request}
    {state : SharedState} {text : CString}
    (htext : (sendGeneratedSqlFile env.download r' state.tables).2 = .ok text) :
    operated r (handleDownloadSql env r' state) =
      ⟨state.tables, state.cancelClientId,
        ⟨r.jobId, .done, cut responseSize (cut errSize text)⟩⟩ := by
  unfold handleDownloadSql
  split
  · next messages err hsend =>
      rw [hsend] at htext
      obtain rfl := Except.ok.inj htext
      rfl
  · next messages err hsend =>
      rw [hsend] at htext
      cases htext

/-- The child looks at the tables alone. -/
theorem childValidateInsert_congr (env : ChildEnv) {state other : SharedState}
    (htables : other.tables = state.tables) (sql : CString) :
    childValidateInsert env other sql = childValidateInsert env state sql := by
  unfold childValidateInsert validateInsertBatch
  rw [htables]

/-- How an INSERT request ends: tables and reply. -/
def InsertVerdict.operated (r : Request) (state : SharedState) : InsertVerdict → Operated
  | .empty => ⟨state.tables, state.cancelClientId,
      ⟨r.jobId, .error, cut responseSize (lit "empty insert payload")⟩⟩
  | .rejected err => ⟨state.tables, state.cancelClientId,
      ⟨r.jobId, .error, cut responseSize (lit "ERROR: " ++ err)⟩⟩
  | .applyFailed err => ⟨state.tables, state.cancelClientId,
      ⟨r.jobId, .error, cut responseSize (lit "ERROR: " ++ err)⟩⟩
  | .applied err after => ⟨after.tables, after.cancelClientId,
      ⟨r.jobId, .done, cut responseSize err⟩⟩

theorem operated_handleValidateInsert (env : RequestEnv) (r r' : Request) (state : SharedState) :
    (handleValidateInsert env r' state).map (operated r) =
      (insertVerdict env r' { state with insertCommands := state.insertCommands + 1 }).map
        (InsertVerdict.operated r { state with insertCommands := state.insertCommands + 1 }) := by
  unfold handleValidateInsert
  rw [Option.map_map]
  congr 1
  funext verdict
  cases verdict <;> rfl

/-- The parent looks at the tables and changes nothing else. -/
theorem insertVerdict_congr {env other : RequestEnv} (hchild : other.child = env.child)
    (hparse : other.pgQueryParse = env.pgQueryParse) {r r' : Request}
    (hpayload : r'.payload = r.payload) {state state' : SharedState}
    (htables : state'.tables = state.tables)
    (hcancel : state'.cancelClientId = state.cancelClientId) :
    (insertVerdict other r' state').map (InsertVerdict.operated r state') =
      (insertVerdict env r state).map (InsertVerdict.operated r state) := by
  unfold insertVerdict
  rw [hpayload]
  cases r.payload with
  | none => simp [InsertVerdict.operated, htables, hcancel]
  | some payload =>
      simp only [hchild, childValidateInsert_congr env.child htables]
      cases childValidateInsert env.child state (cstr payload) with
      | fault => rfl
      | error err => simp [InsertVerdict.operated, htables, hcancel]
      | ok _ =>
          unfold applyInsertBatch
          rw [hparse, htables]
          cases acceptedBatch env.pgQueryParse state.tables (cstr payload) with
          | fault => rfl
          | error err => simp [InsertVerdict.operated, htables, hcancel]
          | ok batch =>
              simp only [Outcome.ok_bind]
              cases appendRows state.tables batch.items with
              | none => rfl
              | some tables => simp [InsertVerdict.operated, hcancel]

/-! ## Any operation by its effects -/

/-- An operation looks at nothing but the tables, the identifier to cancel, and the
file of its client. -/
theorem handleRequest_operated {p : Parsers} {disk : Disk} {r : Request}
    {state other : SharedState} {rounds : List ReadRound} (htables : other.tables = state.tables)
    (hcancel : other.cancelClientId = state.cancelClientId)
    (hreads : ReadsGenerated state r rounds) :
    (handleRequest (p.env disk r []) r.anonymous other).map (operated r) =
      (handleRequest (p.env disk r rounds) r state).map (operated r) := by
  unfold handleRequest dispatchRequest
  simp only [apply_ite (Option.map (operated r)), Option.map_some]
  rw [hcancel]
  -- the branches in the order of the dispatch, a cancelled request first
  refine ite_congr rfl (fun _ => ?_) fun hnot => ?_
  · exact congrArg some (operated_congr htables rfl)
  refine ite_congr rfl (fun _ => ?_) fun _ => ?_
  · exact congrArg some (operated_congr htables hcancel)
  refine ite_congr rfl (fun _ => ?_) fun _ => ?_
  · exact congrArg some (operated_congr htables hcancel)
  refine ite_congr rfl (fun _ => ?_) fun _ => ?_
  · -- a load does not read the rounds of a download
    have hload := handleUploadEnd_congr (p.env disk r rounds) r htables hcancel
    exact congrArg some hload
  refine ite_congr rfl (fun _ => ?_) fun _ => ?_
  · unfold handleGenerateSql
    rw [htables]
    exact congrArg some (operated_congr htables hcancel)
  refine ite_congr rfl (fun hop => ?_) fun _ => ?_
  · have hread := operated_handleDownloadSql (p.env disk r rounds) r
      (sendGeneratedSqlFile_text (hreads hnot hop).1 r state.tables)
    have hother := operated_handleDownloadSql (p.env disk r []) r
      (sendGeneratedSqlFile_text (List.forall_mem_nil _) r.anonymous other.tables)
    rw [hread, hother, htables, hcancel]
  refine ite_congr rfl (fun _ => ?_) fun _ => ?_
  · rw [operated_handleValidateInsert, operated_handleValidateInsert]
    exact insertVerdict_congr rfl rfl rfl htables hcancel
  · exact congrArg some (operated_congr htables hcancel)

/-! ## The parts of a request by their effects -/

section Parts

variable {p : Parsers} {r : Request} {state : SharedState} {disk : Disk}
  {outcomes : List JobOutcome}

theorem effects_updateJobOf (hring : JobRing state) (now : Int) (status : JobStatus)
    (result : CString) :
    Work.effects ⟨updateJobOf r now status result state, disk, outcomes⟩ =
      (Work.effects ⟨state, disk, outcomes⟩).record r.jobId status result := by
  obtain ⟨jobs, hframe⟩ := updateJobOf_frame r now status result state
  have hget := hring.updateJobOf_get r now status result
  rw [hframe] at hget ⊢
  refine Effects.ext rfl rfl rfl (funext fun slot => ?_) rfl rfl
  simp only [Work.effects, Effects.record, hget, apply_ite JobInfo.untimed]
  rfl

theorem effects_clientTouch (now : Int) (clientId : UInt32) :
    Work.effects ⟨clientTouch now clientId state, disk, outcomes⟩ =
      Work.effects ⟨state, disk, outcomes⟩ := by
  obtain ⟨clients, hframe⟩ := clientTouch_frame now clientId state
  rw [hframe]
  rfl

theorem effects_beginRequest (hring : JobRing state) (now : Int) :
    Work.effects ⟨beginRequest now r state, disk, outcomes⟩ =
      (Work.effects ⟨state, disk, outcomes⟩).mark r := by
  let active : SharedState :=
    { clientTouch now r.clientId state with
      activeClientId := toInt r.clientId
      activeOpId := toInt r.opId
      activeStartedAt := now }
  have htouched : JobRing (clientTouch now r.clientId state) :=
    (keepsRecords_clientTouch now r.clientId state).jobRing hring
  have hactive : JobRing active := ⟨htouched.next, htouched.ring⟩
  have htouch : Work.effects ⟨active, disk, outcomes⟩ = Work.effects ⟨state, disk, outcomes⟩ :=
    effects_clientTouch now r.clientId
  rw [Effects.mark, ← htouch]
  exact effects_updateJobOf hactive now .running (lit "running")

theorem effects_finishRequest (hring : JobRing state) (now elapsed : Int) (h : Handled) :
    Work.effects ⟨(finishRequest now elapsed r h state).1, disk, outcomes ++ [h.outcome r]⟩ =
      (Work.effects ⟨state, disk, outcomes⟩).settle (h.outcome r) := by
  have hcount : JobRing (countRequest elapsed h state) := ⟨hring.next, hring.ring⟩
  have hclear : ∀ state, Work.effects ⟨clearActive r state, disk, outcomes ++ [h.outcome r]⟩ =
      Work.effects ⟨state, disk, outcomes ++ [h.outcome r]⟩ := by
    intro state
    obtain ⟨_, _, _, hframe⟩ := clearActive_frame r state
    rw [hframe]
    rfl
  have hupdate : Work.effects ⟨updateJobOf r now h.status h.response (countRequest elapsed h state),
      disk, outcomes ++ [h.outcome r]⟩ =
        (Work.effects ⟨state, disk, outcomes⟩).settle (h.outcome r) :=
    effects_updateJobOf hcount now h.status h.response
  exact (hclear _).trans hupdate

theorem effects_handleRequest {env : RequestEnv} {state' : SharedState} {h : Handled}
    (hhandle : handleRequest env r state = some (state', h)) :
    Work.effects ⟨state', disk.after r state, outcomes⟩ =
      (Work.effects ⟨state, disk, outcomes⟩).change r (operated r (state', h)) := by
  obtain ⟨_, _, _, _, _, _, rfl⟩ := handleRequest_effect hhandle
  rfl

/-- The operation, on a host and on its effects. -/
theorem operate_effects {rounds : List ReadRound} (hreads : ReadsGenerated state r rounds) :
    (Work.effects ⟨state, disk, outcomes⟩).operate p r =
      (handleRequest (p.env disk r rounds) r state).map (operated r) :=
  handleRequest_operated rfl rfl hreads

theorem effects_receiveRequest (now fd : Int) (a : Arrival) :
    (Work.effects ⟨state, disk, outcomes⟩).accept a =
      ((receiveRequest now fd a.clientId a.opId a.payload state).1.anonymous,
        Work.effects ⟨(receiveRequest now fd a.clientId a.opId a.payload state).2, disk,
          outcomes⟩) := by
  unfold Effects.accept receiveRequest
  cases isProcessingOp a.opId with
  | false => rfl
  | true =>
      let job : JobInfo :=
        ⟨state.nextJobId, toInt a.clientId, toInt a.opId, .queued, snprintf (lit "queued"), now,
          0, 0⟩
      refine Prod.ext rfl (Effects.ext rfl rfl rfl (funext fun slot => ?_) rfl rfl)
      change _ = ((state.jobs.set (ringPlace maxJobs state.nextJobId) job).get slot).untimed
      rw [FixedArray.get_set, apply_ite JobInfo.untimed]
      rfl

end Parts

end SqlCodeGenerator
