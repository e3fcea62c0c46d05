import SqlCodeGenerator.JobRetention
import SqlCodeGenerator.ValidatorAgreement

/-!
# INSERT requests are all or nothing

From the moment the worker pops an `OP_VALIDATE_INSERT` request to the end of
`process_request`, with any steps of the interface threads in between: either
every row of the batch is appended, the reply is `OP_OK` and the job ends `DONE`,
or the tables are as they were, the reply is `OP_ERROR` and the job ends `ERROR`.

* `handleRequest_insert`: the operation itself.
* `serve_process`: what the run of the worker over one request amounts to.
* `insertRequest_allOrNothing`: the two together, from any reachable server.
* `insertRequest_ends_iff`: the job has a record that says so exactly if fewer than
  `MAX_JOBS` jobs have been created after it by then.
* `overwrittenJob_lost`: otherwise its record is that of another job.
-/

namespace SqlCodeGenerator

open Library

/-! ## The operation -/

/-- An accepted batch has rows. -/
theorem acceptedBatch_ne_nil {pgQueryParse : CString → Option CString} {tables : Tables}
    {sql : CString} {batch : InsertBatch}
    (h : acceptedBatch pgQueryParse tables sql = .ok batch) : batch.items ≠ [] := by
  obtain ⟨rowss, -, -, hne⟩ := parseBatch_eq_ok_iff.mp (acceptedBatch_eq_ok_iff.mp h).2.1
  exact hne

/-- The rows of the batch that the request carries have been appended by the loop
of `apply_insert_batch`: every table holds what it held, followed by its own rows
of the batch, in order. -/
def BatchApplied (env : RequestEnv) (r : Request) (tables tables' : Tables) : Prop :=
  ∃ payload batch, r.payload = some payload ∧
    acceptedBatch env.pgQueryParse tables (cstr payload) = .ok batch ∧ batch.items ≠ [] ∧
    appendRows tables batch.items = some tables' ∧
    ∀ i, storedRows tables' i = storedRows tables i ++
      (batch.items.filter fun ir => ir.tableIndex = i).map InsertRow.row

theorem storedRows_appendRows {tables tables' : Tables} {rows : List InsertRow}
    (h : appendRows tables rows = some tables') (i : Fin maxTables) :
    storedRows tables' i = storedRows tables i ++
      (rows.filter fun ir => ir.tableIndex = i).map InsertRow.row := by
  rw [(appendRows_spec h).2, insertAll_apply, List.filter_map, List.map_map]
  rfl

/-- The verdict on an INSERT request, against the tables. -/
theorem insertVerdict_applied {env : RequestEnv} {r : Request} {state after : SharedState}
    {err : CString} (h : insertVerdict env r state = some (.applied err after)) :
    ∃ tables, BatchApplied env r state.tables tables ∧ after = { state with tables := tables } := by
  unfold insertVerdict at h
  split at h
  · cases h
  · next payload hpayload =>
      split at h
      · cases h
      · cases h
      · split at h
        · cases h
        · cases h
        · next applied happlied =>
            obtain ⟨batch, haccepted, rfl⟩ := applyInsertBatch_eq_ok_iff.mp happlied
            simp only [Option.map_map, Option.map_eq_some_iff, Function.comp_apply,
              InsertVerdict.applied.injEq] at h
            obtain ⟨tables, happend, -, rfl⟩ := h
            exact ⟨tables, ⟨payload, batch, hpayload, haccepted, acceptedBatch_ne_nil haccepted,
              happend, storedRows_appendRows happend⟩, rfl⟩

/-- The operation of an INSERT request that is not cancelled: it sends nothing
itself, creates no job, and puts the whole batch into the tables or nothing. -/
theorem handleValidateInsert_spec {env : RequestEnv} {r : Request} {state state' : SharedState}
    {h : Handled} (hhandle : handleValidateInsert env r state = some (state', h)) :
    h.responseSent = false ∧ h.messages = [] ∧
      state'.nextJobId = state.nextJobId ∧
      ((h.respOp = opOk ∧ BatchApplied env r state.tables state'.tables) ∨
        (h.respOp = opError ∧ state'.tables = state.tables)) := by
  unfold handleValidateInsert at hhandle
  obtain ⟨verdict, hverdict, hresult⟩ := Option.map_eq_some_iff.mp hhandle
  cases verdict with
  | empty =>
      obtain ⟨rfl, rfl⟩ := Prod.mk.inj hresult
      exact ⟨rfl, rfl, rfl, Or.inr ⟨rfl, rfl⟩⟩
  | rejected err =>
      obtain ⟨rfl, rfl⟩ := Prod.mk.inj hresult
      exact ⟨rfl, rfl, rfl, Or.inr ⟨rfl, rfl⟩⟩
  | applyFailed err =>
      obtain ⟨rfl, rfl⟩ := Prod.mk.inj hresult
      exact ⟨rfl, rfl, rfl, Or.inr ⟨rfl, rfl⟩⟩
  | applied err after =>
      obtain ⟨rfl, rfl⟩ := Prod.mk.inj hresult
      obtain ⟨tables, happlied, rfl⟩ := insertVerdict_applied hverdict
      exact ⟨rfl, rfl, rfl, Or.inl ⟨rfl, happlied⟩⟩

/-- The operation of an INSERT request, cancelled or not: one reply and no other
message, and either the whole batch or nothing in the tables. -/
theorem handleRequest_insert {env : RequestEnv} {r : Request} {state state' : SharedState}
    {h : Handled} (hop : r.opId = opValidateInsert)
    (hhandle : handleRequest env r state = some (state', h)) :
    h.responseSent = false ∧ h.messages = [] ∧
      ((h.respOp = opOk ∧ BatchApplied env r state.tables state'.tables) ∨
        (h.respOp = opError ∧ state'.tables = state.tables)) := by
  unfold handleRequest dispatchRequest at hhandle
  split at hhandle
  · obtain ⟨rfl, rfl⟩ := Prod.mk.inj (Option.some.inj hhandle)
    exact ⟨rfl, rfl, Or.inr ⟨rfl, rfl⟩⟩
  · -- of the branches of the dispatch only the last but one remains
    simp only [hop, show opValidateInsert ≠ opUploadBegin by decide,
      show opValidateInsert ≠ opUploadChunk by decide,
      show opValidateInsert ≠ opUploadEnd by decide,
      show opValidateInsert ≠ opGenerateSql by decide,
      show opValidateInsert ≠ opDownloadSql by decide, if_false] at hhandle
    obtain ⟨hsent, hmessages, -, hcases⟩ := handleValidateInsert_spec hhandle
    exact ⟨hsent, hmessages, hcases⟩

/-! ## The run over one request -/

/-- The steps of the worker over one request, with steps of the interface threads
before each of its parts. -/
def processEvents (env : RequestEnv) (start finish elapsed : Int)
    (before between after : List InterfaceEvent) : List Event :=
  .pop :: (before.map .interface ++ .begin start ::
    (between.map .interface ++ .handle env :: (after.map .interface ++ [.finish finish elapsed])))

/-- What such a run amounts to: the operation finds the tables of the beginning,
and the end finds the tables of the operation. -/
theorem serve_process {s s' : Server} {r : Request} {rest : List Request} {env : RequestEnv}
    {start finish elapsed : Int} {before between after : List InterfaceEvent}
    (hqueue : s.queue = r :: rest)
    (hrun : serve s (processEvents env start finish elapsed before between after) = some s') :
    ∃ state state' h last, state.tables = s.shared.tables ∧
      handleRequest env r state = some (state', h) ∧ last.tables = state'.tables ∧
      s'.shared = (finishRequest finish elapsed r h last).1 ∧
      s'.replies = s.replies ++ h.messages ++ (finishRequest finish elapsed r h last).2 := by
  unfold processEvents serve at hrun
  -- the servers behind each of the worker's parts and each stretch of interface steps
  obtain ⟨s₁, hpop, hrun⟩ := runFrom_cons_eq_some_iff.mp hrun
  rw [runFrom_append, Option.bind_eq_some_iff] at hrun
  obtain ⟨s₂, hbefore, hrun⟩ := hrun
  obtain ⟨s₃, hbegin, hrun⟩ := runFrom_cons_eq_some_iff.mp hrun
  rw [runFrom_append, Option.bind_eq_some_iff] at hrun
  obtain ⟨s₄, hbetween, hrun⟩ := hrun
  obtain ⟨s₅, hhandle, hrun⟩ := runFrom_cons_eq_some_iff.mp hrun
  rw [runFrom_append, Option.bind_eq_some_iff] at hrun
  obtain ⟨s₆, hafter, hrun⟩ := hrun
  obtain ⟨s₇, hfinish, hend⟩ := runFrom_cons_eq_some_iff.mp hrun
  obtain rfl := Option.some.inj hend
  obtain ⟨htables₂, hworker₂, hreplies₂⟩ := serve_interface_frame hbefore
  obtain ⟨htables₄, hworker₄, hreplies₄⟩ := serve_interface_frame hbetween
  obtain ⟨htables₆, hworker₆, hreplies₆⟩ := serve_interface_frame hafter
  have hpop' : s₁.shared.tables = s.shared.tables ∧ s₁.worker = .popped r ∧
      s₁.replies = s.replies := by
    cases Event.step_spec hpop with
    | pop first _ hworker hfirst =>
        obtain ⟨rfl, rfl⟩ := List.cons.inj (hqueue.symm.trans hfirst)
        exact ⟨rfl, rfl, rfl⟩
  obtain ⟨htables₁, hworker₁, hreplies₁⟩ := hpop'
  simp only [Event.step, hworker₂, hworker₁, Option.some.injEq] at hbegin
  subst hbegin
  simp only [Event.step, hworker₄, Option.map_eq_some_iff, Prod.exists] at hhandle
  obtain ⟨state', h, hhandle, rfl⟩ := hhandle
  simp only [Event.step, hworker₆, Option.some.injEq] at hfinish
  subst hfinish
  refine ⟨s₄.shared, state', h, s₆.shared, ?_, hhandle, htables₆, rfl, ?_⟩
  · rw [htables₄, beginRequest_tables, htables₂, htables₁]
  · simp only [hreplies₆, hreplies₄, hreplies₂, hreplies₁]

/-! ## Every processing request has a job -/

/-- The next job identifier is positive, and every request that is to have a job
has one that has been given out. -/
structure Server.Numbered (s : Server) : Prop where
  next : 0 < s.shared.nextJobId
  ahead : ∀ r ∈ s.ahead, isProcessingOp r.opId = true →
    0 < r.jobId ∧ r.jobId < s.shared.nextJobId

theorem Event.step_numbered {s s' : Server} {e : Event} (hs : s.Numbered)
    (h : e.step s = some s') : s'.Numbered := by
  have hgrows := Event.step_nextJobId_le h
  refine ⟨Nat.lt_of_lt_of_le hs.next hgrows, fun r hr hop => ?_⟩
  rcases Event.step_ahead h r hr with hold | ⟨now, fd, clientId, opId, payload, hbuilt, -⟩
  · obtain ⟨hpos, hgiven⟩ := hs.ahead r hold hop
    exact ⟨hpos, Nat.lt_of_lt_of_le hgiven hgrows⟩
  · -- the request takes the identifier that was next
    have hrequest : _ = r := congrArg Prod.fst hbuilt
    have hshared : _ = s'.shared := congrArg Prod.snd hbuilt
    rw [← hrequest, receiveRequest_request] at hop ⊢
    simp only at hop
    simp only [hop, if_true]
    refine ⟨hs.next, ?_⟩
    rw [← hshared, receiveRequest, if_pos hop]
    exact Nat.lt_succ_self _

/-- In every reachable server, every queued INSERT request has a job. -/
theorem serve_numbered {now : Int} {events : List Event} {s : Server}
    (hreach : serve (Server.init now) events = some s) : s.Numbered := by
  refine runFrom_invariant (fun _ _ _ hs hstep => Event.step_numbered hs hstep) ?_ hreach
  exact ⟨Nat.one_pos, fun _ h => (by cases h)⟩

/-! ## All or nothing -/

/-- The request has taken effect as a whole: its rows are in their tables, its job
ends `DONE` and its reply is `OP_OK`. -/
structure InsertDone (env : RequestEnv) (r : Request) (s s' : Server) : Prop where
  applied : BatchApplied env r s.shared.tables s'.shared.tables
  job : ∀ slot, jobFind s'.shared r.jobId = some slot →
    (s'.shared.jobs.get slot).status = .done
  reply : ∃ text, s'.replies = s.replies ++ [respondText r.fd r.clientId opOk text]

/-- The request has had no effect: every table is as it was, its job ends `ERROR`
and its reply is `OP_ERROR`. -/
structure InsertRefused (r : Request) (s s' : Server) : Prop where
  tables : s'.shared.tables = s.shared.tables
  job : ∀ slot, jobFind s'.shared r.jobId = some slot →
    (s'.shared.jobs.get slot).status = .error
  reply : ∃ text, s'.replies = s.replies ++ [respondText r.fd r.clientId opError text]

/-- An applied batch changes no definition and no stored row. -/
theorem BatchApplied.grows {env : RequestEnv} {r : Request} {tables tables' : Tables}
    (h : BatchApplied env r tables tables') :
    SameDefinitions tables tables' ∧ ∀ i, storedRows tables i <+: storedRows tables' i := by
  obtain ⟨payload, batch, -, -, -, happend, hrows⟩ := h
  refine ⟨(appendRows_spec happend).1, fun i => ?_⟩
  rw [hrows i]
  exact List.prefix_append _ _

/-- An INSERT request of a reachable server is all or nothing, and in either case
no table definition and no stored row has changed. -/
theorem insertRequest_allOrNothing {now start finish elapsed : Int} {events : List Event}
    {s s' : Server} {r : Request} {rest : List Request} {env : RequestEnv}
    {before between after : List InterfaceEvent}
    (hreach : serve (Server.init now) events = some s) (hqueue : s.queue = r :: rest)
    (hop : r.opId = opValidateInsert)
    (hrun : serve s (processEvents env start finish elapsed before between after) = some s') :
    0 < r.jobId ∧ (InsertDone env r s s' ∨ InsertRefused r s s') ∧
      SameDefinitions s.shared.tables s'.shared.tables ∧
      ∀ i, storedRows s.shared.tables i <+: storedRows s'.shared.tables i := by
  have hjob : 0 < r.jobId :=
    ((serve_numbered hreach).ahead r (by simp [Server.ahead, hqueue]) (by rw [hop]; decide)).1
  obtain ⟨state, state', h, last, htables, hhandle, hlast, hshared, hreplies⟩ :=
    serve_process hqueue hrun
  obtain ⟨hsent, hmessages, hcases⟩ := handleRequest_insert hop hhandle
  have htables' : s'.shared.tables = state'.tables := by
    rw [hshared, finishRequest_tables, hlast]
  have hstatus : ∀ slot, jobFind s'.shared r.jobId = some slot →
      (s'.shared.jobs.get slot).status = h.status := by
    intro slot hslot
    rw [hshared] at hslot ⊢
    exact finishRequest_job hjob hslot
  have hreply : s'.replies =
      s.replies ++ [respondText r.fd r.clientId h.respOp (wireText r h.response)] := by
    rw [hreplies, hmessages, List.append_nil]
    simp [finishRequest, Handled.reply, hsent]
  refine ⟨hjob, ?_⟩
  rcases hcases with ⟨hok, happlied⟩ | ⟨herror, hsame⟩
  · rw [htables, ← htables'] at happlied
    refine ⟨Or.inl ⟨happlied, ?_, ⟨_, hok ▸ hreply⟩⟩, happlied.grows⟩
    intro slot hslot
    rw [hstatus slot hslot, Handled.status, if_pos hok]
  · have hunchanged : s'.shared.tables = s.shared.tables := by rw [htables', hsame, htables]
    refine ⟨Or.inr ⟨hunchanged, ?_, ⟨_, herror ▸ hreply⟩⟩, ?_⟩
    · intro slot hslot
      rw [hstatus slot hslot, Handled.status, herror, if_neg (by decide)]
    · rw [hunchanged]
      exact ⟨SameDefinitions.refl _, fun i => List.prefix_refl _⟩

/-! ## The record of the job -/

/-- The jobs that a run creates. -/
def createdJobs (events : List Event) : Nat := events.countP fun e => e.createsJobFor.isSome

theorem serve_nextJobId {s s' : Server} {events : List Event} (h : serve s events = some s') :
    s'.shared.nextJobId = s.shared.nextJobId + createdJobs events := by
  induction events generalizing s with
  | nil =>
      obtain rfl := Option.some.inj h
      rfl
  | cons e events ih =>
      obtain ⟨middle, hstep, hrest⟩ := runFrom_cons_eq_some_iff.mp h
      rw [ih hrest, createdJobs, createdJobs, List.countP_cons]
      rcases Event.step_records hstep with
        ⟨hcreates, hkeeps⟩ | ⟨now, clientId, opId, hcreates, hshared⟩
      · rw [hkeeps.next, hcreates]
        rfl
      · rw [hshared, hcreates]
        show s.shared.nextJobId + 1 + _ = s.shared.nextJobId + (_ + 1)
        omega

/-- The job of the request has a record, which says how it ended. -/
def JobEnds (s : Server) (r : Request) (status : JobStatus) : Prop :=
  ∃ slot, jobFind s.shared r.jobId = some slot ∧ (s.shared.jobs.get slot).status = status

/-- What is asked of an INSERT request: it is all or nothing, in the tables, in the reply
and in the record of its job; no definition and no stored row changes. -/
structure InsertAllOrNothing (env : RequestEnv) (r : Request) (s s' : Server) : Prop where
  outcome : (InsertDone env r s s' ∧ JobEnds s' r .done) ∨
    (InsertRefused r s s' ∧ JobEnds s' r .error)
  definitions : SameDefinitions s.shared.tables s'.shared.tables
  rows : ∀ i, storedRows s.shared.tables i <+: storedRows s'.shared.tables i

/-- An INSERT request of a reachable server is all or nothing, with a record of its job
that says so, exactly if fewer than `MAX_JOBS` jobs are created after its own up to the end
of `process_request`. -/
theorem insertRequest_ends_iff {now start finish elapsed : Int} {events : List Event}
    {s s' : Server} {r : Request} {rest : List Request} {env : RequestEnv}
    {before between after : List InterfaceEvent}
    (hreach : serve (Server.init now) events = some s) (hqueue : s.queue = r :: rest)
    (hop : r.opId = opValidateInsert)
    (hrun : serve s (processEvents env start finish elapsed before between after) = some s') :
    InsertAllOrNothing env r s s' ↔
      s.shared.nextJobId +
        createdJobs (processEvents env start finish elapsed before between after) ≤
          r.jobId + maxJobs := by
  obtain ⟨hpos, hcases, hdefinitions, hrows⟩ := insertRequest_allOrNothing hreach hqueue hop hrun
  have hreach' : serve (Server.init now)
      (events ++ processEvents env start finish elapsed before between after) = some s' := by
    rw [serve, runFrom_append]
    exact Option.bind_eq_some_iff.mpr ⟨s, hreach, hrun⟩
  have hgiven := ((serve_numbered hreach).ahead r (by simp [Server.ahead, hqueue])
    (by rw [hop]; decide)).2
  have hnext := serve_nextJobId hrun
  have hfound := serve_retained hreach' hpos
  have hrecord : (∃ slot, jobFind s'.shared r.jobId = some slot) ↔
      s'.shared.nextJobId ≤ r.jobId + maxJobs := by
    rw [← Option.isSome_iff_exists, hfound]
    omega
  rw [← hnext, ← hrecord]
  constructor
  · intro h
    rcases h.outcome with ⟨-, slot, hslot, -⟩ | ⟨-, slot, hslot, -⟩
    · exact ⟨slot, hslot⟩
    · exact ⟨slot, hslot⟩
  · rintro ⟨slot, hslot⟩
    refine ⟨?_, hdefinitions, hrows⟩
    rcases hcases with hdone | hrefused
    · exact Or.inl ⟨hdone, slot, hslot, hdone.job slot hslot⟩
    · exact Or.inr ⟨hrefused, slot, hslot, hrefused.job slot hslot⟩

/-! ### A request that is applied -/

/-- An environment in which every call succeeds, nothing is uploaded or downloaded,
and libpg_query accepts every text. -/
def quietEnv : RequestEnv where
  createUpload := .ok ()
  openUpload := .ok ()
  writeUpload := .ok ()
  uploadFile := .holding sampleText
  cjsonParse := sampleParse
  download := ⟨.ok (), .ok (), .ok (), true, [], true⟩
  child := ⟨true, true, true, true, fun _ => none⟩
  pgQueryParse := fun _ => none

/-- A client connects, uploads the sample document, and asks for an insertion. -/
def insertEvents : List Event :=
  [.interface (.connect 0 5 (lit "10.0.0.1")),
    .interface (.receive 1 5 1 opUploadEnd []), .interface .push,
    .pop, .begin 2, .handle quietEnv, .finish 3 1,
    .interface (.receive 4 5 1 opValidateInsert
      ((lit "INSERT INTO u VALUES (1); INSERT INTO o VALUES (1)").map Subtype.val)),
    .interface .push]

/-- The request. -/
def insertRequest : Request :=
  ⟨5, 1, opValidateInsert, 2,
    some ((lit "INSERT INTO u VALUES (1); INSERT INTO o VALUES (1)").map Subtype.val), 50⟩

/-- The request as it is processed, while the admin asks to cancel another client. -/
def insertProcess : List Event := processEvents quietEnv 5 6 1 [] [.cancel 7] []

theorem insertEvents_run :
    ((serve (Server.init 0) insertEvents).bind fun s =>
      (serve s insertProcess).map fun s' =>
        (s.queue, s.shared.nextJobId, (storedRows s.shared.tables 0).length,
          (storedRows s'.shared.tables 0).length)) = some ([insertRequest], 3, 0, 1) := by
  decide +kernel

/-- The request is applied, and its job ends `DONE`. -/
theorem insertRequest_done :
    ∃ s s', serve (Server.init 0) insertEvents = some s ∧ serve s insertProcess = some s' ∧
      InsertDone quietEnv insertRequest s s' ∧ JobEnds s' insertRequest .done := by
  obtain ⟨s, hreach, hrest⟩ := Option.bind_eq_some_iff.mp insertEvents_run
  obtain ⟨s', hrun, hrows⟩ := Option.map_eq_some_iff.mp hrest
  obtain ⟨hqueue, hnext, hbefore, hafter⟩ : s.queue = [insertRequest] ∧
      s.shared.nextJobId = 3 ∧ (storedRows s.shared.tables 0).length = 0 ∧
      (storedRows s'.shared.tables 0).length = 1 := by
    simpa using hrows
  refine ⟨s, s', hreach, hrun, ?_⟩
  have hfew : s.shared.nextJobId + createdJobs insertProcess ≤ insertRequest.jobId + maxJobs := by
    rw [hnext]
    decide
  rcases ((insertRequest_ends_iff hreach hqueue rfl hrun).mpr hfew).outcome with
    hdone | ⟨hrefused, -⟩
  · exact hdone
  · rw [hrefused.tables, hbefore] at hafter
    cases hafter

/-! ### A job record that is gone -/

/-- A client enqueues 129 INSERT requests without a payload, and the first one is
processed. -/
def overwriteEvents : List Event :=
  .interface (.connect 0 5 (lit "10.0.0.1")) ::
    (List.replicate 129
      [Event.interface (.receive 1 5 1 opValidateInsert []), .interface .push]).flatten ++
    [.pop, .begin 2, .handle quietEnv, .finish 3 1]

/-- The request of job 1 is refused, and no record of job 1 is left to say so: job
129 has taken its slot. -/
theorem overwrittenJob_lost :
    (serve (Server.init 0) overwriteEvents).map (fun s =>
      (jobFind s.shared 1, s.replies.map fun message => message.opId)) =
      some (none, [opError]) := by
  decide +kernel

end SqlCodeGenerator
