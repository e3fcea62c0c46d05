import SqlCodeGenerator.Model

/-!
# Jobs, clients and the history

The helpers of `server.c` that change the shared state in one place: the ring of
jobs, the table of clients and the ring of history lines.  Every time that the C
code reads from the clock is an argument.

None of them looks at the tables or changes them; the frame lemmas say once what
each of them changes.
-/

namespace SqlCodeGenerator

open Library

/-- The cast of a `uint32_t` to `int`. -/
def toInt (n : UInt32) : Int := n.toBitVec.toInt

/-- `history_add`. -/
def historyAdd (state : SharedState) (line : CString) : SharedState :=
  { state with
    history := state.history.set
      ⟨state.historyCount % maxHistory, Nat.mod_lt _ (by decide)⟩ (snprintf line)
    historyCount := state.historyCount + 1 }

/-! ## Jobs -/

/-- `job_find`: the first slot with that job identifier. -/
def jobFind (state : SharedState) (jobId : Nat) : Option (Fin maxJobs) :=
  (List.finRange maxJobs).find? fun slot => decide ((state.jobs.get slot).jobId = jobId)

/-- `job_create`: the identifier given, and the state with its record. -/
def jobCreate (now : Int) (clientId opId : UInt32) (state : SharedState) :
    Nat × SharedState :=
  let jobId := state.nextJobId
  let job : JobInfo :=
    ⟨jobId, toInt clientId, toInt opId, .queued, snprintf (lit "queued"), now, 0, 0⟩
  (jobId, { state with
    nextJobId := state.nextJobId + 1
    jobs := state.jobs.set ⟨jobId % maxJobs, Nat.mod_lt _ (by decide)⟩ job
    lastJobByClient :=
      if h : clientId.toNat < maxClients then state.lastJobByClient.set ⟨clientId.toNat, h⟩ jobId
      else state.lastJobByClient })

/-- The record of a job with a new status and result. -/
def JobInfo.update (job : JobInfo) (now : Int) (status : JobStatus) (result : CString) :
    JobInfo :=
  { job with
    status := status
    result := snprintf result
    startedAt := if status = .running then now else job.startedAt
    finishedAt := if status = .done ∨ status = .error then now else job.finishedAt }

/-- `job_update`, as one step: nothing happens when the record is no longer there. -/
def jobUpdate (now : Int) (jobId : Nat) (status : JobStatus) (result : CString)
    (state : SharedState) : SharedState :=
  match jobFind state jobId with
  | none => state
  | some slot =>
      { state with jobs := state.jobs.set slot ((state.jobs.get slot).update now status result) }

/-! ## Clients -/

/-- The slot of a connected client of that identifier. -/
def clientFind (state : SharedState) (clientId : Int) : Option (Fin maxClients) :=
  (List.finRange maxClients).find? fun slot =>
    decide ((state.clients.get slot).clientId = clientId ∧ (state.clients.get slot).fd > 0)

/-- `client_touch`. -/
def clientTouch (now : Int) (clientId : UInt32) (state : SharedState) : SharedState :=
  match clientFind state (toInt clientId) with
  | none => state
  | some slot =>
      { state with
        clients := state.clients.set slot { state.clients.get slot with lastSeen := now } }

/-- `is_registered_client`. -/
def isRegisteredClient (state : SharedState) (clientId : UInt32) : Bool :=
  (clientFind state (toInt clientId)).isSome

/-- `client_fd_by_id`: is there a descriptor for that client? -/
def hasClientFd (state : SharedState) (clientId : Int) : Bool :=
  (clientFind state clientId).isSome

/-- `register_client`: the first free slot, if there is one. -/
def registerClient (now fd : Int) (addr : CString) (clientId : Int) (state : SharedState) :
    SharedState :=
  match (List.finRange maxClients).find? fun slot => decide ((state.clients.get slot).fd = 0) with
  | none => state
  | some slot =>
      { state with
        clients := state.clients.set slot ⟨clientId, fd, snprintf addr, now, now⟩
        clientCount := state.clientCount + 1 }

/-- `client_remove_fd`: the first slot with that descriptor is freed. -/
def clientRemoveFd (fd : Int) (state : SharedState) : SharedState :=
  match (List.finRange maxClients).find? fun slot => decide ((state.clients.get slot).fd = fd) with
  | none => state
  | some slot =>
      { state with
        clients := state.clients.set slot { state.clients.get slot with fd := 0 }
        clientCount := state.clientCount - 1 }

/-! ## What they leave alone -/

/-- An update changes records only. -/
theorem jobUpdate_frame (now : Int) (jobId : Nat) (status : JobStatus) (result : CString)
    (state : SharedState) :
    ∃ jobs, jobUpdate now jobId status result state = { state with jobs := jobs } := by
  unfold jobUpdate
  split
  · exact ⟨state.jobs, rfl⟩
  · exact ⟨_, rfl⟩

/-- The table of clients is all that `client_touch` changes. -/
theorem clientTouch_frame (now : Int) (clientId : UInt32) (state : SharedState) :
    ∃ clients, clientTouch now clientId state = { state with clients := clients } := by
  unfold clientTouch
  split
  · exact ⟨state.clients, rfl⟩
  · exact ⟨_, rfl⟩

theorem registerClient_frame (now fd : Int) (addr : CString) (clientId : Int)
    (state : SharedState) :
    ∃ clients clientCount, registerClient now fd addr clientId state =
      { state with clients := clients, clientCount := clientCount } := by
  unfold registerClient
  split
  · exact ⟨state.clients, state.clientCount, rfl⟩
  · exact ⟨_, _, rfl⟩

theorem clientRemoveFd_frame (fd : Int) (state : SharedState) :
    ∃ clients clientCount, clientRemoveFd fd state =
      { state with clients := clients, clientCount := clientCount } := by
  unfold clientRemoveFd
  split
  · exact ⟨state.clients, state.clientCount, rfl⟩
  · exact ⟨_, _, rfl⟩

/-! ## Records after an update -/

/-- An update changes no identifier, so records are found where they were. -/
theorem jobFind_jobUpdate (now : Int) (jobId other : Nat) (status : JobStatus)
    (result : CString) (state : SharedState) :
    jobFind (jobUpdate now jobId status result state) other = jobFind state other := by
  unfold jobUpdate
  split
  · rfl
  · next slot hslot =>
      unfold jobFind
      congr 1
      funext place
      simp only [FixedArray.get_set]
      split
      · next hplace => rw [hplace, JobInfo.update]
      · rfl

/-- The record of a job that has been updated, where it is still there. -/
theorem jobUpdate_status {now : Int} {jobId : Nat} {status : JobStatus} {result : CString}
    {state : SharedState} {slot : Fin maxJobs}
    (h : jobFind (jobUpdate now jobId status result state) jobId = some slot) :
    ((jobUpdate now jobId status result state).jobs.get slot).status = status ∧
      ((jobUpdate now jobId status result state).jobs.get slot).result = snprintf result := by
  rw [jobFind_jobUpdate] at h
  unfold jobUpdate
  rw [h]
  simp [JobInfo.update]

end SqlCodeGenerator
