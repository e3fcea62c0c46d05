import SqlCodeGenerator.ArrivalOrder

/-!
# The order of the jobs

Jobs are created in the order of their numbers, and the queue keeps that order.  A
job waits until the worker begins its request, runs until the request is finished,
and its record follows as long as it is in the ring.

* `Event.step_jobs`: what a step does to the jobs, said once.
* `serve_scheduled`: the jobs that are open are the last ones created, and the status
  of every record tells where its job is.

`job_create` and `job_update` are one step each.
-/

namespace SqlCodeGenerator

open Library

/-! ## Open jobs -/

/-- The jobs of requests that have one. -/
def jobsOf (requests : List Request) : List Nat := (requests.map Request.jobId).filter (0 < ·)

/-- The jobs of the requests that are not finished, in order. -/
def Server.openJobs (s : Server) : List Nat := jobsOf s.unfinished

/-- The request that has been popped and not begun. -/
def Worker.taken : Worker → List Request
  | popped r => [r]
  | _ => []

/-- The requests that have begun and are not finished. -/
def Worker.started : Worker → List Request
  | begun r => [r]
  | handled r _ => [r]
  | _ => []

/-- The open jobs that are not running yet. -/
def Server.waitingJobs (s : Server) : List Nat := jobsOf (s.worker.taken ++ s.ahead)

/-- The job that is running, if there is one. -/
def Server.runningJobs (s : Server) : List Nat := jobsOf s.worker.started

theorem jobsOf_append (requests requests' : List Request) :
    jobsOf (requests ++ requests') = jobsOf requests ++ jobsOf requests' := by
  rw [jobsOf, List.map_append, List.filter_append]
  rfl

theorem mem_jobsOf_iff {requests : List Request} {n : Nat} :
    n ∈ jobsOf requests ↔ 0 < n ∧ ∃ r ∈ requests, r.jobId = n := by
  unfold jobsOf
  rw [List.mem_filter, List.mem_map, decide_eq_true_eq, and_comm]

theorem jobsOf_singleton (r : Request) : jobsOf [r] = if 0 < r.jobId then [r.jobId] else [] := by
  simp [jobsOf, List.filter_cons]

theorem Server.openJobs_eq (s : Server) : s.openJobs = s.runningJobs ++ s.waitingJobs := by
  unfold openJobs runningJobs waitingJobs unfinished
  rw [← jobsOf_append, ← List.append_assoc]
  cases s.worker with
  | _ => rfl

theorem Server.mem_openJobs_iff {s : Server} {n : Nat} :
    n ∈ s.openJobs ↔ 0 < n ∧ ∃ r ∈ s.unfinished, r.jobId = n := mem_jobsOf_iff

/-! ## What a step does to the jobs -/

/-- Every record but that of the job is as it was, and that of the job is updated. -/
def RecordsUpdated (jobs jobs' : FixedArray JobInfo maxJobs) (n : Nat) (now : Int)
    (status : JobStatus) (result : CString) : Prop :=
  ∀ slot, jobs'.get slot =
    if (jobs.get slot).jobId = n then (jobs.get slot).update now status result else jobs.get slot

theorem RecordsUpdated.jobId {jobs jobs' : FixedArray JobInfo maxJobs} {n : Nat} {now : Int}
    {status : JobStatus} {result : CString}
    (h : RecordsUpdated jobs jobs' n now status result) (slot : Fin maxJobs) :
    (jobs'.get slot).jobId = (jobs.get slot).jobId := by
  rw [h slot]
  split
  · rfl
  · rfl

/-- The jobs that a step enters into `RUNNING`. -/
def Event.jobsStarted (s : Server) : Event → List Nat
  | .begin _ => jobsOf s.worker.taken
  | _ => []

/-- The jobs that a step brings to their end. -/
def Event.jobsEnded (s : Server) : Event → List Nat
  | .finish _ _ => s.runningJobs
  | _ => []

theorem Event.jobsStarted_of_creates {s : Server} {e : Event} {clientId : UInt32}
    (h : e.createsJobFor = some clientId) : e.jobsStarted s = [] ∧ e.jobsEnded s = [] := by
  cases e with
  | interface e => exact ⟨rfl, rfl⟩
  | _ => cases h

/-- A step leaves all jobs as they are, creates the next one, begins the first that
waits, or ends the one that runs. -/
inductive JobSpec (s : Server) (e : Event) (s' : Server) : Prop where
  | keep (hcreates : e.createsJobFor = none) (hnext : s'.shared.nextJobId = s.shared.nextJobId)
      (hjobs : s'.shared.jobs = s.shared.jobs) (hrunning : s'.runningJobs = s.runningJobs)
      (hwaiting : s'.waitingJobs = s.waitingJobs)
      (hstarted : e.jobsStarted s = []) (hended : e.jobsEnded s = [])
  | create (now : Int) (clientId opId : UInt32) (hcreates : e.createsJobFor = some clientId)
      (hshared : s'.shared = (jobCreate now clientId opId s.shared).2)
      (hrunning : s'.runningJobs = s.runningJobs)
      (hwaiting : s'.waitingJobs = s.waitingJobs ++ [s.shared.nextJobId])
  | start (now : Int) (r : Request) (he : e = .begin now) (hworker : s.worker = .popped r)
      (hjob : 0 < r.jobId) (hnext : s'.shared.nextJobId = s.shared.nextJobId)
      (hjobs : RecordsUpdated s.shared.jobs s'.shared.jobs r.jobId now .running (lit "running"))
      (hnone : s.runningJobs = []) (hrunning : s'.runningJobs = [r.jobId])
      (hwaiting : s.waitingJobs = r.jobId :: s'.waitingJobs)
  | stop (now elapsed : Int) (r : Request) (h : Handled) (he : e = .finish now elapsed)
      (hworker : s.worker = .handled r h) (hjob : 0 < r.jobId)
      (hnext : s'.shared.nextJobId = s.shared.nextJobId)
      (hjobs : RecordsUpdated s.shared.jobs s'.shared.jobs r.jobId now h.status h.response)
      (hrunning : s.runningJobs = [r.jobId]) (hnone : s'.runningJobs = [])
      (hwaiting : s'.waitingJobs = s.waitingJobs)

/-- An update of the job of a request, in a ring of records. -/
theorem JobRing.updateJobOf_records {state : SharedState} (h : JobRing state) {r : Request}
    (hjob : 0 < r.jobId) (now : Int) (status : JobStatus) (result : CString) :
    RecordsUpdated state.jobs (updateJobOf r now status result state).jobs r.jobId now status
      result := by
  intro slot
  rw [h.updateJobOf_get r now status result slot]
  simp only [hjob, true_and]

theorem updateJobOf_of_noJob {r : Request} (hjob : ¬ 0 < r.jobId) (now : Int)
    (status : JobStatus) (result : CString) (state : SharedState) :
    updateJobOf r now status result state = state := if_neg hjob

theorem clientTouch_jobs (now : Int) (clientId : UInt32) (state : SharedState) :
    (clientTouch now clientId state).jobs = state.jobs := by
  obtain ⟨clients, hframe⟩ := clientTouch_frame now clientId state
  rw [hframe]

/-- The state in which the beginning of a request updates its job. -/
theorem beginRequest_eq (now : Int) (r : Request) (state : SharedState) :
    ∃ touched, touched.jobs = state.jobs ∧ touched.nextJobId = state.nextJobId ∧
      beginRequest now r state = updateJobOf r now .running (lit "running") touched := by
  obtain ⟨clients, hframe⟩ := clientTouch_frame now r.clientId state
  refine ⟨_, ?_, ?_, rfl⟩
  · exact clientTouch_jobs now r.clientId state
  · rw [hframe]

/-- The records after the end of a request. -/
theorem finishRequest_jobs (now elapsed : Int) (r : Request) (h : Handled) (state : SharedState) :
    (finishRequest now elapsed r h state).1.jobs =
      (updateJobOf r now h.status h.response (countRequest elapsed h state)).jobs :=
  clearActive_jobs r _

/-- A job that is not there has nothing to begin or to end. -/
theorem jobsOf_of_noJob {r : Request} (hjob : ¬ 0 < r.jobId) : jobsOf [r] = [] := by
  rw [jobsOf_singleton, if_neg hjob]

theorem jobsOf_of_job {r : Request} (hjob : 0 < r.jobId) : jobsOf [r] = [r.jobId] := by
  rw [jobsOf_singleton, if_pos hjob]

/-- A request that is built creates its job, which waits behind the others, or has
none. -/
theorem JobSpec.receive {s : Server} (hring : JobRing s.shared) (now fd : Int)
    (clientId opId : UInt32) (payload : List UInt8) (hpending : s.pending = none) :
    JobSpec s (.interface (.receive now fd clientId opId payload))
      { s with
        shared := (receiveRequest now fd clientId opId payload s.shared).2
        pending := some (receiveRequest now fd clientId opId payload s.shared).1 } := by
  have hwaiting : ∀ r, jobsOf (s.worker.taken ++ (s.queue ++ [r])) =
      s.waitingJobs ++ jobsOf [r] := by
    intro r
    rw [← List.append_assoc, jobsOf_append, Server.waitingJobs, Server.ahead, hpending,
      Option.toList_none, List.append_nil]
  -- only an operation that the worker performs has a job
  by_cases hop : isProcessingOp opId = true
  · refine .create now clientId opId (if_pos hop) ?_ rfl ((hwaiting _).trans ?_)
    · simp only [receiveRequest, hop, if_true]
    · rw [jobsOf_of_job, receiveRequest_request]
      · simp only [hop, if_true]
      · simp only [receiveRequest_request, hop, if_true]
        exact hring.next
  · have hsame : (receiveRequest now fd clientId opId payload s.shared).2 = s.shared := by
      simp only [receiveRequest, hop, if_false, Bool.false_eq_true]
    refine .keep (if_neg hop) ?_ ?_ rfl ((hwaiting _).trans ?_) rfl rfl
    · rw [hsame]
    · rw [hsame]
    · rw [jobsOf_of_noJob, List.append_nil]
      simp only [receiveRequest_request, hop, if_false, Bool.false_eq_true]
      omega

/-- The worker begins the job of the request that it has popped. -/
theorem JobSpec.begin {s : Server} (hring : JobRing s.shared) (now : Int) {r : Request}
    (hworker : s.worker = .popped r) :
    JobSpec s (.begin now)
      { s with shared := beginRequest now r s.shared, worker := .begun r } := by
  obtain ⟨touched, htouched, hnext, hbegin⟩ := beginRequest_eq now r s.shared
  have hrecords : JobRing touched :=
    ⟨hnext ▸ hring.next, by rw [htouched, hnext]; exact hring.ring⟩
  have hafter : (updateJobOf r now .running (lit "running") touched).nextJobId =
      s.shared.nextJobId := by
    obtain ⟨jobs, hframe⟩ := updateJobOf_frame r now .running (lit "running") touched
    rw [hframe]
    exact hnext
  have hbefore : s.waitingJobs = jobsOf [r] ++ jobsOf s.ahead := by
    rw [Server.waitingJobs, hworker, jobsOf_append]
    rfl
  have hnone : s.runningJobs = [] := by
    rw [Server.runningJobs, hworker]
    rfl
  rw [hbegin]
  by_cases hjob : 0 < r.jobId
  · rw [jobsOf_of_job hjob] at hbefore
    have hupdated := hrecords.updateJobOf_records hjob now .running (lit "running")
    rw [htouched] at hupdated
    exact .start now r rfl hworker hjob hafter hupdated hnone (jobsOf_of_job hjob) hbefore
  · rw [jobsOf_of_noJob hjob, List.nil_append] at hbefore
    refine .keep rfl hafter ?_ ?_ hbefore.symm ?_ rfl
    · rw [updateJobOf_of_noJob hjob]
      exact htouched
    · exact (jobsOf_of_noJob hjob).trans hnone.symm
    · rw [Event.jobsStarted, hworker]
      exact jobsOf_of_noJob hjob

/-- The worker ends the job of the request that it has performed. -/
theorem JobSpec.finish {s : Server} (hring : JobRing s.shared) (now elapsed : Int) {r : Request}
    {handled : Handled} (hworker : s.worker = .handled r handled) :
    JobSpec s (.finish now elapsed)
      { s with
        shared := (finishRequest now elapsed r handled s.shared).1
        worker := .idle
        replies := s.replies ++ (finishRequest now elapsed r handled s.shared).2 } := by
  have hcount : JobRing (countRequest elapsed handled s.shared) := ⟨hring.next, hring.ring⟩
  have hnext := (keepsRecords_finishRequest now elapsed r handled s.shared).next
  have hwaiting : jobsOf s.ahead = s.waitingJobs := by
    rw [Server.waitingJobs, hworker]
    rfl
  have hbefore : s.runningJobs = jobsOf [r] := by
    rw [Server.runningJobs, hworker]
    rfl
  have hjobs := finishRequest_jobs now elapsed r handled s.shared
  by_cases hjob : 0 < r.jobId
  · rw [jobsOf_of_job hjob] at hbefore
    have hupdated := hcount.updateJobOf_records hjob now handled.status handled.response
    rw [← hjobs] at hupdated
    exact .stop now elapsed r handled rfl hworker hjob hnext hupdated hbefore rfl hwaiting
  · rw [jobsOf_of_noJob hjob] at hbefore
    rw [updateJobOf_of_noJob hjob] at hjobs
    exact .keep rfl hnext hjobs hbefore.symm hwaiting rfl hbefore

/-- Inversion of a step for the jobs. -/
theorem Event.step_jobs {s s' : Server} {e : Event} (hring : JobRing s.shared)
    (h : e.step s = some s') : JobSpec s e s' := by
  cases Event.step_spec h with
  | connect now fd addr =>
      obtain ⟨_, _, _, hframe⟩ := connectClient_frame now fd addr s.shared
      rw [hframe]
      exact .keep rfl rfl rfl rfl rfl rfl rfl
  | close fd =>
      obtain ⟨_, _, hframe⟩ := clientRemoveFd_frame fd s.shared
      rw [hframe]
      exact .keep rfl rfl rfl rfl rfl rfl rfl
  | receive now fd clientId opId payload hpending =>
      exact .receive hring now fd clientId opId payload hpending
  | push built hpending =>
      refine .keep rfl rfl rfl rfl ?_ rfl rfl
      simp only [Server.waitingJobs, Server.ahead, hpending, Option.toList_some,
        Option.toList_none, List.append_nil]
  | cancel clientId =>
      obtain ⟨_, _, _, hframe⟩ := adminCancel_frame clientId s.shared
      rw [hframe]
      exact .keep rfl rfl rfl rfl rfl rfl rfl
  | pop first rest hworker hqueue =>
      refine .keep rfl rfl rfl ?_ ?_ rfl rfl
      · rw [Server.runningJobs, Server.runningJobs, hworker]
        rfl
      · rw [Server.waitingJobs, Server.waitingJobs, Server.ahead, Server.ahead, hworker, hqueue]
        rfl
  | begin now r hworker => exact .begin hring now hworker
  | handle env r state handled hworker hhandle =>
      obtain ⟨_, _, _, _, _, _, rfl⟩ := handleRequest_effect hhandle
      refine .keep rfl rfl rfl ?_ ?_ rfl rfl
      · rw [Server.runningJobs, Server.runningJobs, hworker]
        rfl
      · rw [Server.waitingJobs, Server.waitingJobs, hworker]
        rfl
  | finish now elapsed r handled hworker => exact .finish hring now elapsed hworker
  | _ => exact .keep rfl rfl rfl rfl rfl rfl rfl

/-! ## Where the jobs are -/

/-- A job has ended. -/
def JobStatus.Final (status : JobStatus) : Prop := status = .done ∨ status = .error

/-- The status of the record of a job, by where the job is. -/
def Server.Expects (s : Server) (n : Nat) (status : JobStatus) : Prop :=
  if n ∈ s.runningJobs then status = .running
  else if n ∈ s.waitingJobs then status = .queued
  else status.Final

/-- The open jobs are the last ones created, and every record has the status of its
job. -/
structure Server.Scheduled (s : Server) : Prop where
  ring : JobRing s.shared
  opened : Window s.openJobs s.shared.nextJobId
  records : ∀ slot, 0 < (s.shared.jobs.get slot).jobId →
    s.Expects (s.shared.jobs.get slot).jobId (s.shared.jobs.get slot).status

theorem Handled.status_final (h : Handled) : h.status.Final := by
  unfold Handled.status
  split
  · exact Or.inl rfl
  · exact Or.inr rfl

theorem Event.step_window {s s' : Server} {e : Event} (hs : s.Scheduled)
    (h : e.step s = some s') : Window s'.openJobs s'.shared.nextJobId := by
  have hopened := hs.opened
  rw [Server.openJobs_eq] at hopened ⊢
  cases Event.step_jobs hs.ring h with
  | keep hcreates hnext hjobs hrunning hwaiting hstarted hended => rwa [hrunning, hwaiting, hnext]
  | create now clientId opId hcreates hshared hrunning hwaiting =>
      rw [hrunning, hwaiting, hshared, ← List.append_assoc]
      exact hopened.push
  | start now r he hworker hjob hnext hjobs hnone hrunning hwaiting =>
      rw [hnone, hwaiting] at hopened
      rw [hrunning, hnext]
      exact hopened
  | stop now elapsed r handled he hworker hjob hnext hjobs hrunning hnone hwaiting =>
      rw [hrunning] at hopened
      rw [hnone, hwaiting, hnext]
      exact hopened.tail

theorem Event.step_records_fit {s s' : Server} {e : Event} (hs : s.Scheduled)
    (h : e.step s = some s') (slot : Fin maxJobs) (hused : 0 < (s'.shared.jobs.get slot).jobId) :
    s'.Expects (s'.shared.jobs.get slot).jobId (s'.shared.jobs.get slot).status := by
  have hopened := hs.opened
  have hold := hs.records slot
  rw [Server.openJobs_eq] at hopened
  unfold Server.Expects at hold ⊢
  cases Event.step_jobs hs.ring h with
  | keep hcreates hnext hjobs hrunning hwaiting hstarted hended =>
      rw [hjobs] at hused ⊢
      rw [hrunning, hwaiting]
      exact hold hused
  | create now clientId opId hcreates hshared hrunning hwaiting =>
      rw [hshared] at hused ⊢
      rw [hrunning, hwaiting]
      simp only [jobCreate, FixedArray.get_set] at hused ⊢
      by_cases hslot : slot = ringPlace maxJobs s.shared.nextJobId
      · -- the new job is none of those that are open, and it waits
        have hnew : s.shared.nextJobId ∉ s.runningJobs := by
          intro hmem
          have hbound := hopened.mem_iff.mp (List.mem_append_left _ hmem)
          omega
        have hself : slot = ⟨s.shared.nextJobId % maxJobs, Nat.mod_lt _ (by decide)⟩ := hslot
        rw [if_pos hself, if_neg hnew,
          if_pos (List.mem_append_right _ (List.mem_singleton_self _))]
      -- no other slot has the new number, which would be at the place of its residue
      · have hother : slot ≠ ⟨s.shared.nextJobId % maxJobs, Nat.mod_lt _ (by decide)⟩ := hslot
        rw [if_neg hother] at hused ⊢
        have hne : (s.shared.jobs.get slot).jobId ∉ [s.shared.nextJobId] := by
          intro hmem
          have hnumber := List.mem_singleton.mp hmem
          exact hslot (hs.ring.ring.place_eq hs.ring.next hnumber)
        simp only [List.mem_append, hne, or_false]
        exact hold hused
  | start now r he hworker hjob hnext hjobs hnone hrunning hwaiting =>
      rw [hjobs slot] at hused ⊢
      rw [hnone, hwaiting] at hold
      rw [hrunning]
      by_cases hheld : (s.shared.jobs.get slot).jobId = r.jobId
      · rw [if_pos hheld]
        exact (if_pos (List.mem_singleton.mpr hheld)).mpr rfl
      · rw [if_neg hheld] at hused ⊢
        rw [if_neg fun hmem => hheld (List.mem_singleton.mp hmem)]
        have hsame := hold hused
        simpa only [List.not_mem_nil, if_false, List.mem_cons, hheld, false_or] using hsame
  | stop now elapsed r handled he hworker hjob hnext hjobs hrunning hnone hwaiting =>
      rw [hjobs slot] at hused ⊢
      rw [hrunning] at hold hopened
      rw [hnone, hwaiting, if_neg List.not_mem_nil]
      by_cases hheld : (s.shared.jobs.get slot).jobId = r.jobId
      -- the job that ends was the first of the open ones, and is none of the others
      · have hended : r.jobId ∉ s.waitingJobs := hopened.head_not_mem
        rw [if_pos hheld]
        simp only [JobInfo.update, hheld, if_neg hended]
        exact handled.status_final
      · rw [if_neg hheld] at hused ⊢
        have hsame := hold hused
        rwa [if_neg fun hmem => hheld (List.mem_singleton.mp hmem)] at hsame

/-- A step keeps the jobs in order. -/
theorem Event.step_scheduled {s s' : Server} {e : Event} (hs : s.Scheduled)
    (h : e.step s = some s') : s'.Scheduled :=
  ⟨Event.step_jobRing hs.ring h, Event.step_window hs h, Event.step_records_fit hs h⟩

theorem Server.init_scheduled (now : Int) : (Server.init now).Scheduled where
  ring := serve_jobRing (show serve (Server.init now) [] = some _ from rfl)
  opened := Window.nil Nat.one_pos
  records slot hused := by
    have hzero : (Server.init now).shared.jobs.get slot = JobInfo.zero :=
      FixedArray.get_replicate JobInfo.zero slot
    rw [hzero] at hused
    cases hused

/-- In every reachable server the jobs are in order. -/
theorem serve_scheduled {now : Int} {events : List Event} {s : Server}
    (hreach : serve (Server.init now) events = some s) : s.Scheduled :=
  runFrom_invariant (fun _ _ _ hs h => Event.step_scheduled hs h) (Server.init_scheduled now) hreach

end SqlCodeGenerator
