import SqlCodeGenerator.JobQueries

/-!
# Which jobs have a record

`job_create` stores the record of a job at the place of its number modulo `MAX_JOBS`, and
`job_find` looks for the number from the first place on.  Each knows nothing of the other:
that they agree is what the numbers in the ring keep true.

* `JobRun.Retained`: each place holds the newest job that belongs there, as it was created;
* `jobs_retained`: after any `job_create` and `job_update` the jobs that are found are the
  last `MAX_JOBS`;
* `serve_retained`: and so they are in the server.
-/

namespace SqlCodeGenerator

open Library

/-- A call that writes to the records.  Every call of `job_update` has a result. -/
inductive JobOp where
  | create (now : Int) (clientId opId : UInt32)
  | update (now : Int) (jobId : Int) (status : JobStatus) (result : CString)

/-- The shared state, and each number that `job_create` has returned, with the client and
the operation it was called for. -/
structure JobRun where
  shared : SharedState
  created : List (Nat × UInt32 × UInt32)

/-- A call.  No record has a negative number, so an update of one changes nothing. -/
def JobOp.perform (run : JobRun) : JobOp → JobRun
  | create now clientId opId =>
      let (jobId, shared) := jobCreate now clientId opId run.shared
      ⟨shared, run.created ++ [(jobId, clientId, opId)]⟩
  | update now jobId status result =>
      if 0 ≤ jobId then
        { run with shared := jobUpdate now jobId.toNat status result run.shared }
      else
        run

/-- A sequence of calls from `state_init` on. -/
def jobsAfter (now : Int) (ops : List JobOp) : JobRun :=
  ops.foldl JobOp.perform ⟨stateInit now, []⟩

/-! ## What the calls keep -/

/-- A record says which client and which operation its number was given out for. -/
def JobInfo.CreatedIn (created : List (Nat × UInt32 × UInt32)) (job : JobInfo) : Prop :=
  ∃ clientId opId, (job.jobId, clientId, opId) ∈ created ∧
    job.clientId = toInt clientId ∧ job.opId = toInt opId

theorem JobInfo.CreatedIn.append {created : List (Nat × UInt32 × UInt32)} {job : JobInfo}
    (h : job.CreatedIn created) (later : List (Nat × UInt32 × UInt32)) :
    job.CreatedIn (created ++ later) := by
  obtain ⟨clientId, opId, hmem, hown⟩ := h
  exact ⟨clientId, opId, List.mem_append_left later hmem, hown⟩

/-- The numbers are given out from 1 on, the newest records are there, and each says what
its job was created for. -/
structure JobRun.Retained (run : JobRun) : Prop where
  next : run.shared.nextJobId = run.created.length + 1
  numbers : run.created.map Prod.fst = List.range' 1 run.created.length
  ring : JobRing run.shared
  newest : NewestRing JobInfo.jobId run.shared.jobs run.shared.nextJobId
  records : ∀ slot, 0 < (run.shared.jobs.get slot).jobId →
    (run.shared.jobs.get slot).CreatedIn run.created

theorem retained_init (now : Int) : (⟨stateInit now, []⟩ : JobRun).Retained := by
  have hzero : JobInfo.zero.jobId = 0 := rfl
  refine ⟨rfl, rfl, ⟨Nat.one_pos, .replicate hzero 1⟩, .replicate hzero, fun slot hslot => ?_⟩
  -- no record has a number yet
  have hnone : ((stateInit now).jobs.get slot).jobId = 0 := by
    show ((FixedArray.replicate maxJobs JobInfo.zero).get slot).jobId = 0
    rw [FixedArray.get_replicate, hzero]
  exact absurd hnone (Nat.ne_of_gt hslot)

/-- An update leaves what a record was created with. -/
theorem jobUpdate_created (now : Int) (jobId : Nat) (status : JobStatus) (result : CString)
    (state : SharedState) (slot : Fin maxJobs) :
    (((jobUpdate now jobId status result state).jobs.get slot).jobId,
      ((jobUpdate now jobId status result state).jobs.get slot).clientId,
      ((jobUpdate now jobId status result state).jobs.get slot).opId) =
    ((state.jobs.get slot).jobId, (state.jobs.get slot).clientId,
      (state.jobs.get slot).opId) := by
  unfold jobUpdate
  cases jobFind state jobId with
  | none => rfl
  | some found =>
      show ((((state.jobs.set found _).get slot).jobId), _, _) = _
      rw [FixedArray.get_set]
      by_cases hslot : slot = found
      · rw [if_pos hslot, hslot]
        rfl
      · rw [if_neg hslot]

namespace JobRun.Retained

variable {run : JobRun}

/-- The new record takes its place from one that is `MAX_JOBS` older. -/
theorem create (h : run.Retained) (now : Int) (clientId opId : UInt32) :
    ((JobOp.create now clientId opId).perform run).Retained := by
  have hnumber : run.shared.nextJobId = 1 + run.created.length := by
    rw [h.next, Nat.add_comm]
  refine ⟨?_, ?_, h.ring.jobCreate now clientId opId, h.newest.store rfl, fun slot => ?_⟩
  · show run.shared.nextJobId + 1 = (run.created ++ [_]).length + 1
    rw [h.next, List.length_append, List.length_singleton]
  · show (run.created ++ [(run.shared.nextJobId, clientId, opId)]).map Prod.fst =
      List.range' 1 (run.created ++ [_]).length
    rw [List.map_append, h.numbers, List.length_append, List.length_singleton,
      List.range'_concat, Nat.one_mul, ← hnumber]
    rfl
  · show 0 < ((run.shared.jobs.set (ringPlace maxJobs run.shared.nextJobId) _).get slot).jobId →
      ((run.shared.jobs.set (ringPlace maxJobs run.shared.nextJobId) _).get slot).CreatedIn
        (run.created ++ [(run.shared.nextJobId, clientId, opId)])
    rw [FixedArray.get_set]
    by_cases hslot : slot = ringPlace maxJobs run.shared.nextJobId
    · rw [if_pos hslot]
      intro _
      exact ⟨clientId, opId, List.mem_append_right _ List.mem_cons_self, rfl, rfl⟩
    · rw [if_neg hslot]
      intro hpos
      exact (h.records slot hpos).append _

theorem update (h : run.Retained) (now jobId : Int) (status : JobStatus) (result : CString) :
    ((JobOp.update now jobId status result).perform run).Retained := by
  by_cases hjob : 0 ≤ jobId
  · have hrun : (JobOp.update now jobId status result).perform run =
        { run with shared := jobUpdate now jobId.toNat status result run.shared } := if_pos hjob
    rw [hrun]
    have hcreated := jobUpdate_created now jobId.toNat status result run.shared
    have hnumbers := fun slot => congrArg Prod.fst (hcreated slot)
    obtain ⟨jobs, hframe⟩ := jobUpdate_frame now jobId.toNat status result run.shared
    rw [hframe] at hcreated hnumbers ⊢
    refine ⟨h.next, h.numbers, ⟨h.ring.next, h.ring.ring.congr hnumbers⟩,
      h.newest.congr hnumbers, fun slot hpos => ?_⟩
    obtain ⟨hnumber, hown⟩ := Prod.mk.inj (hcreated slot)
    obtain ⟨hclient, hop⟩ := Prod.mk.inj hown
    have hbefore := h.records slot (Nat.lt_of_lt_of_eq hpos hnumber)
    show (jobs.get slot).CreatedIn run.created
    rw [JobInfo.CreatedIn, hnumber, hclient, hop]
    exact hbefore
  · have hrun : (JobOp.update now jobId status result).perform run = run := if_neg hjob
    rw [hrun]
    exact h

theorem perform (h : run.Retained) (op : JobOp) : (op.perform run).Retained := by
  cases op with
  | create now clientId opId => exact h.create now clientId opId
  | update now jobId status result => exact h.update now jobId status result

theorem foldl (h : run.Retained) (ops : List JobOp) :
    (ops.foldl JobOp.perform run).Retained := by
  induction ops generalizing run with
  | nil => exact h
  | cons op ops ih => exact ih (h.perform op)

end JobRun.Retained

/-! ## The jobs that are found -/

/-- The search finds a number exactly if it is one of the newest. -/
theorem JobRing.isSome_jobFind_iff {state : SharedState} (h : JobRing state)
    (hnewest : NewestRing JobInfo.jobId state.jobs state.nextJobId) {j : Nat} (hj : 0 < j) :
    (jobFind state j).isSome = true ↔
      1 ≤ j ∧ j < state.nextJobId ∧ state.nextJobId - j ≤ maxJobs := by
  have hheld := hnewest j hj
  have hexact : (jobFind state j).isSome = true ↔
      (state.jobs.get (ringPlace maxJobs j)).jobId = j := by
    rw [Option.isSome_iff_exists]
    constructor
    · rintro ⟨slot, hslot⟩
      exact ((h.jobFind_eq_some_iff hj).mp hslot).2
    · intro hnumber
      exact ⟨_, (h.jobFind_eq_some_iff hj).mpr ⟨rfl, hnumber⟩⟩
  rw [hexact, hheld]
  omega

/-- After every sequence of calls from `state_init` on, `job_find` of a positive number
finds a record exactly if the number has been given out and is one of the last `MAX_JOBS`.
The record is the one of the call that returned this number, with its client and its
operation, and no other slot has the number. -/
theorem jobs_retained (now : Int) (ops : List JobOp) {j : Nat} (hj : 0 < j) :
    ((jobFind (jobsAfter now ops).shared j).isSome = true ↔
      1 ≤ j ∧ j < (jobsAfter now ops).shared.nextJobId ∧
        (jobsAfter now ops).shared.nextJobId - j ≤ maxJobs) ∧
    (∀ slot, jobFind (jobsAfter now ops).shared j = some slot →
      ((jobsAfter now ops).shared.jobs.get slot).jobId = j ∧
      ∃ clientId opId, (j, clientId, opId) ∈ (jobsAfter now ops).created ∧
        ((jobsAfter now ops).shared.jobs.get slot).clientId = toInt clientId ∧
        ((jobsAfter now ops).shared.jobs.get slot).opId = toInt opId) ∧
    (∀ slot, ((jobsAfter now ops).shared.jobs.get slot).jobId = j →
      jobFind (jobsAfter now ops).shared j = some slot) ∧
    (jobsAfter now ops).created.map Prod.fst = List.range' 1 (jobsAfter now ops).created.length ∧
    (jobsAfter now ops).shared.nextJobId = (jobsAfter now ops).created.length + 1 := by
  have h : (jobsAfter now ops).Retained := (retained_init now).foldl ops
  refine ⟨h.ring.isSome_jobFind_iff h.newest hj, fun slot hslot => ?_, fun slot hslot => ?_,
    h.numbers, h.next⟩
  · obtain ⟨rfl, hnumber⟩ := (h.ring.jobFind_eq_some_iff hj).mp hslot
    have hcreated := h.records (ringPlace maxJobs j) (by omega)
    rw [JobInfo.CreatedIn, hnumber] at hcreated
    exact ⟨hnumber, hcreated⟩
  · have hplace := h.ring.ring.place_eq hj hslot
    subst hplace
    exact (h.ring.jobFind_eq_some_iff hj).mpr ⟨rfl, hslot⟩

/-! ### A full round -/

/-- The first job, and as many others as the ring has room for. -/
def roundOps (others : Nat) : List JobOp :=
  .create 0 7 opGenerateSql :: List.replicate others (.create 0 8 opValidateInsert)

/-- The first job is found until its place is taken, and then it is not. -/
theorem jobs_retained_round :
    (jobFind (jobsAfter 0 (roundOps 127)).shared 1).isSome = true ∧
      (jobFind (jobsAfter 0 (roundOps 128)).shared 1).isSome = false := by
  have hlast := (jobs_retained 0 (roundOps 127) Nat.one_pos).1
  have hnext := (jobs_retained 0 (roundOps 128) Nat.one_pos).1
  refine ⟨hlast.mpr (by decide +kernel), Bool.eq_false_iff.mpr fun h => ?_⟩
  have hround := hnext.mp h
  revert hround
  decide +kernel

/-! ## The records of the server -/

/-- The records of a server are the newest ones. -/
def Server.RecordsNewest (s : Server) : Prop :=
  NewestRing JobInfo.jobId s.shared.jobs s.shared.nextJobId

theorem Event.step_newest {s s' : Server} {e : Event} (hs : s.RecordsNewest)
    (h : e.step s = some s') : s'.RecordsNewest := by
  unfold Server.RecordsNewest
  rcases Event.step_records h with ⟨-, hkeeps⟩ | ⟨now, clientId, opId, -, hshared⟩
  · rw [hkeeps.next]
    exact hs.congr fun slot => (hkeeps.records slot).1
  · rw [hshared]
    exact hs.store rfl

/-- In every reachable server the jobs that are found are the last `MAX_JOBS`. -/
theorem serve_retained {now : Int} {events : List Event} {s : Server}
    (hreach : serve (Server.init now) events = some s) {j : Nat} (hj : 0 < j) :
    (jobFind s.shared j).isSome = true ↔
      1 ≤ j ∧ j < s.shared.nextJobId ∧ s.shared.nextJobId - j ≤ maxJobs := by
  have hinit : (Server.init now).RecordsNewest := NewestRing.replicate rfl
  have hnewest := runFrom_invariant (fun _ _ _ hs h => Event.step_newest hs h) hinit hreach
  exact (serve_jobRing hreach).isSome_jobFind_iff hnewest hj

end SqlCodeGenerator
