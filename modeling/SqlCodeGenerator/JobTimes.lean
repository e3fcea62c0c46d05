import SqlCodeGenerator.JobLifecycle
import SqlCodeGenerator.Shutdown

/-!
# The times of the jobs

`job_create` and `job_update` write into a record when its job was queued, started and
finished, and `OP_JOB_STATUS` tells it.  The clock is `time`; here it does not go back.

* `JobInfo.Timed`: the times that are set are those of the status, in order;
* `JobInfo.Precedes`: a job that has started has waited for the end of the other one;
* `job_times_ordered`: both hold of the records in every run.
-/

namespace SqlCodeGenerator

open Library

/-! ## The clock -/

/-- What a step reads from the clock. -/
def Event.time : Event → Option Int
  | .interface (.connect now _ _) => some now
  | .interface (.receive now _ _ _ _) => some now
  | .begin now => some now
  | .finish now _ => some now
  | _ => none

/-- The last time that was read. -/
def clockAfter (now : Int) (events : List Event) : Int :=
  events.foldl (fun clock e => e.time.getD clock) now

/-- The clock does not go back. -/
abbrev Clocked (now : Int) (events : List Event) : Prop :=
  (now :: events.filterMap Event.time).Pairwise (· ≤ ·)

/-- Whatever a step reads is not before the clock, and the rest of the run is clocked from
there on. -/
theorem Clocked.cons {now : Int} {e : Event} {events : List Event} (h : Clocked now (e :: events)) :
    now ≤ e.time.getD now ∧ Clocked (e.time.getD now) events := by
  unfold Clocked at h
  cases htime : e.time with
  | none =>
      rw [List.filterMap_cons_none htime] at h
      exact ⟨le_refl now, h⟩
  | some time =>
      rw [List.filterMap_cons_some htime] at h
      obtain ⟨hfirst, hrest⟩ := List.pairwise_cons.mp h
      exact ⟨hfirst time List.mem_cons_self, hrest⟩

/-! ## The times of a record -/

theorem JobStatus.not_final_queued : ¬ JobStatus.queued.Final := by
  rintro (hdone | herror)
  · cases hdone
  · cases herror

theorem JobStatus.not_final_running : ¬ JobStatus.running.Final := by
  rintro (hdone | herror)
  · cases hdone
  · cases herror

theorem JobStatus.Final.ne_running {status : JobStatus} (h : status.Final) : status ≠ .running :=
  fun hrunning => not_final_running (hrunning ▸ h)

/-- The times of a record fit its status: those that it has come to are in order, and the
others are 0. -/
inductive JobInfo.Timed (job : JobInfo) (clock : Int) : Prop where
  | queued (hstatus : job.status = .queued) (hqueued : job.queuedAt ≤ clock)
      (hstarted : job.startedAt = 0) (hfinished : job.finishedAt = 0)
  | running (hstatus : job.status = .running) (hqueued : job.queuedAt ≤ job.startedAt)
      (hstarted : job.startedAt ≤ clock) (hfinished : job.finishedAt = 0)
  | final (hstatus : job.status.Final) (hqueued : job.queuedAt ≤ job.startedAt)
      (hstarted : job.startedAt ≤ job.finishedAt) (hfinished : job.finishedAt ≤ clock)

/-- One job was queued before another one, which started behind its end, if it has. -/
structure JobInfo.Precedes (job job' : JobInfo) : Prop where
  queued : job.queuedAt ≤ job'.queuedAt
  ended : job'.status ≠ .queued → job.status.Final ∧ job.finishedAt ≤ job'.startedAt

/-- The records of a server in the order of their jobs. -/
structure Server.Timed (s : Server) (clock : Int) : Prop where
  scheduled : s.Scheduled
  times : ∀ n job, retrieve s.shared n = some job → job.Timed clock
  order : ∀ n n' job job', n < n' → retrieve s.shared n = some job →
    retrieve s.shared n' = some job' → job.Precedes job'

section Records

variable {job : JobInfo} {clock clock' : Int}

theorem JobInfo.Timed.mono (h : job.Timed clock) (hle : clock ≤ clock') : job.Timed clock' := by
  cases h with
  | queued hstatus hqueued hstarted hfinished =>
      exact .queued hstatus (hqueued.trans hle) hstarted hfinished
  | running hstatus hqueued hstarted hfinished =>
      exact .running hstatus hqueued (hstarted.trans hle) hfinished
  | final hstatus hqueued hstarted hfinished =>
      exact .final hstatus hqueued hstarted (hfinished.trans hle)

/-- No job was queued in the future. -/
theorem JobInfo.Timed.queued_le (h : job.Timed clock) : job.queuedAt ≤ clock := by
  cases h with
  | queued hstatus hqueued hstarted hfinished => exact hqueued
  | running hstatus hqueued hstarted hfinished => omega
  | final hstatus hqueued hstarted hfinished => omega

theorem JobInfo.Timed.finished_le (h : job.Timed clock) (hfinal : job.status.Final) :
    job.finishedAt ≤ clock := by
  cases h with
  | queued hstatus hqueued hstarted hzero =>
      rw [hstatus] at hfinal
      exact absurd hfinal JobStatus.not_final_queued
  | running hstatus hqueued hstarted hzero =>
      rw [hstatus] at hfinal
      exact absurd hfinal JobStatus.not_final_running
  | final hstatus hqueued hstarted hfinished => exact hfinished

theorem JobInfo.Timed.start (h : job.Timed clock) (hstatus : job.status = .queued) {now : Int}
    (hle : clock ≤ now) (result : CString) : (job.update now .running result).Timed now := by
  cases h with
  | queued _ hqueued hstarted hfinished =>
      exact .running rfl (hqueued.trans hle) (le_refl now) hfinished
  | running hrunning => exact absurd (hstatus.symm.trans hrunning) (by decide)
  | final hfinal =>
      rw [hstatus] at hfinal
      exact absurd hfinal JobStatus.not_final_queued

theorem JobInfo.Timed.stop (h : job.Timed clock) (hstatus : job.status = .running) {now : Int}
    (hle : clock ≤ now) {status : JobStatus} (hfinal : status.Final) (result : CString) :
    (job.update now status result).Timed now := by
  have hstarted : (job.update now status result).startedAt = job.startedAt :=
    if_neg hfinal.ne_running
  have hfinished : (job.update now status result).finishedAt = now := if_pos hfinal
  cases h with
  | queued hqueued => exact absurd (hstatus.symm.trans hqueued) (by decide)
  | running _ hqueued hrunning hzero =>
      refine .final hfinal ?_ ?_ ?_
      · rw [hstarted]
        exact hqueued
      · rw [hstarted, hfinished]
        exact hrunning.trans hle
      · rw [hfinished]
  | final hother =>
      rw [hstatus] at hother
      exact absurd hother JobStatus.not_final_running

end Records

/-! ## Steps -/

/-- A job is created at the time that the step reads. -/
theorem Event.step_creates {s s' : Server} {e : Event} {clientId : UInt32}
    (hcreates : e.createsJobFor = some clientId) (h : e.step s = some s') :
    ∃ now opId, e.time = some now ∧ s'.shared = (jobCreate now clientId opId s.shared).2 := by
  cases Event.step_spec h with
  | receive now fd clientId' opId payload =>
      simp only [createsJobFor] at hcreates
      split at hcreates
      · next hop =>
          obtain rfl := Option.some.inj hcreates
          refine ⟨now, opId, rfl, ?_⟩
          simp only [receiveRequest, hop, if_true]
      · cases hcreates
  | _ => cases hcreates

section Steps

variable {s s' : Server} {clock : Int}

/-- A step that leaves the records. -/
theorem Server.Timed.keep (hs : s.Timed clock) (hscheduled : s'.Scheduled)
    (hjobs : s'.shared.jobs = s.shared.jobs) {clock' : Int} (hle : clock ≤ clock') :
    s'.Timed clock' := by
  have hsame : ∀ n, retrieve s'.shared n = retrieve s.shared n := fun n => by
    simp only [retrieve, jobFind, hjobs]
  exact
    { scheduled := hscheduled
      times := fun n job hjob => (hs.times n job (hsame n ▸ hjob)).mono hle
      order := fun n n' job job' hlt hjob hjob' =>
        hs.order n n' job job' hlt (hsame n ▸ hjob) (hsame n' ▸ hjob') }

/-- The record of the job that is created, or of another one. -/
theorem Server.Timed.create_cases (hs : s.Timed clock) (hscheduled : s'.Scheduled) {now : Int}
    {clientId opId : UInt32} (hshared : s'.shared = (jobCreate now clientId opId s.shared).2)
    {n : Nat} {job : JobInfo} (hjob : retrieve s'.shared n = some job) :
    n = s.shared.nextJobId ∧ job.status = .queued ∧ job.queuedAt = now ∧ job.startedAt = 0 ∧
        job.finishedAt = 0 ∨
      n < s.shared.nextJobId ∧ retrieve s.shared n = some job := by
  obtain ⟨hpos, hget, hnumber⟩ := hscheduled.ring.retrieve_eq_some_iff.mp hjob
  rw [hshared] at hget
  simp only [jobCreate, FixedArray.get_set] at hget
  split at hget
  · subst hget
    exact Or.inl ⟨hnumber.symm, rfl, rfl, rfl, rfl⟩
  · have hold : retrieve s.shared n = some job :=
      hs.scheduled.ring.retrieve_eq_some_iff.mpr ⟨hpos, hget, hnumber⟩
    exact Or.inr ⟨(hs.scheduled.expects hold).1, hold⟩

theorem Server.Timed.create (hs : s.Timed clock) (hscheduled : s'.Scheduled) {now : Int}
    (hle : clock ≤ now) {clientId opId : UInt32}
    (hshared : s'.shared = (jobCreate now clientId opId s.shared).2) : s'.Timed now where
  scheduled := hscheduled
  times n job hjob := by
    rcases hs.create_cases hscheduled hshared hjob with
      ⟨-, hstatus, hqueued, hstarted, hfinished⟩ | ⟨-, hold⟩
    · exact .queued hstatus hqueued.le hstarted hfinished
    · exact (hs.times n job hold).mono hle
  order n n' job job' hlt hjob hjob' := by
    rcases hs.create_cases hscheduled hshared hjob with ⟨hnew, -⟩ | ⟨hbelow, hold⟩
    · -- nothing is younger than the new job
      rcases hs.create_cases hscheduled hshared hjob' with ⟨hnew', -⟩ | ⟨hbelow', -⟩
      · omega
      · omega
    · rcases hs.create_cases hscheduled hshared hjob' with ⟨-, hstatus, hqueued, -⟩ | ⟨-, hold'⟩
      · refine ⟨?_, fun hne => absurd hstatus hne⟩
        rw [hqueued]
        exact (hs.times n job hold).queued_le.trans hle
      · exact hs.order n n' job job' hlt hold hold'

/-- The first job that waits begins: all older ones have ended. -/
theorem Server.Timed.start (hs : s.Timed clock) (hscheduled : s'.Scheduled) {now : Int}
    (hle : clock ≤ now) {m : Nat} {waiting : List Nat} {result : CString}
    (hjobs : RecordsUpdated s.shared.jobs s'.shared.jobs m now .running result)
    (hnone : s.runningJobs = []) (hwaiting : s.waitingJobs = m :: waiting) : s'.Timed now := by
  have hopened := hs.scheduled.opened
  rw [Server.openJobs_eq, hnone, hwaiting, List.nil_append] at hopened
  have hhead := hopened.head
  have hexpects : ∀ {n job}, retrieve s.shared n = some job →
      if n ∈ m :: waiting then job.status = .queued else job.status.Final := by
    intro n job hjob
    have hexpects := (hs.scheduled.expects hjob).2
    rwa [Server.Expects, hnone, if_neg List.not_mem_nil, hwaiting] at hexpects
  have hqueued : ∀ {job}, retrieve s.shared m = some job → job.status = .queued := by
    intro job hjob
    have hexpected := hexpects hjob
    rwa [if_pos List.mem_cons_self] at hexpected
  have hended : ∀ {n job}, n < m → retrieve s.shared n = some job → job.status.Final := by
    intro n job hlt hjob
    have hnot : n ∉ m :: waiting := by
      rw [hopened.mem_iff, List.length_cons]
      omega
    have hexpected := hexpects hjob
    rwa [if_neg hnot] at hexpected
  refine ⟨hscheduled, fun n job hjob => ?_, fun n n' job job' hlt hjob hjob' => ?_⟩
  · obtain ⟨old, hold, ⟨-, rfl⟩ | ⟨rfl, rfl⟩⟩ :=
      hjobs.retrieve hs.scheduled.ring hscheduled.ring hjob
    · exact (hs.times n job hold).mono hle
    · exact (hs.times n old hold).start (hqueued hold) hle result
  · obtain ⟨old, hold, hcase⟩ := hjobs.retrieve hs.scheduled.ring hscheduled.ring hjob
    obtain ⟨old', hold', hcase'⟩ := hjobs.retrieve hs.scheduled.ring hscheduled.ring hjob'
    have hprecedes := hs.order n n' old old' hlt hold hold'
    rcases hcase with ⟨-, rfl⟩ | ⟨rfl, rfl⟩
    · rcases hcase' with ⟨-, rfl⟩ | ⟨rfl, rfl⟩
      · exact hprecedes
      · have hfinal := hended hlt hold
        exact ⟨hprecedes.queued, fun _ =>
          ⟨hfinal, ((hs.times n job hold).finished_le hfinal).trans hle⟩⟩
    · rcases hcase' with ⟨-, rfl⟩ | ⟨rfl, rfl⟩
      · -- behind a job that waits nothing has started
        refine ⟨hprecedes.queued, fun hstarted => ?_⟩
        have hfinal := (hprecedes.ended hstarted).1
        rw [hqueued hold] at hfinal
        exact absurd hfinal JobStatus.not_final_queued
      · omega

/-- The job that runs ends. -/
theorem Server.Timed.stop (hs : s.Timed clock) (hscheduled : s'.Scheduled) {now : Int}
    (hle : clock ≤ now) {m : Nat} {status : JobStatus} (hfinal : status.Final) {result : CString}
    (hjobs : RecordsUpdated s.shared.jobs s'.shared.jobs m now status result)
    (hrunning : s.runningJobs = [m]) : s'.Timed now := by
  have hstatus : ∀ {job}, retrieve s.shared m = some job → job.status = .running := by
    intro job hjob
    have hexpects := (hs.scheduled.expects hjob).2
    rwa [Server.Expects, hrunning, if_pos (List.mem_singleton_self m)] at hexpects
  refine ⟨hscheduled, fun n job hjob => ?_, fun n n' job job' hlt hjob hjob' => ?_⟩
  · obtain ⟨old, hold, ⟨-, rfl⟩ | ⟨rfl, rfl⟩⟩ :=
      hjobs.retrieve hs.scheduled.ring hscheduled.ring hjob
    · exact (hs.times n job hold).mono hle
    · exact (hs.times n old hold).stop (hstatus hold) hle hfinal result
  · obtain ⟨old, hold, hcase⟩ := hjobs.retrieve hs.scheduled.ring hscheduled.ring hjob
    obtain ⟨old', hold', hcase'⟩ := hjobs.retrieve hs.scheduled.ring hscheduled.ring hjob'
    have hprecedes := hs.order n n' old old' hlt hold hold'
    rcases hcase with ⟨-, rfl⟩ | ⟨rfl, rfl⟩
    · rcases hcase' with ⟨-, rfl⟩ | ⟨rfl, rfl⟩
      · exact hprecedes
      · refine ⟨hprecedes.queued, fun _ => ?_⟩
        have hstarted : (old'.update now status result).startedAt = old'.startedAt :=
          if_neg hfinal.ne_running
        rw [hstarted]
        exact hprecedes.ended (by rw [hstatus hold']; decide)
    · rcases hcase' with ⟨-, rfl⟩ | ⟨rfl, rfl⟩
      · -- behind a job that runs nothing has started
        refine ⟨hprecedes.queued, fun hother => ?_⟩
        have hended := (hprecedes.ended hother).1
        rw [hstatus hold] at hended
        exact absurd hended JobStatus.not_final_running
      · omega

theorem Event.step_timed {e : Event} (hs : s.Timed clock) (hle : clock ≤ e.time.getD clock)
    (h : e.step s = some s') : s'.Timed (e.time.getD clock) := by
  have hscheduled := Event.step_scheduled hs.scheduled h
  cases Event.step_jobs hs.scheduled.ring h with
  | keep hcreates hnext hjobs => exact hs.keep hscheduled hjobs hle
  | create _ clientId _ hcreates =>
      obtain ⟨now, opId, htime, hshared⟩ := Event.step_creates hcreates h
      rw [htime] at hle ⊢
      exact hs.create hscheduled hle hshared
  | start now r he hworker hjob hnext hjobs hnone hrunning hwaiting =>
      subst he
      exact hs.start hscheduled hle hjobs hnone hwaiting
  | stop now elapsed r handled he hworker hjob hnext hjobs hrunning =>
      subst he
      exact hs.stop hscheduled hle handled.status_final hjobs hrunning

end Steps

/-! ## Runs -/

theorem Server.init_timed (now : Int) : (Server.init now).Timed now := by
  have hnone : ∀ n job, retrieve (Server.init now).shared n ≠ some job := by
    intro n job hjob
    have hbound := ((Server.init_scheduled now).expects hjob).1
    obtain ⟨hpos, -⟩ := (Server.init_scheduled now).ring.retrieve_eq_some_iff.mp hjob
    have hnext : (Server.init now).shared.nextJobId = 1 := rfl
    omega
  exact ⟨Server.init_scheduled now, fun n job hjob => absurd hjob (hnone n job),
    fun n _ job _ _ hjob _ => absurd hjob (hnone n job)⟩

theorem serve_timed {s s' : Server} {clock : Int} {events : List Event} (hs : s.Timed clock)
    (hclock : Clocked clock events) (hrun : serve s events = some s') :
    s'.Timed (clockAfter clock events) := by
  unfold serve at hrun
  induction events generalizing s clock with
  | nil =>
      obtain rfl := Option.some.inj hrun
      exact hs
  | cons e events ih =>
      obtain ⟨middle, hfirst, hrest⟩ := runFrom_cons_eq_some_iff.mp hrun
      obtain ⟨hle, hclock'⟩ := hclock.cons
      exact ih (Event.step_timed hs hle hfirst) hclock' hrest

/-- In every run in which the clock does not go back, the times of every record that can be
retrieved are in order, up to where its job has come to.  Jobs were queued in the order of
their numbers, and a job that has started has done so behind the end of all older ones.
`job_create` and `job_update` write a record in one step. -/
theorem job_times_ordered {now : Int} {events : List Event} {s : Server}
    (hclock : Clocked now events) (h : serve (Server.init now) events = some s) :
    (∀ n job, retrieve s.shared n = some job → job.Timed (clockAfter now events)) ∧
      ∀ n n' job job', n < n' → retrieve s.shared n = some job →
        retrieve s.shared n' = some job' →
          job.queuedAt ≤ job'.queuedAt ∧
            (job'.status ≠ .queued → job.status.Final ∧ job.finishedAt ≤ job'.startedAt) := by
  have htimed := serve_timed (Server.init_timed now) hclock h
  refine ⟨htimed.times, fun n n' job job' hlt hjob hjob' => ?_⟩
  have hprecedes := htimed.order n n' job job' hlt hjob hjob'
  exact ⟨hprecedes.queued, hprecedes.ended⟩

/-- Two jobs, the second of which has begun. -/
def twoJobs : List Event :=
  [.interface (.connect 1 5 (lit "10.0.0.1")),
    .interface (.receive 2 5 1 opGenerateSql []), .interface .push, .pop,
    .interface (.receive 3 5 1 opGenerateSql []), .begin 3, .interface .push,
    .handle failingEnv, .finish 6 3000, .pop, .begin 8]

theorem job_times_ordered_two :
    ∃ s job job', serve (Server.init 0) twoJobs = some s ∧ retrieve s.shared 1 = some job ∧
      retrieve s.shared 2 = some job' ∧ job'.status = .running ∧
      job.finishedAt ≤ job'.startedAt := by
  have hrun : ((serve (Server.init 0) twoJobs).map fun s =>
      ((retrieve s.shared 1).isSome, (retrieve s.shared 2).map JobInfo.status)) =
        some (true, some .running) := by
    decide +kernel
  obtain ⟨s, hs, hview⟩ := Option.map_eq_some_iff.mp hrun
  obtain ⟨hone, htwo⟩ := Prod.mk.inj hview
  obtain ⟨job, hjob⟩ := Option.isSome_iff_exists.mp hone
  obtain ⟨job', hjob', hstatus⟩ := Option.map_eq_some_iff.mp htwo
  have hordered := (job_times_ordered (by decide) hs).2 1 2 job job' (by decide) hjob hjob'
  exact ⟨s, job, job', hs, hjob, hjob', hstatus, (hordered.2 (by rw [hstatus]; decide)).2⟩

end SqlCodeGenerator
