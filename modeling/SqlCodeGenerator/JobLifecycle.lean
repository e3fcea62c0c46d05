import SqlCodeGenerator.JobOrder

/-!
# The life of a job

* `serve_jobsStarted`: jobs run one at a time, in the order of their numbers.
* `serve_status`: a record goes from `QUEUED` over `RUNNING` to `DONE` or `ERROR`.
* `jobs_lifecycle`: both, with what an update of one record leaves alone.

A job whose record another one has replaced cannot be retrieved any more; it runs all
the same.
-/

namespace SqlCodeGenerator

open Library

/-! ## The life of a record -/

/-- The record of a job, as long as it can be retrieved. -/
def retrieve (state : SharedState) (n : Nat) : Option JobInfo :=
  if n = 0 then none else (jobFind state n).map state.jobs.get

theorem JobRing.retrieve_eq_some_iff {state : SharedState} (h : JobRing state) {n : Nat}
    {job : JobInfo} :
    retrieve state n = some job ↔
      0 < n ∧ state.jobs.get (ringPlace maxJobs n) = job ∧ job.jobId = n := by
  unfold retrieve
  split
  · next hzero =>
      rw [hzero]
      exact iff_of_false (by simp) fun hheld => absurd hheld.1 (Nat.lt_irrefl 0)
  · next hn =>
      have hpos : 0 < n := Nat.pos_of_ne_zero hn
      rw [Option.map_eq_some_iff]
      constructor
      · rintro ⟨slot, hfind, rfl⟩
        obtain ⟨rfl, hnumber⟩ := (h.jobFind_eq_some_iff hpos).mp hfind
        exact ⟨hpos, rfl, hnumber⟩
      · rintro ⟨-, rfl, hnumber⟩
        exact ⟨_, (h.jobFind_eq_some_iff hpos).mpr ⟨rfl, hnumber⟩, rfl⟩

/-- At most one record is running, and those of later jobs are queued. -/
structure OneRunning (state : SharedState) : Prop where
  single : ∀ n n' job job', retrieve state n = some job → retrieve state n' = some job' →
    job.status = .running → job'.status = .running → n = n'
  later : ∀ n n' job job', retrieve state n = some job → retrieve state n' = some job' →
    job.status = .running → n < n' → job'.status = .queued

/-- A record that can be retrieved after a step is new and queued, or is as it was, or
the step has begun its job, or ended it. -/
def RecordFollows (s : Server) (e : Event) (n : Nat) (job' : JobInfo) : Prop :=
  (n = s.shared.nextJobId ∧ e.createsJobFor.isSome = true ∧ job'.status = .queued) ∨
    ∃ job, retrieve s.shared n = some job ∧
      (job' = job ∨
        (job.status = .queued ∧ job'.status = .running ∧ n ∈ e.jobsStarted s) ∨
        (job.status = .running ∧ job'.status.Final ∧ n ∈ e.jobsEnded s))

/-- How a status moves on. -/
inductive JobStatus.Next : JobStatus → JobStatus → Prop where
  | start : Next .queued .running
  | done : Next .running .done
  | error : Next .running .error

/-- What a run does to the jobs. -/
structure JobsKept (s : Server) (events : List Event) : Prop where
  /-- Jobs enter `RUNNING` in strictly increasing order. -/
  started : (collected Event.step (fun s e => e.jobsStarted s) s events).Pairwise (· < ·)
  running : Throughout Event.step (fun s => OneRunning s.shared) s events
  records : EveryStep Event.step (fun s e => ∀ s', e.step s = some s' →
    ∀ n job', retrieve s'.shared n = some job' → RecordFollows s e n job') s events
  statuses : ∀ before middle after s₁ s₂, events = before ++ middle ++ after →
    serve s before = some s₁ → serve s₁ middle = some s₂ →
    ∀ n job₁ job₂, retrieve s₁.shared n = some job₁ → retrieve s₂.shared n = some job₂ →
      Relation.ReflTransGen JobStatus.Next job₁.status job₂.status
  /-- An update changes the record of its job only. -/
  updates : Throughout Event.step (fun s => ∀ now n n' status result, n' ≠ n →
    retrieve (jobUpdate now n status result s.shared) n' = retrieve s.shared n') s events

/-- The number of the job that is the next to run. -/
def Server.turn (s : Server) : Nat := s.shared.nextJobId - s.waitingJobs.length

/-- The job that begins is the next in turn. -/
theorem Event.step_jobsStarted {s s' : Server} {e : Event} (hs : s.Scheduled)
    (h : e.step s = some s') :
    e.jobsStarted s = [] ∧ s'.turn = s.turn ∨
      e.jobsStarted s = [s.turn] ∧ s'.turn = s.turn + 1 := by
  have hopened := hs.opened
  unfold Server.turn
  rw [Server.openJobs_eq] at hopened
  cases Event.step_jobs hs.ring h with
  | keep hcreates hnext hjobs hrunning hwaiting hstarted hended =>
      exact Or.inl ⟨hstarted, by rw [hnext, hwaiting]⟩
  | create now clientId opId hcreates hshared hrunning hwaiting =>
      have hnext : s'.shared.nextJobId = s.shared.nextJobId + 1 := by rw [hshared]; rfl
      refine Or.inl ⟨(Event.jobsStarted_of_creates hcreates).1, ?_⟩
      rw [hnext, hwaiting, List.length_append, List.length_singleton]
      omega
  | start now r he hworker hjob hnext hjobs hnone hrunning hwaiting =>
      rw [hnone, List.nil_append, hwaiting] at hopened
      have hhead := hopened.head
      have hstarted : e.jobsStarted s = [r.jobId] := by
        rw [he, Event.jobsStarted, hworker, Worker.taken, jobsOf_of_job hjob]
      rw [hstarted, hwaiting, hnext, List.length_cons]
      refine Or.inr ⟨?_, ?_⟩
      · congr 1
        omega
      · omega
  | stop now elapsed r handled he hworker hjob hnext hjobs hrunning hnone hwaiting =>
      exact Or.inl ⟨by rw [he]; rfl, by rw [hnext, hwaiting]⟩

theorem Server.runningJobs_single {s : Server} {n n' : Nat} (hn : n ∈ s.runningJobs)
    (hn' : n' ∈ s.runningJobs) : s.runningJobs = [n] ∧ n = n' := by
  have hone : ∀ r, jobsOf [r] = s.runningJobs → s.runningJobs = [n] ∧ n = n' := by
    intro r hr
    rw [← hr] at hn hn' ⊢
    obtain ⟨hpos, r₁, hr₁, rfl⟩ := mem_jobsOf_iff.mp hn
    obtain ⟨-, r₂, hr₂, rfl⟩ := mem_jobsOf_iff.mp hn'
    obtain rfl := List.mem_singleton.mp hr₁
    obtain rfl := List.mem_singleton.mp hr₂
    exact ⟨jobsOf_of_job hpos, rfl⟩
  cases hworker : s.worker with
  | begun r => exact hone r (by rw [Server.runningJobs, hworker]; rfl)
  | handled r h => exact hone r (by rw [Server.runningJobs, hworker]; rfl)
  | _ =>
      rw [Server.runningJobs, hworker] at hn
      cases hn

/-- What a record that can be retrieved tells of its job. -/
theorem Server.Scheduled.expects {s : Server} (hs : s.Scheduled) {n : Nat} {job : JobInfo}
    (h : retrieve s.shared n = some job) : n < s.shared.nextJobId ∧ s.Expects n job.status := by
  obtain ⟨hpos, rfl, hnumber⟩ := hs.ring.retrieve_eq_some_iff.mp h
  have hexpects := hs.records (ringPlace maxJobs n) (hnumber.symm ▸ hpos)
  rw [hnumber] at hexpects
  refine ⟨?_, hexpects⟩
  rcases hs.ring.ring (ringPlace maxJobs n) with hzero | ⟨hlt, -⟩
  · omega
  · omega

theorem Server.Expects.mem_runningJobs {s : Server} {n : Nat} (h : s.Expects n .running) :
    n ∈ s.runningJobs := by
  unfold Server.Expects at h
  split at h
  · assumption
  · split at h
    · cases h
    · rcases h with hdone | herror
      · cases hdone
      · cases herror

theorem Server.Scheduled.oneRunning {s : Server} (hs : s.Scheduled) : OneRunning s.shared where
  single n n' job job' hjob hjob' hrunning hrunning' := by
    have hn := (hrunning ▸ (hs.expects hjob).2).mem_runningJobs
    have hn' := (hrunning' ▸ (hs.expects hjob').2).mem_runningJobs
    exact (Server.runningJobs_single hn hn').2
  later n n' job job' hjob hjob' hrunning hlater := by
    have hn := (hrunning ▸ (hs.expects hjob).2).mem_runningJobs
    have honly := (Server.runningJobs_single hn hn).1
    obtain ⟨hlt, hexpects⟩ := hs.expects hjob'
    -- the running job is the first of those that are open
    have hopened := hs.opened
    rw [Server.openJobs_eq, honly] at hopened
    have hhead := hopened.head
    have hnot : n' ∉ s.runningJobs := by
      rw [honly, List.mem_singleton]
      omega
    have hwaits : n' ∈ s.waitingJobs := hopened.tail.mem_iff.mpr (by omega)
    unfold Server.Expects at hexpects
    rwa [if_neg hnot, if_pos hwaits] at hexpects

/-- The record of another job, or that of the job itself. -/
theorem RecordsUpdated.retrieve {state state' : SharedState} {n : Nat} {now : Int}
    {status : JobStatus} {result : CString} (hring : JobRing state) (hring' : JobRing state')
    (hupdated : RecordsUpdated state.jobs state'.jobs n now status result) {n' : Nat}
    {job' : JobInfo} (h : retrieve state' n' = some job') :
    ∃ job, retrieve state n' = some job ∧
      (n' ≠ n ∧ job' = job ∨ n' = n ∧ job' = job.update now status result) := by
  obtain ⟨hpos, rfl, hnumber⟩ := hring'.retrieve_eq_some_iff.mp h
  rw [hupdated.jobId] at hnumber
  refine ⟨_, hring.retrieve_eq_some_iff.mpr ⟨hpos, rfl, hnumber⟩, ?_⟩
  rw [hupdated]
  by_cases hown : (state.jobs.get (ringPlace maxJobs n')).jobId = n
  · rw [if_pos hown]
    exact Or.inr ⟨hnumber.symm.trans hown, rfl⟩
  · rw [if_neg hown]
    exact Or.inl ⟨fun heq => hown (hnumber.trans heq), rfl⟩

theorem Event.step_recordFollows {s s' : Server} {e : Event} (hs : s.Scheduled)
    (h : e.step s = some s') {n : Nat} {job' : JobInfo} (hjob' : retrieve s'.shared n = some job') :
    RecordFollows s e n job' := by
  have hring' := Event.step_jobRing hs.ring h
  cases Event.step_jobs hs.ring h with
  | keep hcreates hnext hjobs hrunning hwaiting hstarted hended =>
      rw [hring'.retrieve_eq_some_iff, hjobs, ← hs.ring.retrieve_eq_some_iff] at hjob'
      exact Or.inr ⟨job', hjob', Or.inl rfl⟩
  | create now clientId opId hcreates hshared hrunning hwaiting =>
      obtain ⟨hpos, hget, hnumber⟩ := hring'.retrieve_eq_some_iff.mp hjob'
      rw [hshared] at hget
      simp only [jobCreate, FixedArray.get_set] at hget
      split at hget
      · rw [← hget] at hnumber ⊢
        exact Or.inl ⟨hnumber.symm, by rw [hcreates]; rfl, rfl⟩
      · exact Or.inr ⟨job', hs.ring.retrieve_eq_some_iff.mpr ⟨hpos, hget, hnumber⟩, Or.inl rfl⟩
  | start now r he hworker hjob hnext hjobs hnone hrunning hwaiting =>
      obtain ⟨job, hold, ⟨-, hsame⟩ | ⟨rfl, hupdated⟩⟩ := hjobs.retrieve hs.ring hring' hjob'
      · exact Or.inr ⟨job, hold, Or.inl hsame⟩
      · have hexpects := (hs.expects hold).2
        unfold Server.Expects at hexpects
        rw [hnone, if_neg List.not_mem_nil, hwaiting, if_pos List.mem_cons_self] at hexpects
        have hstarted : r.jobId ∈ e.jobsStarted s := by
          rw [he, Event.jobsStarted, hworker, Worker.taken, jobsOf_of_job hjob]
          exact List.mem_cons_self
        exact Or.inr ⟨job, hold, Or.inr (Or.inl ⟨hexpects, by rw [hupdated]; rfl, hstarted⟩)⟩
  | stop now elapsed r handled he hworker hjob hnext hjobs hrunning hnone hwaiting =>
      obtain ⟨job, hold, ⟨-, hsame⟩ | ⟨rfl, hupdated⟩⟩ := hjobs.retrieve hs.ring hring' hjob'
      · exact Or.inr ⟨job, hold, Or.inl hsame⟩
      · have hexpects := (hs.expects hold).2
        unfold Server.Expects at hexpects
        rw [hrunning, if_pos List.mem_cons_self] at hexpects
        have hended : r.jobId ∈ e.jobsEnded s := by
          rw [he, Event.jobsEnded, hrunning]
          exact List.mem_cons_self
        have hfinal : job'.status.Final := by
          rw [hupdated]
          exact handled.status_final
        exact Or.inr ⟨job, hold, Or.inr (Or.inr ⟨hexpects, hfinal, hended⟩)⟩

/-- A record that follows moves its status on by one at most. -/
theorem RecordFollows.next {s : Server} {e : Event} {n : Nat} {job' : JobInfo}
    (h : RecordFollows s e n job') (hold : n < s.shared.nextJobId) :
    ∃ job, retrieve s.shared n = some job ∧
      Relation.ReflTransGen JobStatus.Next job.status job'.status := by
  rcases h with ⟨hnew, -⟩ | ⟨job, hjob, rfl | ⟨hqueued, hrunning, -⟩ | ⟨hrunning, hfinal, -⟩⟩
  · omega
  · exact ⟨job', hjob, .refl⟩
  · exact ⟨job, hjob, hqueued ▸ hrunning ▸ .single .start⟩
  · refine ⟨job, hjob, ?_⟩
    rw [hrunning]
    rcases hfinal with hdone | herror
    · exact hdone ▸ .single .done
    · exact herror ▸ .single .error

/-- What a run does to the status of a record that can be retrieved at its end. -/
theorem serve_status {s s' : Server} {events : List Event} (hs : s.Scheduled)
    (hrun : serve s events = some s') {n : Nat} (hold : n < s.shared.nextJobId) {job' : JobInfo}
    (hjob' : retrieve s'.shared n = some job') :
    ∃ job, retrieve s.shared n = some job ∧
      Relation.ReflTransGen JobStatus.Next job.status job'.status := by
  unfold serve at hrun
  induction events generalizing s with
  | nil =>
      obtain rfl := Option.some.inj hrun
      exact ⟨job', hjob', .refl⟩
  | cons e events ih =>
      obtain ⟨middle, hstep, hrest⟩ := runFrom_cons_eq_some_iff.mp hrun
      have hold' : n < middle.shared.nextJobId :=
        Nat.lt_of_lt_of_le hold (Event.step_nextJobId_le hstep)
      obtain ⟨job, hjob, hafter⟩ := ih (Event.step_scheduled hs hstep) hrest hold'
      obtain ⟨first, hfirst, hbefore⟩ := (Event.step_recordFollows hs hstep hjob).next hold
      exact ⟨first, hfirst, hbefore.trans hafter⟩

/-- The record of a job that has ended stays as it is. -/
theorem serve_final {s s' : Server} {events : List Event} (hs : s.Scheduled)
    (hrun : serve s events = some s') {n : Nat} {job job' : JobInfo}
    (hjob : retrieve s.shared n = some job) (hfinal : job.status.Final)
    (hjob' : retrieve s'.shared n = some job') : job' = job := by
  unfold serve at hrun
  induction events generalizing s with
  | nil =>
      obtain rfl := Option.some.inj hrun
      exact Option.some.inj (hjob'.symm.trans hjob)
  | cons e events ih =>
      obtain ⟨middle, hstep, hrest⟩ := runFrom_cons_eq_some_iff.mp hrun
      have hmiddle := Event.step_scheduled hs hstep
      have hold := (hs.expects hjob).1
      have hold' : n < middle.shared.nextJobId :=
        Nat.lt_of_lt_of_le hold (Event.step_nextJobId_le hstep)
      obtain ⟨between, hbetween, -⟩ := serve_status hmiddle hrest hold' hjob'
      have hsame : between = job := by
        rcases Event.step_recordFollows hs hstep hbetween with ⟨hnew, -⟩ | ⟨first, hfirst, hcases⟩
        · omega
        · obtain rfl := Option.some.inj (hjob.symm.trans hfirst)
          rcases hcases with hsame | ⟨hqueued, -⟩ | ⟨hrunning, -⟩
          · exact hsame
          · rw [hqueued] at hfinal
            rcases hfinal with hdone | herror <;> contradiction
          · rw [hrunning] at hfinal
            rcases hfinal with hdone | herror <;> contradiction
      rw [hsame] at hbetween
      exact ih hmiddle hrest hbetween

theorem retrieve_jobUpdate_of_ne {n n' : Nat} (hne : n' ≠ n) (now : Int) (status : JobStatus)
    (result : CString) (state : SharedState) :
    retrieve (jobUpdate now n status result state) n' = retrieve state n' := by
  unfold retrieve
  split
  · rfl
  · rw [jobFind_jobUpdate]
    refine Option.map_congr fun slot hslot => ?_
    have hnumber := List.find?_some (Option.mem_def.mp hslot)
    unfold jobUpdate
    split
    · rfl
    · next found hfound =>
        have hother := List.find?_some hfound
        rw [FixedArray.get_set, if_neg]
        rintro rfl
        exact hne ((of_decide_eq_true hnumber).symm.trans (of_decide_eq_true hother))

/-- Jobs enter `RUNNING` in the order of their numbers, and none is left out. -/
theorem serve_jobsStarted (now : Int) (events : List Event) :
    ∃ k, collected Event.step (fun s e => e.jobsStarted s) (Server.init now) events =
      List.range' (Server.init now).turn k := by
  have hinv : ∀ s e s', Server.Scheduled s → Event.step s e = some s' → Server.Scheduled s' :=
    fun _ _ _ hs h => Event.step_scheduled hs h
  have hstep : ∀ s e s', Server.Scheduled s → Event.step s e = some s' →
      e.jobsStarted s = [] ∧ s'.turn = s.turn ∨ e.jobsStarted s = [s.turn] ∧ s'.turn = s.turn + 1 :=
    fun _ _ _ hs h => Event.step_jobsStarted hs h
  exact collected_eq_range' hinv hstep (Server.init_scheduled now) events

/-- In every run, jobs enter `RUNNING` in the order of their numbers and each at most
once, at most one record is running and those of later jobs are queued, a status only
moves from `QUEUED` over `RUNNING` to `DONE` or `ERROR`, and no update touches the
record of another job. -/
theorem jobs_lifecycle (now : Int) (events : List Event) :
    JobsKept (Server.init now) events where
  started := by
    obtain ⟨k, hstarted⟩ := serve_jobsStarted now events
    rw [hstarted]
    exact List.pairwise_lt_range'
  running := by
    intro done rest s _ hdone
    have hs : s.Scheduled := serve_scheduled hdone
    exact hs.oneRunning
  records := by
    refine everyStep_iff.mpr fun done e rest s _ hdone s' hstep n job' hjob' => ?_
    have hs : s.Scheduled := serve_scheduled hdone
    exact Event.step_recordFollows hs hstep hjob'
  statuses before middle after s₁ s₂ _ hbefore hmiddle n job₁ job₂ hjob₁ hjob₂ := by
    have hs := serve_scheduled hbefore
    obtain ⟨job, hjob, hmoves⟩ := serve_status hs hmiddle (hs.expects hjob₁).1 hjob₂
    obtain rfl := Option.some.inj (hjob₁.symm.trans hjob)
    exact hmoves
  updates _ _ s _ _ now n n' status result hne :=
    retrieve_jobUpdate_of_ne hne now status result s.shared

end SqlCodeGenerator
