import SqlCodeGenerator.JobOrder

/-!
# Open jobs and their records

The queue takes any number of requests, and the ring holds `MAX_JOBS` records: a new
job takes the slot of the one `MAX_JOBS` numbers before it, whether that one has been
processed or not.

* `openJobs_remembered_iff`: no open job is forgotten exactly in the runs in which a
  job is created only while fewer than `MAX_JOBS` are open.
* `burst129_forgotten`: a client that enqueues 129 requests.
-/

namespace SqlCodeGenerator

open Library

/-- Every job of a request that is queued or processed is found, and is queued or
running. -/
def Server.Remembers (s : Server) : Prop :=
  ∀ r ∈ s.unfinished, 0 < r.jobId → ∃ slot, jobFind s.shared r.jobId = some slot ∧
    ((s.shared.jobs.get slot).status = .queued ∨ (s.shared.jobs.get slot).status = .running)

/-- The record of a job is found before and after a step, which updates it. -/
def RecordUpdated (s s' : Server) (n : Nat) (now : Int) (status : JobStatus) (result : CString) :
    Prop :=
  ∃ slot, jobFind s.shared n = some slot ∧ jobFind s'.shared n = some slot ∧
    s'.shared.jobs.get slot = (s.shared.jobs.get slot).update now status result

/-- What a step of the worker writes of the job of its request takes effect. -/
def UpdateTakesEffect (s : Server) (e : Event) (s' : Server) : Prop :=
  match e, s.worker with
  | .begin now, .popped r =>
      0 < r.jobId → RecordUpdated s s' r.jobId now .running (lit "running")
  | .finish now _, .handled r h =>
      0 < r.jobId → RecordUpdated s s' r.jobId now h.status h.response
  | _, _ => True

/-- Along a run no open job is forgotten, and every update of the worker takes
effect. -/
structure OpenJobsRemembered (s : Server) (events : List Event) : Prop where
  remembered : Throughout Event.step Server.Remembers s events
  updated : EveryStep Event.step
    (fun s e => ∀ s', e.step s = some s' → UpdateTakesEffect s e s') s events

/-- If the step creates a job, fewer than `MAX_JOBS` are open. -/
def RingHasRoom (s : Server) (e : Event) : Prop :=
  e.createsJobFor.isSome = true → s.openJobs.length < maxJobs

instance decidableRingHasRoom (s : Server) (e : Event) : Decidable (RingHasRoom s e) :=
  inferInstanceAs (Decidable (_ → _))

/-- An open job is remembered exactly if its record is at its place. -/
theorem Server.Scheduled.remembers_iff {s : Server} (hs : s.Scheduled) :
    s.Remembers ↔ ∀ n ∈ s.openJobs, (s.shared.jobs.get (ringPlace maxJobs n)).jobId = n := by
  constructor
  · intro hremembers n hn
    obtain ⟨hpos, r, hr, rfl⟩ := Server.mem_openJobs_iff.mp hn
    obtain ⟨slot, hfind, -⟩ := hremembers r hr hpos
    exact ((hs.ring.jobFind_eq_some_iff hpos).mp hfind).2
  · intro hheld r hr hpos
    have hopen : r.jobId ∈ s.openJobs := Server.mem_openJobs_iff.mpr ⟨hpos, r, hr, rfl⟩
    have hnumber := hheld _ hopen
    refine ⟨_, (hs.ring.jobFind_eq_some_iff hpos).mpr ⟨rfl, hnumber⟩, ?_⟩
    -- an open job runs or waits
    have hexpects := hs.records _ (hnumber.symm ▸ hpos)
    unfold Server.Expects at hexpects
    rw [hnumber] at hexpects
    rw [Server.openJobs_eq, List.mem_append] at hopen
    split at hexpects
    · exact Or.inr hexpects
    · next hnot =>
        rw [if_pos (hopen.resolve_left hnot)] at hexpects
        exact Or.inl hexpects

/-- A step without a new job forgets none. -/
theorem Server.Remembers.of_sublist {s s' : Server} (hs : s.Scheduled) (hs' : s'.Scheduled)
    (hremembers : s.Remembers) (hopen : ∀ n ∈ s'.openJobs, n ∈ s.openJobs)
    (hnumbers : ∀ slot, (s'.shared.jobs.get slot).jobId = (s.shared.jobs.get slot).jobId) :
    s'.Remembers := by
  refine hs'.remembers_iff.mpr fun n hn => ?_
  rw [hnumbers]
  exact hs.remembers_iff.mp hremembers n (hopen n hn)

/-- A step keeps all open jobs in the ring exactly if the ring has room for it. -/
theorem Event.step_remembers_iff {s s' : Server} {e : Event} (hs : s.Scheduled)
    (hremembers : s.Remembers) (h : e.step s = some s') : s'.Remembers ↔ RingHasRoom s e := by
  have hs' := Event.step_scheduled hs h
  cases Event.step_jobs hs.ring h with
  | keep hcreates hnext hjobs hrunning hwaiting hstarted hended =>
      refine iff_of_true
        (hremembers.of_sublist hs hs' (fun n hn => ?_) fun slot => by rw [hjobs]) ?_
      · rwa [Server.openJobs_eq, hrunning, hwaiting, ← Server.openJobs_eq] at hn
      · rw [RingHasRoom, hcreates]
        exact fun hfalse => by cases hfalse
  | create now clientId opId hcreates hshared hrunning hwaiting =>
      have hopen : s'.openJobs = s.openJobs ++ [s.shared.nextJobId] := by
        rw [Server.openJobs_eq, hrunning, hwaiting, Server.openJobs_eq, List.append_assoc]
      have hget : ∀ slot, (s'.shared.jobs.get slot).jobId =
          if slot = ringPlace maxJobs s.shared.nextJobId then s.shared.nextJobId
          else (s.shared.jobs.get slot).jobId := by
        intro slot
        rw [hshared]
        simp only [jobCreate, FixedArray.get_set, apply_ite JobInfo.jobId]
        rfl
      have hroom : RingHasRoom s e ↔ s.openJobs.length < maxJobs := by
        rw [RingHasRoom, hcreates]
        exact ⟨fun hfew => hfew rfl, fun hfew _ => hfew⟩
      rw [hs'.remembers_iff, hopen, hroom]
      constructor
      · intro hheld
        by_contra hfull
        -- the job a whole round before the new one is open, and its slot is taken
        have hopened := hs.opened.1
        have hlength : maxJobs ≤ s.openJobs.length := Nat.le_of_not_lt hfull
        have hround : maxJobs ≤ s.shared.nextJobId := Nat.le_of_lt (by omega)
        have hbefore : s.shared.nextJobId - maxJobs < s.shared.nextJobId :=
          Nat.sub_lt hs.ring.next (by decide)
        have hmem : s.shared.nextJobId - maxJobs ∈ s.openJobs := by
          refine hs.opened.mem_iff.mpr ⟨?_, hbefore⟩
          omega
        have hplace : ringPlace maxJobs (s.shared.nextJobId - maxJobs) =
            ringPlace maxJobs s.shared.nextJobId := Fin.ext (Nat.mod_eq_sub_mod hround).symm
        have hgone := hheld _ (List.mem_append_left _ hmem)
        rw [hget, if_pos hplace] at hgone
        exact Nat.ne_of_lt hbefore hgone.symm
      · intro hfew n hn
        rw [hget]
        rcases List.mem_append.mp hn with hold | hnew
        · have hbounds := hs.opened.mem_iff.mp hold
          have hplace : ringPlace maxJobs n ≠ ringPlace maxJobs s.shared.nextJobId :=
            ringPlace_ne hbounds.2 (by omega)
          rw [if_neg hplace]
          exact hs.remembers_iff.mp hremembers n hold
        · rw [List.mem_singleton.mp hnew, if_pos rfl]
  | start now r he hworker hjob hnext hjobs hnone hrunning hwaiting =>
      refine iff_of_true (hremembers.of_sublist hs hs' (fun n hn => ?_) hjobs.jobId) ?_
      · rwa [Server.openJobs_eq, hrunning, List.singleton_append, ← hwaiting,
          ← List.nil_append s.waitingJobs, ← hnone, ← Server.openJobs_eq] at hn
      · rw [he]
        exact fun hcreates => by cases hcreates
  | stop now elapsed r handled he hworker hjob hnext hjobs hrunning hnone hwaiting =>
      refine iff_of_true (hremembers.of_sublist hs hs' (fun n hn => ?_) hjobs.jobId) ?_
      · rw [Server.openJobs_eq, hnone, hwaiting] at hn
        rw [Server.openJobs_eq]
        exact List.mem_append_right _ hn
      · rw [he]
        exact fun hcreates => by cases hcreates

/-- The updates of the worker find the jobs that are remembered. -/
theorem Event.step_updateTakesEffect {s s' : Server} {e : Event} (hs : s.Scheduled)
    (hremembers : s.Remembers) (h : e.step s = some s') : UpdateTakesEffect s e s' := by
  have hs' := Event.step_scheduled hs h
  have hupdated : ∀ {n : Nat} {now : Int} {status : JobStatus} {result : CString},
      n ∈ s.openJobs → RecordsUpdated s.shared.jobs s'.shared.jobs n now status result →
      RecordUpdated s s' n now status result := by
    intro n now status result hopen hjobs
    have hpos := (Server.mem_openJobs_iff.mp hopen).1
    have hheld := hs.remembers_iff.mp hremembers n hopen
    refine ⟨ringPlace maxJobs n, (hs.ring.jobFind_eq_some_iff hpos).mpr ⟨rfl, hheld⟩,
      (hs'.ring.jobFind_eq_some_iff hpos).mpr ⟨rfl, (hjobs.jobId _).trans hheld⟩, ?_⟩
    rw [hjobs, if_pos hheld]
  have hrunningOpen : ∀ r, s.runningJobs = [r] → r ∈ s.openJobs := by
    intro r hrunning
    rw [Server.openJobs_eq, hrunning]
    exact List.mem_append_left _ List.mem_cons_self
  have hnotWritten : e.jobsStarted s = [] → e.jobsEnded s = [] → UpdateTakesEffect s e s' := by
    intro hstarted hended
    unfold UpdateTakesEffect
    split
    · next r hworker =>
        intro hjob
        rw [Event.jobsStarted, hworker, Worker.taken, jobsOf_of_job hjob] at hstarted
        cases hstarted
    · next r handled hworker =>
        intro hjob
        rw [Event.jobsEnded, Server.runningJobs, hworker, Worker.started,
          jobsOf_of_job hjob] at hended
        cases hended
    · trivial
  cases Event.step_jobs hs.ring h with
  | keep hcreates hnext hjobs hrunning hwaiting hstarted hended =>
      exact hnotWritten hstarted hended
  | create now clientId opId hcreates hshared hrunning hwaiting =>
      obtain ⟨hstarted, hended⟩ := Event.jobsStarted_of_creates hcreates
      exact hnotWritten hstarted hended
  | start now r he hworker hjob hnext hjobs hnone hrunning hwaiting =>
      unfold UpdateTakesEffect
      rw [he, hworker]
      intro _
      refine hupdated ?_ hjobs
      rw [Server.openJobs_eq, hwaiting]
      exact List.mem_append_right _ List.mem_cons_self
  | stop now elapsed r handled he hworker hjob hnext hjobs hrunning hnone hwaiting =>
      unfold UpdateTakesEffect
      rw [he, hworker]
      exact fun _ => hupdated (hrunningOpen _ hrunning) hjobs

/-- In every run, no open job is forgotten and every update takes effect exactly if a
job is created only while fewer than `MAX_JOBS` are open. -/
theorem openJobs_remembered_iff {now : Int} {events : List Event} {s : Server}
    (hrun : serve (Server.init now) events = some s) :
    OpenJobsRemembered (Server.init now) events ↔
      EveryStep Event.step RingHasRoom (Server.init now) events := by
  have hthroughout : Throughout Event.step Server.Remembers (Server.init now) events ↔
      EveryStep Event.step RingHasRoom (Server.init now) events :=
    throughout_iff (fun _ _ _ hs h => Event.step_scheduled hs h)
      (fun _ _ _ hs hremembers h => Event.step_remembers_iff hs hremembers h)
      (Server.init_scheduled now) (fun _ h => by cases h) hrun
  refine ⟨fun h => hthroughout.mp h.remembered, fun h => ⟨hthroughout.mpr h, ?_⟩⟩
  refine everyStep_iff.mpr fun done e rest middle hevents hdone middle' hstep => ?_
  have hremembers := hthroughout.mpr h done (e :: rest) middle hevents hdone
  exact Event.step_updateTakesEffect (serve_scheduled hdone) hremembers hstep

/-! ### A burst of requests -/

/-- A client enqueues requests without waiting for an answer. -/
def burstEvents (requests : Nat) : List Event :=
  .interface (.connect 0 5 (lit "10.0.0.1")) ::
    (List.replicate requests
      [Event.interface (.receive 1 5 1 opGenerateSql []), .interface .push]).flatten

/-- With 128 of them every job is remembered. -/
theorem burst128_remembered : OpenJobsRemembered (Server.init 0) (burstEvents 128) := by
  have hsome : (serve (Server.init 0) (burstEvents 128)).isSome = true := by decide +kernel
  obtain ⟨s, hs⟩ := Option.isSome_iff_exists.mp hsome
  exact (openJobs_remembered_iff hs).mpr (by decide +kernel)

/-- The request of job 1 in a queue of 129. -/
theorem burst129_run :
    (serve (Server.init 0) (burstEvents 129)).map (fun s =>
      decide ((s.queue.head?.map Request.jobId) = some 1 ∧ jobFind s.shared 1 = none)) =
      some true := by
  decide +kernel

/-- With 129 of them job 1 is forgotten before it has begun. -/
theorem burst129_forgotten :
    ∃ s, serve (Server.init 0) (burstEvents 129) = some s ∧ ¬ s.Remembers := by
  obtain ⟨s, hs, hhead⟩ := Option.map_eq_some_iff.mp burst129_run
  obtain ⟨hfirst, hgone⟩ := of_decide_eq_true hhead
  obtain ⟨r, hr, hjob⟩ := Option.map_eq_some_iff.mp hfirst
  refine ⟨s, hs, fun hremembers => ?_⟩
  have hqueued : r ∈ s.unfinished :=
    List.mem_append_right _ (List.mem_append_left _ (List.mem_of_mem_head? hr))
  obtain ⟨slot, hfind, -⟩ := hremembers r hqueued (by omega)
  rw [hjob, hgone] at hfind
  cases hfind

end SqlCodeGenerator
