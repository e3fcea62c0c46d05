import SqlCodeGenerator.Library.Rings
import SqlCodeGenerator.RequestEffects
import SqlCodeGenerator.Server

/-!
# Questions about jobs

`parse_job_id_payload` and `respond_job_info` of `server.c`: a client asks for
the state or the result of a job of its own, by number or as its last.

* `serve_lastJob`: what a run keeps of the last job of a client.
* `lastJobAnswered_iff`: the last job is the one answered for exactly where the
  identifier of the client has a place in `last_job_by_client`.

The identifiers of jobs are natural numbers: an `int` holds the first 2^31 of
them.
-/

namespace SqlCodeGenerator

open Library

def opConnect : UInt32 := 0
def opBye : UInt32 := 5
def opJobStatus : UInt32 := 31
def opJobResult : UInt32 := 32

/-! ## The questions -/

/-- The text of a status. -/
def JobStatus.text : JobStatus → CString
  | unused => []
  | queued => lit "QUEUED"
  | running => lit "RUNNING"
  | done => lit "DONE"
  | error => lit "ERROR"

/-- `%d` and `%ld`. -/
def decimalInt (n : Int) : CString := lit (toString n)

/-- `isdigit`. -/
def isDigit (c : CChar) : Bool := 48 ≤ c.val && c.val ≤ 57

/-- The number that digits stand for. -/
def digitsValue (digits : CString) : Nat :=
  digits.foldl (fun n c => n * 10 + (c.val.toNat - 48)) 0

/-- `strtol(text, &end, 10)`: the number and the text at `end`, or `none` when
there are no digits.  A number that no `long` holds is given as it stands. -/
def strtol (text : CString) : Option (Int × CString) :=
  let (negative, rest) :=
    match skipWs text with
    | [] => (false, [])
    | c :: rest =>
        if c = chr '-' then (true, rest)
        else if c = chr '+' then (false, rest)
        else (false, c :: rest)
  if rest.takeWhile isDigit = [] then
    none
  else
    let value := digitsValue (rest.takeWhile isDigit)
    some (if negative then -value else value, rest.dropWhile isDigit)

/-- The question for the last job: no payload, an empty one or `last`. -/
def asksForLast : Option (List UInt8) → Bool
  | none => true
  | some payload => cstr payload = [] || cstr payload = lit "last"

/-- `client_id < 128 ? last_job_by_client[client_id] : 0`. -/
def lastJob (state : SharedState) (clientId : UInt32) : Nat :=
  if h : clientId.toNat < maxClients then state.lastJobByClient.get ⟨clientId.toNat, h⟩ else 0

/-- `parse_job_id_payload`.  A number outside `long` is outside the bounds too. -/
def parseJobIdPayload (state : SharedState) (clientId : UInt32) (payload : Option (List UInt8)) :
    Int :=
  if asksForLast payload then
    lastJob state clientId
  else
    match strtol (cstr (payload.getD [])) with
    | none => -1
    | some (parsed, rest) =>
        if rest ≠ [] ∨ parsed ≤ 0 ∨ parsed > 1000000000 then -1 else parsed

/-- The record that a question is answered for, or the text of the refusal. -/
def jobQueried (state : SharedState) (clientId : UInt32) (payload : Option (List UInt8)) :
    Except CString JobInfo :=
  let jobId := parseJobIdPayload state clientId payload
  if jobId ≤ 0 then
    .error (lit "invalid or missing job id")
  else
    match jobFind state jobId.toNat with
    | none => .error (lit "job not found")
    | some slot =>
        let job := state.jobs.get slot
        if job.clientId ≠ toInt clientId then .error (lit "job not found") else .ok job

/-- What a question says of a job. -/
def JobInfo.answer (job : JobInfo) (opId : UInt32) : CString :=
  if opId = opJobStatus then
    lit "job=" ++ decimal job.jobId ++ lit " status=" ++ job.status.text ++
      lit " op=" ++ decimalInt job.opId ++ lit " queued=" ++ decimalInt job.queuedAt ++
      lit " started=" ++ decimalInt job.startedAt ++ lit " finished=" ++ decimalInt job.finishedAt
  else
    lit "job=" ++ decimal job.jobId ++ lit " status=" ++ job.status.text ++
      newline :: job.result.chars

/-- `respond_job_info`. -/
def respondJobInfo (state : SharedState) (fd : Int) (clientId opId : UInt32)
    (payload : Option (List UInt8)) : Message :=
  match jobQueried state clientId payload with
  | .error text => respondText fd clientId opError text
  | .ok job => respondText fd clientId opOk (cut 4096 (job.answer opId))

/-- A question is answered only for the record of a job that is there, of the client
that asks. -/
theorem jobQueried_own {state : SharedState} {clientId : UInt32} {payload : Option (List UInt8)}
    {job : JobInfo} (h : jobQueried state clientId payload = .ok job) :
    job.clientId = toInt clientId ∧ 0 < job.jobId ∧ ∃ slot, state.jobs.get slot = job := by
  unfold jobQueried at h
  simp only at h
  split at h
  · cases h
  · next hpos =>
      split at h
      · cases h
      · next slot hslot =>
          split at h
          · cases h
          · next hown =>
              obtain rfl := Except.ok.inj h
              have hnumber := List.find?_some hslot
              have hjobId : (state.jobs.get slot).jobId =
                  (parseJobIdPayload state clientId payload).toNat := of_decide_eq_true hnumber
              exact ⟨not_ne_iff.mp hown, by omega, slot, rfl⟩

/-! ## The records along a run -/

/-- The client for which a step creates a job. -/
def Event.createsJobFor : Event → Option UInt32
  | .interface (.receive _ _ clientId opId _) => if isProcessingOp opId then some clientId else none
  | _ => none

/-- No record changes its number or its client, and none is created. -/
structure KeepsRecords (state state' : SharedState) : Prop where
  next : state'.nextJobId = state.nextJobId
  last : state'.lastJobByClient = state.lastJobByClient
  records : ∀ slot, (state'.jobs.get slot).jobId = (state.jobs.get slot).jobId ∧
    (state'.jobs.get slot).clientId = (state.jobs.get slot).clientId

/-- The three fields are all that counts. -/
theorem KeepsRecords.of_eq {state state' : SharedState} (hnext : state'.nextJobId = state.nextJobId)
    (hlast : state'.lastJobByClient = state.lastJobByClient) (hjobs : state'.jobs = state.jobs) :
    KeepsRecords state state' :=
  ⟨hnext, hlast, fun slot => by rw [hjobs]; exact ⟨rfl, rfl⟩⟩

theorem KeepsRecords.trans {first middle last : SharedState} (h : KeepsRecords first middle)
    (h' : KeepsRecords middle last) : KeepsRecords first last where
  next := h'.next.trans h.next
  last := h'.last.trans h.last
  records slot := ⟨(h'.records slot).1.trans (h.records slot).1,
    (h'.records slot).2.trans (h.records slot).2⟩

theorem keepsRecords_updateJobOf (r : Request) (now : Int) (status : JobStatus) (result : CString)
    (state : SharedState) : KeepsRecords state (updateJobOf r now status result state) := by
  unfold updateJobOf jobUpdate
  split
  · split
    · exact .of_eq rfl rfl rfl
    · next slot hslot =>
        refine ⟨rfl, rfl, fun other => ?_⟩
        simp only [FixedArray.get_set]
        split
        · next hother =>
            rw [hother]
            exact ⟨rfl, rfl⟩
        · exact ⟨rfl, rfl⟩
  · exact .of_eq rfl rfl rfl

theorem keepsRecords_clientTouch (now : Int) (clientId : UInt32) (state : SharedState) :
    KeepsRecords state (clientTouch now clientId state) := by
  obtain ⟨clients, hframe⟩ := clientTouch_frame now clientId state
  rw [hframe]
  exact .of_eq rfl rfl rfl

theorem keepsRecords_beginRequest (now : Int) (r : Request) (state : SharedState) :
    KeepsRecords state (beginRequest now r state) := by
  obtain ⟨hnext, hlast, hrecords⟩ := keepsRecords_clientTouch now r.clientId state
  refine KeepsRecords.trans ?_ (keepsRecords_updateJobOf r now _ _ _)
  exact ⟨hnext, hlast, hrecords⟩

theorem keepsRecords_finishRequest (now elapsed : Int) (r : Request) (h : Handled)
    (state : SharedState) : KeepsRecords state (finishRequest now elapsed r h state).1 := by
  have hcount : KeepsRecords state (countRequest elapsed h state) := .of_eq rfl rfl rfl
  have hupdate := keepsRecords_updateJobOf r now h.status h.response (countRequest elapsed h state)
  have hclear : ∀ state, KeepsRecords state (clearActive r state) := by
    intro state
    obtain ⟨_, _, _, hframe⟩ := clearActive_frame r state
    rw [hframe]
    exact .of_eq rfl rfl rfl
  exact (hcount.trans hupdate).trans (hclear _)

theorem keepsRecords_connectClient (now fd : Int) (addr : CString) (state : SharedState) :
    KeepsRecords state (connectClient now fd addr state) := by
  obtain ⟨_, _, _, hframe⟩ := connectClient_frame now fd addr state
  rw [hframe]
  exact .of_eq rfl rfl rfl

theorem keepsRecords_clientRemoveFd (fd : Int) (state : SharedState) :
    KeepsRecords state (clientRemoveFd fd state) := by
  obtain ⟨_, _, hframe⟩ := clientRemoveFd_frame fd state
  rw [hframe]
  exact .of_eq rfl rfl rfl

theorem keepsRecords_adminCancel (clientId : Int) (state : SharedState) :
    KeepsRecords state (adminCancel clientId state) := by
  obtain ⟨_, _, _, hframe⟩ := adminCancel_frame clientId state
  rw [hframe]
  exact .of_eq rfl rfl rfl

theorem keepsRecords_handleRequest {env : RequestEnv} {r : Request} {state state' : SharedState}
    {h : Handled} (hhandle : handleRequest env r state = some (state', h)) :
    KeepsRecords state state' := by
  obtain ⟨_, _, _, _, _, _, rfl⟩ := handleRequest_effect hhandle
  exact .of_eq rfl rfl rfl

/-- Inversion of a step for the records: they are kept, or one is created. -/
theorem Event.step_records {s s' : Server} {e : Event} (h : e.step s = some s') :
    (e.createsJobFor = none ∧ KeepsRecords s.shared s'.shared) ∨
      ∃ now clientId opId, e.createsJobFor = some clientId ∧
        s'.shared = (jobCreate now clientId opId s.shared).2 := by
  cases Event.step_spec h with
  | connect now fd addr => exact Or.inl ⟨rfl, keepsRecords_connectClient now fd addr s.shared⟩
  | close fd => exact Or.inl ⟨rfl, keepsRecords_clientRemoveFd fd s.shared⟩
  | receive now fd clientId opId payload hpending hregistered =>
      simp only [createsJobFor, receiveRequest]
      cases isProcessingOp opId with
      | true => exact Or.inr ⟨now, clientId, opId, rfl, rfl⟩
      | false => exact Or.inl ⟨rfl, .of_eq rfl rfl rfl⟩
  | cancel clientId => exact Or.inl ⟨rfl, keepsRecords_adminCancel clientId s.shared⟩
  | begin now r hworker => exact Or.inl ⟨rfl, keepsRecords_beginRequest now r s.shared⟩
  | handle env r state handled hworker hhandle =>
      exact Or.inl ⟨rfl, keepsRecords_handleRequest hhandle⟩
  | finish now elapsed r handled hworker =>
      exact Or.inl ⟨rfl, keepsRecords_finishRequest now elapsed r handled s.shared⟩
  -- no other step writes to a record
  | _ => exact Or.inl ⟨rfl, .of_eq rfl rfl rfl⟩

theorem Event.step_nextJobId_le {s s' : Server} {e : Event} (h : e.step s = some s') :
    s.shared.nextJobId ≤ s'.shared.nextJobId := by
  rcases Event.step_records h with ⟨-, hkeeps⟩ | ⟨now, clientId, opId, -, hshared⟩
  · exact Nat.le_of_eq hkeeps.next.symm
  · rw [hshared]
    exact Nat.le_succ _

/-! ## The ring of records -/

/-- The records are a ring, and a job can be created. -/
structure JobRing (state : SharedState) : Prop where
  next : 0 < state.nextJobId
  ring : NumberedRing JobInfo.jobId state.jobs state.nextJobId

theorem KeepsRecords.jobRing {state state' : SharedState} (h : KeepsRecords state state')
    (hring : JobRing state) : JobRing state' where
  next := h.next ▸ hring.next
  ring := h.next ▸ hring.ring.congr fun slot => (h.records slot).1

theorem JobRing.jobCreate {state : SharedState} (h : JobRing state) (now : Int)
    (clientId opId : UInt32) : JobRing (jobCreate now clientId opId state).2 where
  next := Nat.succ_pos _
  ring := h.ring.store rfl

theorem Event.step_jobRing {s s' : Server} {e : Event} (hs : JobRing s.shared)
    (h : e.step s = some s') : JobRing s'.shared := by
  rcases Event.step_records h with ⟨-, hkeeps⟩ | ⟨now, clientId, opId, -, hshared⟩
  · exact hkeeps.jobRing hs
  · rw [hshared]
    exact hs.jobCreate now clientId opId

/-- In every reachable server the records are a ring. -/
theorem serve_jobRing {now : Int} {events : List Event} {s : Server}
    (hreach : serve (Server.init now) events = some s) : JobRing s.shared := by
  have hzero : NumberedRing JobInfo.jobId (.replicate maxJobs JobInfo.zero) 1 :=
    .replicate (show JobInfo.zero.jobId = 0 from rfl) 1
  have hinit : JobRing (Server.init now).shared := ⟨Nat.one_pos, hzero⟩
  exact runFrom_invariant (fun _ _ _ hs h => Event.step_jobRing hs h) hinit hreach

/-- A record that is there is found at its place. -/
theorem JobRing.jobFind_eq_some_iff {state : SharedState} (h : JobRing state) {n : Nat}
    (hpos : 0 < n) {slot : Fin maxJobs} :
    jobFind state n = some slot ↔
      slot = ringPlace maxJobs n ∧ (state.jobs.get (ringPlace maxJobs n)).jobId = n := by
  constructor
  · intro hfind
    have hfound := List.find?_some hfind
    have hnumber : (state.jobs.get slot).jobId = n := of_decide_eq_true hfound
    have hplace := h.ring.place_eq hpos hnumber
    exact ⟨hplace, hplace ▸ hnumber⟩
  · rintro ⟨rfl, hnumber⟩
    exact h.ring.find?_eq hpos hnumber

/-- What an update leaves in each slot. -/
theorem JobRing.updateJobOf_get {state : SharedState} (h : JobRing state) (r : Request) (now : Int)
    (status : JobStatus) (result : CString) (slot : Fin maxJobs) :
    (updateJobOf r now status result state).jobs.get slot =
      if 0 < r.jobId ∧ (state.jobs.get slot).jobId = r.jobId then
        (state.jobs.get slot).update now status result
      else
        state.jobs.get slot := by
  unfold updateJobOf
  split
  · next hpos =>
      unfold jobUpdate
      split
      · next hfind =>
          have hnot := FixedArray.not_of_find?_eq_none hfind slot
          rw [if_neg fun hheld => hnot hheld.2]
      · next found hfind =>
          -- the slot found is the only one with that number
          have hfound := FixedArray.of_find?_eq_some hfind
          have hplace := h.ring.place_eq hpos hfound
          simp only [FixedArray.get_set]
          by_cases hslot : slot = found
          · rw [if_pos hslot, hslot, if_pos ⟨hpos, hfound⟩]
          · rw [if_neg hslot, if_neg]
            rintro ⟨-, hheld⟩
            exact hslot ((h.ring.place_eq hpos hheld).trans hplace.symm)
  · next hpos => rw [if_neg fun hheld => hpos hheld.1]

/-! ## The last job of a client -/

/-- The job is the last of the client, and its record is there. -/
structure LastJobHeld (state : SharedState) (clientId : UInt32) (jobId : Nat) : Prop where
  last : lastJob state clientId = if clientId.toNat < maxClients then jobId else 0
  number : (state.jobs.get (ringPlace maxJobs jobId)).jobId = jobId
  owner : (state.jobs.get (ringPlace maxJobs jobId)).clientId = toInt clientId

theorem lastJobHeld_jobCreate (now : Int) (clientId opId : UInt32) (state : SharedState) :
    LastJobHeld (jobCreate now clientId opId state).2 clientId state.nextJobId := by
  have hplace : (⟨state.nextJobId % maxJobs, Nat.mod_lt _ (by decide)⟩ : Fin maxJobs) =
      ringPlace maxJobs state.nextJobId := rfl
  refine ⟨?_, ?_, ?_⟩
  · unfold lastJob jobCreate
    by_cases hclient : clientId.toNat < maxClients
    · simp only [dif_pos hclient, if_pos hclient, FixedArray.get_set_self]
    · rw [dif_neg hclient, if_neg hclient]
  · simp only [jobCreate, hplace, FixedArray.get_set_self]
  · simp only [jobCreate, hplace, FixedArray.get_set_self]

theorem LastJobHeld.keeps {state state' : SharedState} {clientId : UInt32} {jobId : Nat}
    (h : LastJobHeld state clientId jobId) (hkeeps : KeepsRecords state state') :
    LastJobHeld state' clientId jobId := by
  obtain ⟨hnumber, howner⟩ := hkeeps.records (ringPlace maxJobs jobId)
  refine ⟨?_, hnumber.trans h.number, howner.trans h.owner⟩
  rw [← h.last]
  unfold lastJob
  rw [hkeeps.last]

/-- Fewer than `MAX_JOBS` jobs of others leave the job where it is. -/
theorem LastJobHeld.jobCreate {state : SharedState} {clientId other : UInt32} {jobId : Nat}
    (h : LastJobHeld state clientId jobId) (hother : other ≠ clientId)
    (hafter : jobId < state.nextJobId) (hround : state.nextJobId < jobId + maxJobs) (now : Int)
    (opId : UInt32) : LastJobHeld (jobCreate now other opId state).2 clientId jobId := by
  have hplace : ringPlace maxJobs jobId ≠
      ⟨state.nextJobId % maxJobs, Nat.mod_lt _ (by decide)⟩ := ringPlace_ne hafter hround
  refine ⟨?_, ?_, ?_⟩
  · rw [← h.last]
    unfold lastJob SqlCodeGenerator.jobCreate
    by_cases hclient : clientId.toNat < maxClients
    · simp only [dif_pos hclient]
      split
      · next hin =>
          have hne : (⟨clientId.toNat, hclient⟩ : Fin maxClients) ≠ ⟨other.toNat, hin⟩ := by
            intro heq
            exact hother (UInt32.toNat_inj.mp (congrArg Fin.val heq).symm)
          rw [FixedArray.get_set, if_neg hne]
      · rfl
    · rw [dif_neg hclient, dif_neg hclient]
  · simpa only [SqlCodeGenerator.jobCreate, FixedArray.get_set, if_neg hplace] using h.number
  · simpa only [SqlCodeGenerator.jobCreate, FixedArray.get_set, if_neg hplace] using h.owner

/-- What a run keeps of the last job of a client: it creates no other job for the
client, and fewer than `MAX_JOBS` in all since the job. -/
theorem serve_lastJob {s s' : Server} {events : List Event} {clientId : UInt32} {jobId : Nat}
    (hheld : LastJobHeld s.shared clientId jobId) (hafter : jobId < s.shared.nextJobId)
    (hlast : ∀ e ∈ events, e.createsJobFor ≠ some clientId)
    (hfew : s.shared.nextJobId + events.countP (fun e => e.createsJobFor.isSome) ≤ jobId + maxJobs)
    (hrun : serve s events = some s') : LastJobHeld s'.shared clientId jobId := by
  unfold serve at hrun
  induction events generalizing s with
  | nil =>
      obtain rfl := Option.some.inj hrun
      exact hheld
  | cons e events ih =>
      obtain ⟨middle, hstep, hrest⟩ := runFrom_cons_eq_some_iff.mp hrun
      have hothers : ∀ e ∈ events, e.createsJobFor ≠ some clientId :=
        fun e' he' => hlast e' (List.mem_cons_of_mem e he')
      rw [List.countP_cons] at hfew
      rcases Event.step_records hstep with ⟨hnone, hkeeps⟩ | ⟨now, other, opId, hother, hshared⟩
      · refine ih (hheld.keeps hkeeps) (hkeeps.next ▸ hafter) hothers ?_ hrest
        rw [hkeeps.next]
        omega
      · have hne : other ≠ clientId := by
          intro heq
          exact hlast e List.mem_cons_self (heq ▸ hother)
        have hnext : middle.shared.nextJobId = s.shared.nextJobId + 1 := by rw [hshared]; rfl
        simp only [hother, Option.isSome_some, if_true] at hfew
        refine ih ?_ (by omega) hothers (by omega) hrest
        rw [hshared]
        exact hheld.jobCreate hne hafter (by omega) now opId

/-- The answer to a client that asks for its last job, where that is this one; and
no question of the client is answered for the job of another. -/
structure LastJobAnswered (state : SharedState) (clientId : UInt32) (jobId : Nat) : Prop where
  last : ∀ payload, asksForLast payload = true → ∃ job,
    jobQueried state clientId payload = .ok job ∧ job.jobId = jobId ∧ job.clientId = toInt clientId
  own : ∀ payload job, jobQueried state clientId payload = .ok job → job.clientId = toInt clientId

/-- A last job that is held is the answer where its client has a place in
`last_job_by_client`. -/
theorem LastJobHeld.answered_iff {state : SharedState} {clientId : UInt32} {jobId : Nat}
    (h : LastJobHeld state clientId jobId) (hring : JobRing state) (hpos : 0 < jobId) :
    LastJobAnswered state clientId jobId ↔ clientId.toNat < maxClients := by
  have hparse : ∀ payload, asksForLast payload = true →
      parseJobIdPayload state clientId payload =
        ((if clientId.toNat < maxClients then jobId else 0 : Nat) : Int) := by
    intro payload hpayload
    unfold parseJobIdPayload
    rw [if_pos hpayload, h.last]
  constructor
  · intro hanswered
    by_contra hout
    obtain ⟨job, hjob, -, -⟩ := hanswered.last none rfl
    unfold jobQueried at hjob
    rw [hparse none rfl, if_neg hout] at hjob
    cases hjob
  · intro hin
    refine ⟨fun payload hpayload => ?_, fun payload job hjob => (jobQueried_own hjob).1⟩
    refine ⟨state.jobs.get (ringPlace maxJobs jobId), ?_, h.number, h.owner⟩
    have hfind : jobFind state jobId = some (ringPlace maxJobs jobId) :=
      hring.ring.find?_eq hpos h.number
    have hpositive : ¬ (jobId : Int) ≤ 0 := by omega
    unfold jobQueried
    rw [hparse payload hpayload, if_pos hin]
    simp only [if_neg hpositive, Int.toNat_natCast, hfind, h.owner, ne_eq, not_true, if_false]

/-- In every run, after a job has been created for a client, while no other is
created for it and fewer than `MAX_JOBS` for others, the questions of the client
for its last job are answered for that job, and none of its questions for the job
of another, exactly where its identifier is below 128. -/
theorem lastJobAnswered_iff {now : Int} {before after : List Event} {creation : Event}
    {s s' : Server} {clientId : UInt32} (hreach : serve (Server.init now) before = some s)
    (hcreates : creation.createsJobFor = some clientId)
    (hrun : serve s (creation :: after) = some s')
    (hlast : ∀ e ∈ after, e.createsJobFor ≠ some clientId)
    (hfew : after.countP (fun e => e.createsJobFor.isSome) < maxJobs) :
    LastJobAnswered s'.shared clientId s.shared.nextJobId ↔ clientId.toNat < maxClients := by
  have hreach' : serve (Server.init now) (before ++ creation :: after) = some s' := by
    unfold serve at hreach hrun ⊢
    rw [runFrom_append, hreach]
    exact hrun
  obtain ⟨middle, hstep, hrest⟩ := runFrom_cons_eq_some_iff.mp hrun
  rcases Event.step_records hstep with ⟨hnone, -⟩ | ⟨time, other, opId, hother, hshared⟩
  · rw [hcreates] at hnone
    cases hnone
  · obtain rfl : clientId = other := Option.some.inj (hcreates.symm.trans hother)
    have hnext : middle.shared.nextJobId = s.shared.nextJobId + 1 := by rw [hshared]; rfl
    have hheld : LastJobHeld middle.shared clientId s.shared.nextJobId := by
      rw [hshared]
      exact lastJobHeld_jobCreate time clientId opId s.shared
    have hheld' := serve_lastJob hheld (by omega) hlast (by omega) hrest
    exact hheld'.answered_iff (serve_jobRing hreach') (serve_jobRing hreach).next

/-! ### Client 1, and client 128 -/

/-- One client connects. -/
def firstClient : List Event := [.interface (.connect 0 5 (lit "10.0.0.1"))]

/-- Its request, and one of a second client. -/
def firstGenerate : Event := .interface (.receive 1 5 1 opGenerateSql [])
def laterEvents : List Event :=
  [.interface .push, .interface (.connect 2 6 (lit "10.0.0.2")),
    .interface (.receive 3 6 2 opGenerateSql []), .interface .push, .pop, .begin 4]

/-- With the job of client 2 created later, client 1 asks for its own. -/
theorem firstClient_lastJob :
    ∃ s s', serve (Server.init 0) firstClient = some s ∧
      serve s (firstGenerate :: laterEvents) = some s' ∧
      (LastJobAnswered s'.shared 1 s.shared.nextJobId ↔ (1 : UInt32).toNat < maxClients) := by
  have hboth : ((serve (Server.init 0) firstClient).bind fun s =>
      serve s (firstGenerate :: laterEvents)).isSome = true := by decide +kernel
  obtain ⟨s', hs'⟩ := Option.isSome_iff_exists.mp hboth
  obtain ⟨s, hs, hrun⟩ := Option.bind_eq_some_iff.mp hs'
  exact ⟨s, s', hs, hrun, lastJobAnswered_iff hs (by decide) hrun (by decide) (by decide)⟩

/-- After 127 clients have come and gone, one more connects. -/
def client128 : List Event :=
  (List.replicate 127
    [Event.interface (.connect 0 5 (lit "10.0.0.1")), .interface (.close 5)]).flatten ++
    [.interface (.connect 0 5 (lit "10.0.0.1"))]

/-- Its request. -/
def generate128 : Event := .interface (.receive 1 5 128 opGenerateSql [])

/-- Client 128 is registered and has a job, but it has no last job. -/
theorem client128_noLastJob :
    ∃ s s', serve (Server.init 0) client128 = some s ∧ serve s [generate128] = some s' ∧
      generate128.createsJobFor = some 128 ∧ isRegisteredClient s'.shared 128 = true ∧
      respondJobInfo s'.shared 5 128 opJobStatus none =
        respondText 5 128 opError (lit "invalid or missing job id") ∧
      ¬ LastJobAnswered s'.shared 128 s.shared.nextJobId := by
  have hboth : ((serve (Server.init 0) client128).bind fun s => serve s [generate128]).map
      (fun s => decide (isRegisteredClient s.shared 128 = true ∧
        jobQueried s.shared 128 none = .error (lit "invalid or missing job id"))) = some true := by
    decide +kernel
  obtain ⟨s', hs', hanswer⟩ := Option.map_eq_some_iff.mp hboth
  obtain ⟨s, hs, hrun⟩ := Option.bind_eq_some_iff.mp hs'
  obtain ⟨hregistered, hrefused⟩ := of_decide_eq_true hanswer
  refine ⟨s, s', hs, hrun, by decide, hregistered, ?_, fun hanswered => ?_⟩
  · unfold respondJobInfo
    rw [hrefused]
  · obtain ⟨job, hjob, -⟩ := hanswered.last none rfl
    rw [hrefused] at hjob
    cases hjob

end SqlCodeGenerator
