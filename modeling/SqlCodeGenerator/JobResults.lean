import SqlCodeGenerator.Decimals
import SqlCodeGenerator.InsertRequests
import SqlCodeGenerator.JobLifecycle

/-!
# The result of a job

The response of a request is sent to its client and stored in the record of its job,
where `OP_JOB_RESULT` finds it later.

* `serve_owned`: the record of an open job is that of the client of its request.
* `serve_result`: what the record of a job holds once its request is finished.
* `resultAnswered_iff`: a question for the result is answered by the whole response
  exactly if it fits into the record.
-/

namespace SqlCodeGenerator

open Library

/-! ## Questions by number -/

/-- The payload that asks for a job by its number. -/
def numberPayload (n : Nat) : List UInt8 := (decimal n).map Subtype.val

theorem asksForLast_number (n : Nat) : asksForLast (some (numberPayload n)) = false := by
  have hlast : decimal n ≠ lit "last" := by
    intro heq
    have hmem : chr 'l' ∈ decimal n := by
      rw [heq]
      decide
    have hdigit := isDigit_of_mem_decimal _ hmem
    cases hdigit
  simp only [asksForLast, numberPayload, cstr_bytes, decide_eq_false (decimal_ne_nil n),
    decide_eq_false hlast, Bool.or_false]

/-- A job can be asked for by its number, up to a billion. -/
theorem parseJobIdPayload_number (state : SharedState) (clientId : UInt32) {n : Nat}
    (hpos : 0 < n) :
    parseJobIdPayload state clientId (some (numberPayload n)) =
      if n ≤ 1000000000 then (n : Int) else -1 := by
  unfold parseJobIdPayload
  rw [asksForLast_number, Option.getD_some, numberPayload, cstr_bytes, strtol_decimal]
  simp only [Bool.false_eq_true, if_false, ne_eq, not_true, false_or]
  by_cases hn : n ≤ 1000000000
  · rw [if_pos hn, if_neg (by omega)]
  · rw [if_neg hn, if_pos (by omega)]

/-! ## The client of a job -/

/-- The record of an open job is that of the client of its request. -/
def Server.Owned (s : Server) : Prop :=
  ∀ r ∈ s.unfinished, ∀ job, retrieve s.shared r.jobId = some job → job.clientId = toInt r.clientId

theorem Event.step_owned {s s' : Server} {e : Event} (hs : s.Tracked) (howned : s.Owned)
    (h : e.step s = some s') : s'.Owned := by
  intro r hr job hjob
  have hring' := Event.step_jobRing hs.ring h
  obtain ⟨hpos, hget, hnumber⟩ := hring'.retrieve_eq_some_iff.mp hjob
  rcases Event.step_unfinished h r hr with hold | ⟨now, fd, clientId, opId, payload, hbuilt, -⟩
  · have hissued : r.jobId < s.shared.nextJobId := (hs.issued r hold).resolve_left (by omega)
    rcases Event.step_records h with ⟨-, hkeeps⟩ | ⟨now, clientId, opId, -, hshared⟩
    · obtain ⟨hjobId, hclient⟩ := hkeeps.records (ringPlace maxJobs r.jobId)
      have hbefore := hs.ring.retrieve_eq_some_iff.mpr
        ⟨hpos, rfl, hjobId.symm.trans (hget ▸ hnumber)⟩
      rw [← hget, hclient]
      exact howned r hold _ hbefore
    · rw [hshared] at hget
      simp only [jobCreate, FixedArray.get_set] at hget
      split at hget
      · -- the new job has another number
        rw [← hget] at hnumber
        exact absurd hnumber (Nat.ne_of_gt hissued)
      · exact howned r hold job (hs.ring.retrieve_eq_some_iff.mpr ⟨hpos, hget, hnumber⟩)
  · have hrequest : _ = r := congrArg Prod.fst hbuilt
    have hshared : _ = s'.shared := congrArg Prod.snd hbuilt
    unfold receiveRequest at hrequest hshared
    cases hop : isProcessingOp opId with
    | false =>
        rw [hop] at hrequest
        rw [← hrequest] at hpos
        cases hpos
    | true =>
        rw [hop] at hrequest hshared
        rw [← hshared, ← hrequest] at hget
        have hself := FixedArray.get_set_self s.shared.jobs
          (ringPlace maxJobs s.shared.nextJobId) ⟨s.shared.nextJobId, toInt clientId, toInt opId,
            .queued, snprintf (lit "queued"), now, 0, 0⟩
        rw [← hget, ← hrequest]
        exact congrArg JobInfo.clientId hself

/-- In every reachable server the record of an open job is that of its client. -/
theorem serve_owned {now : Int} {events : List Event} {s : Server}
    (hreach : serve (Server.init now) events = some s) : s.Owned := by
  have hinit : (Server.init now).Tracked ∧ (Server.init now).Owned :=
    ⟨serve_tracked (show serve (Server.init now) [] = some _ from rfl), fun _ h => by cases h⟩
  have hstep : ∀ s e s', (Server.Tracked s ∧ Server.Owned s) → Event.step s e = some s' →
      Server.Tracked s' ∧ Server.Owned s' :=
    fun _ _ _ hs h => ⟨Event.step_tracked hs.1 h, Event.step_owned hs.1 hs.2 h⟩
  exact (runFrom_invariant hstep hinit hreach).2

/-! ## The stored result -/

/-- What the record of a finished job says. -/
structure ResultStored (state : SharedState) (r : Request) (h : Handled) : Prop where
  ring : JobRing state
  stored : ∃ job, retrieve state r.jobId = some job ∧ job.clientId = toInt r.clientId ∧
    job.status = h.status ∧ job.result.chars = h.response.take (maxJobResult - 1)

/-- A finished request leaves its status and the beginning of its response in the
record of its job, for as long as that is in the ring. -/
theorem serve_result {now time elapsed : Int} {before after : List Event} {s s' : Server}
    {r : Request} {h : Handled} (hreach : serve (Server.init now) before = some s)
    (hworker : s.worker = .handled r h) (hjob : 0 < r.jobId)
    (hrun : serve s (.finish time elapsed :: after) = some s')
    (hheld : (jobFind s'.shared r.jobId).isSome = true) : ResultStored s'.shared r h := by
  have hs := serve_scheduled hreach
  obtain ⟨middle, hstep, hrest⟩ := runFrom_cons_eq_some_iff.mp hrun
  have hmiddle := Event.step_scheduled hs hstep
  have hring' : JobRing s'.shared :=
    runFrom_invariant (fun _ _ _ hring h => Event.step_jobRing hring h) hmiddle.ring hrest
  have hopen : r ∈ s.unfinished := by
    rw [Server.unfinished, hworker]
    exact List.mem_cons_self
  -- the record is there at the end, so it was there all the time
  obtain ⟨slot, hslot⟩ := Option.isSome_iff_exists.mp hheld
  obtain ⟨-, hnumber⟩ := (hring'.jobFind_eq_some_iff hjob).mp hslot
  have hlast := hring'.retrieve_eq_some_iff.mpr ⟨hjob, rfl, hnumber⟩
  have hissued : r.jobId < s.shared.nextJobId :=
    ((serve_tracked hreach).issued r hopen).resolve_left (by omega)
  have hissued' : r.jobId < middle.shared.nextJobId :=
    Nat.lt_of_lt_of_le hissued (Event.step_nextJobId_le hstep)
  obtain ⟨job, hbetween, -⟩ := serve_status hmiddle hrest hissued' hlast
  obtain ⟨opened, hbefore, hupdated⟩ : ∃ opened, retrieve s.shared r.jobId = some opened ∧
      job = opened.update time h.status h.response := by
    cases Event.step_jobs hs.ring hstep with
    | keep hcreates hnext hjobs hrunning hwaiting hstarted hended =>
        rw [Event.jobsEnded, Server.runningJobs, hworker, Worker.started,
          jobsOf_of_job hjob] at hended
        cases hended
    | create now clientId opId hcreates hshared hrunning hwaiting => cases hcreates
    | start now r' he hworker' hjob' hnext hjobs hnone hrunning hwaiting => cases he
    | stop now elapsed r' h' he hworker' hjob' hnext hjobs hrunning hnone hwaiting =>
        obtain ⟨rfl, rfl⟩ := Worker.handled.inj (hworker.symm.trans hworker')
        obtain ⟨rfl, -⟩ := Event.finish.inj he
        obtain ⟨opened, hopened, ⟨hne, -⟩ | ⟨-, hupdated⟩⟩ :=
          hjobs.retrieve hs.ring hmiddle.ring hbetween
        · exact absurd rfl hne
        · exact ⟨opened, hopened, hupdated⟩
  have hfinal : job.status.Final := by
    rw [hupdated]
    exact h.status_final
  have hsame := serve_final hmiddle hrest hbetween hfinal hlast
  have howner : job.clientId = toInt r.clientId := by
    rw [hupdated]
    exact serve_owned hreach r hopen opened hbefore
  refine ⟨hring', job, hsame ▸ hlast, howner, ?_, ?_⟩
  · rw [hupdated]
    rfl
  · rw [hupdated]
    rfl

/-! ## Questions for a result -/

/-- The payloads with which a client asks for a job: its number, or `last` where it is
the last of the client. -/
inductive AsksFor (state : SharedState) (clientId : UInt32) (n : Nat) :
    Option (List UInt8) → Prop where
  | number : AsksFor state clientId n (some (numberPayload n))
  | last (payload : Option (List UInt8)) (hlast : asksForLast payload = true)
      (hjob : lastJob state clientId = n) : AsksFor state clientId n payload

/-- Every question of the client for the result of the job is answered by its number,
its status and the whole response. -/
def ResultAnswered (state : SharedState) (r : Request) (h : Handled) : Prop :=
  ∀ fd payload, AsksFor state r.clientId r.jobId payload →
    respondJobInfo state fd r.clientId opJobResult payload =
      respondText fd r.clientId opOk
        (lit "job=" ++ decimal r.jobId ++ lit " status=" ++ h.status.text ++ newline :: h.response)

/-- The answer to a question for the result of a stored job. -/
theorem ResultStored.answer {state : SharedState} {r : Request} {h : Handled}
    (hstored : ResultStored state r h) (fd : Int) {payload : Option (List UInt8)}
    (hparse : parseJobIdPayload state r.clientId payload = r.jobId) :
    respondJobInfo state fd r.clientId opJobResult payload =
      respondText fd r.clientId opOk (cut 4096
        (lit "job=" ++ decimal r.jobId ++ lit " status=" ++ h.status.text ++
          newline :: h.response.take (maxJobResult - 1))) := by
  obtain ⟨hring, job, hjob, howner, hstatus, hresult⟩ := hstored
  obtain ⟨hpos, hget, hnumber⟩ := hring.retrieve_eq_some_iff.mp hjob
  have hfind : jobFind state r.jobId = some (ringPlace maxJobs r.jobId) :=
    (hring.jobFind_eq_some_iff hpos).mpr ⟨rfl, hget ▸ hnumber⟩
  have hqueried : jobQueried state r.clientId payload = .ok job := by
    unfold jobQueried
    have hpositive : ¬ ((r.jobId : Int) ≤ 0) := by omega
    rw [hparse]
    simp only [if_neg hpositive, Int.toNat_natCast, hfind, hget, howner, ne_eq, not_true, if_false]
  unfold respondJobInfo
  rw [hqueried]
  simp only [JobInfo.answer, show opJobResult ≠ opJobStatus by decide, if_false, hnumber, hstatus,
    hresult]

theorem AsksFor.parse {state : SharedState} {clientId : UInt32} {n : Nat}
    {payload : Option (List UInt8)} (h : AsksFor state clientId n payload) (hpos : 0 < n)
    (hn : n ≤ 1000000000) : parseJobIdPayload state clientId payload = n := by
  cases h with
  | number => rw [parseJobIdPayload_number state clientId hpos, if_pos hn]
  | last payload hlast hjob =>
      unfold parseJobIdPayload
      rw [if_pos hlast, hjob]

theorem respondText_injective {fd : Int} {clientId opId opId' : UInt32} {text text' : CString}
    (h : respondText fd clientId opId text = respondText fd clientId opId' text') :
    opId = opId' ∧ text = text' := by
  obtain ⟨-, -, hop, hbytes⟩ := Message.mk.inj h
  exact ⟨hop, List.map_injective_iff.mpr Subtype.val_injective hbytes⟩

theorem JobStatus.length_text_le (status : JobStatus) : status.text.length ≤ 7 := by
  cases status with
  | _ => decide

/-- The line in front of a result, and the result, fit into `response`. -/
theorem length_answer_lt {n : Nat} (hn : n ≤ 1000000000) (status : JobStatus) {text : CString}
    (htext : text.length < maxJobResult) :
    (lit "job=" ++ decimal n ++ lit " status=" ++ status.text ++ newline :: text).length <
      4096 := by
  have hdigits : (decimal n).length ≤ 10 := length_decimal_le (by decide) (by omega)
  have hstatus := status.length_text_le
  have hjob : (lit "job=").length = 4 := by decide
  have hword : (lit " status=").length = 8 := by decide
  have hresult : maxJobResult = 2048 := rfl
  simp only [List.length_append, List.length_cons, hjob, hword]
  omega

/-- The whole response is the answer exactly if the record holds all of it and the
number can be asked for. -/
theorem ResultStored.answered_iff {state : SharedState} {r : Request} {h : Handled}
    (hstored : ResultStored state r h) :
    ResultAnswered state r h ↔ r.jobId ≤ 1000000000 ∧ h.response.length < maxJobResult := by
  have hpos : 0 < r.jobId := by
    obtain ⟨hring, job, hjob, -⟩ := hstored
    exact (hring.retrieve_eq_some_iff.mp hjob).1
  constructor
  · intro hanswered
    have hanswer := hanswered 0 _ .number
    have hparse := parseJobIdPayload_number state r.clientId hpos
    by_cases hn : r.jobId ≤ 1000000000
    · rw [if_pos hn] at hparse
      rw [hstored.answer 0 hparse] at hanswer
      have htext := congrArg List.length (respondText_injective hanswer).2
      simp only [cut, List.length_take, List.length_append, List.length_cons] at htext
      have hresult : maxJobResult = 2048 := rfl
      refine ⟨hn, ?_⟩
      omega
    · -- a number above a billion is refused
      rw [if_neg hn] at hparse
      have hrefused : jobQueried state r.clientId (some (numberPayload r.jobId)) =
          .error (lit "invalid or missing job id") := by
        unfold jobQueried
        simp only [hparse, show ((-1 : Int) ≤ 0) by decide, if_true]
      unfold respondJobInfo at hanswer
      rw [hrefused] at hanswer
      exact absurd (respondText_injective hanswer).1 (by decide)
  · rintro ⟨hn, hlength⟩ fd payload hasks
    rw [hstored.answer fd (hasks.parse hpos hn), List.take_of_length_le (by omega), cut,
      List.take_of_length_le]
    have hfits := length_answer_lt hn h.status hlength
    omega

/-- In every run, after a request with a job has been finished and as long as its
record is in the ring, the questions of its client for the result are answered by the
whole response exactly if it has fewer than `MAX_JOB_RESULT` bytes and the number of
the job is at most a billion. -/
theorem resultAnswered_iff {now time elapsed : Int} {before after : List Event} {s s' : Server}
    {r : Request} {h : Handled} (hreach : serve (Server.init now) before = some s)
    (hworker : s.worker = .handled r h) (hjob : 0 < r.jobId)
    (hrun : serve s (.finish time elapsed :: after) = some s')
    (hheld : (jobFind s'.shared r.jobId).isSome = true) :
    ResultAnswered s'.shared r h ↔
      r.jobId ≤ 1000000000 ∧ h.response.length < maxJobResult :=
  (serve_result hreach hworker hjob hrun hheld).answered_iff

/-! ### A short result and a long one -/

/-- What is left of a run up to the end of the request that the worker is at. -/
def finishRun (events : List Event) (after : List Event) :
    Option (Server × Request × Handled × Server) :=
  (serve (Server.init 0) events).bind fun s =>
    match s.worker with
    | .handled r h => (serve s (.finish 6 1 :: after)).map fun s' => (s, r, h, s')
    | _ => none

theorem finishRun_eq_some {events after : List Event} {s s' : Server} {r : Request} {h : Handled}
    (hrun : finishRun events after = some (s, r, h, s')) :
    serve (Server.init 0) events = some s ∧ s.worker = .handled r h ∧
      serve s (.finish 6 1 :: after) = some s' := by
  obtain ⟨first, hfirst, hrest⟩ := Option.bind_eq_some_iff.mp hrun
  split at hrest
  · next r' h' hworker =>
      obtain ⟨last, hlast, heq⟩ := Option.map_eq_some_iff.mp hrest
      simp only [Prod.mk.injEq] at heq
      obtain ⟨rfl, rfl, rfl, rfl⟩ := heq
      exact ⟨hfirst, hworker, hlast⟩
  · cases hrest

/-- The insertion of the sample, up to its end, and a later request. -/
def shortEvents : List Event := insertEvents ++ [.pop, .begin 5, .handle quietEnv]
def laterRequest : List Event :=
  [.interface (.receive 7 5 1 opGenerateSql []), .interface .push, .pop, .begin 8]

theorem shortEvents_run :
    (finishRun shortEvents laterRequest).map (fun run =>
      decide (0 < run.2.1.jobId ∧ (jobFind run.2.2.2.shared run.2.1.jobId).isSome = true ∧
        run.2.1.jobId ≤ 1000000000 ∧ run.2.2.1.response.length < maxJobResult)) = some true := by
  decide +kernel

/-- The result of the insertion is answered as it was sent. -/
theorem shortEvents_answered :
    ∃ s s' r h, serve (Server.init 0) shortEvents = some s ∧ s.worker = .handled r h ∧
      serve s (.finish 6 1 :: laterRequest) = some s' ∧ ResultAnswered s'.shared r h := by
  obtain ⟨⟨s, r, h, s'⟩, hrun, hall⟩ := Option.map_eq_some_iff.mp shortEvents_run
  obtain ⟨hreach, hworker, hfinish⟩ := finishRun_eq_some hrun
  obtain ⟨hjob, hheld, hnumber, hlength⟩ := of_decide_eq_true hall
  exact ⟨s, s', r, h, hreach, hworker, hfinish,
    (resultAnswered_iff hreach hworker hjob hfinish hheld).mpr ⟨hnumber, hlength⟩⟩

/-- A document of one table with 17 columns. -/
def ledgerDocument : CJson :=
  .object [(lit "tables", .array [.object [(lit "name", .string (wideTableName 0)),
    (lit "columns", .array ((List.range 17).map fun k =>
      .object [(lit "name", .string (wideName k)), (lit "type", .string wideType)]))]])]

/-- Its text. -/
def ledgerText : List UInt8 :=
  (lit "\x7b\"tables\":[\x7b" ++ memberText (lit "name") (wideTableName 0) ++
    lit ",\"columns\":[" ++ (((List.range 17).map wideColumnText).intersperse (lit ",")).flatten ++
    lit "]\x7d]\x7d").map Subtype.val

/-- The document is uploaded. -/
def ledgerEnv : RequestEnv :=
  { quietEnv with
    uploadFile := .holding ledgerText
    cjsonParse := fun json => if json = ledgerText then some ledgerDocument else none }

/-- A client uploads the document and asks for its DDL. -/
def ledgerEvents : List Event :=
  [.interface (.connect 0 5 (lit "10.0.0.1")),
    .interface (.receive 1 5 1 opUploadEnd []), .interface .push,
    .pop, .begin 2, .handle ledgerEnv, .finish 3 1,
    .interface (.receive 4 5 1 opGenerateSql []), .interface .push,
    .pop, .begin 5, .handle ledgerEnv]

theorem ledgerEvents_run :
    (finishRun ledgerEvents []).map (fun run =>
      decide (0 < run.2.1.jobId ∧ (jobFind run.2.2.2.shared run.2.1.jobId).isSome = true ∧
        run.2.2.1.status = .done ∧ maxJobResult ≤ run.2.2.1.response.length)) = some true := by
  decide +kernel

/-- The DDL is sent whole, and the answer to the question for it is cut. -/
theorem ledgerEvents_cut :
    ∃ s s' r h, serve (Server.init 0) ledgerEvents = some s ∧ s.worker = .handled r h ∧
      serve s [.finish 6 1] = some s' ∧ (jobFind s'.shared r.jobId).isSome = true ∧
      h.status = .done ∧ ¬ ResultAnswered s'.shared r h := by
  obtain ⟨⟨s, r, h, s'⟩, hrun, hall⟩ := Option.map_eq_some_iff.mp ledgerEvents_run
  obtain ⟨hreach, hworker, hfinish⟩ := finishRun_eq_some hrun
  obtain ⟨hjob, hheld, hdone, hlength⟩ := of_decide_eq_true hall
  refine ⟨s, s', r, h, hreach, hworker, hfinish, hheld, hdone, fun hanswered => ?_⟩
  have hfits := (serve_result hreach hworker hjob hfinish hheld).answered_iff.mp hanswered
  exact Nat.not_lt.mpr hlength hfits.2

end SqlCodeGenerator
