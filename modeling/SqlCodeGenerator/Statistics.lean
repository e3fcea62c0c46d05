import SqlCodeGenerator.Cancellations
import SqlCodeGenerator.ClientPairing
import SqlCodeGenerator.Library.Ledgers
import SqlCodeGenerator.Shutdown

/-!
# The statistics of the server

The worker counts what it does in `SharedState`, and `OP_ADMIN_REPORT` shows the counters.
What the worker has done in a run is a log of its own; the counters are compared with it.

* `Server.Counted`: what the counters say of the log;
* `ServiceEvent.step_counted`: every step keeps it;
* `reports_count_run`: what the admin is told is what has happened.

The counters are `long` in the source; they do not overflow here.
-/

namespace SqlCodeGenerator

open Library

/-! ## What the worker does -/

/-- A request with what its operation has left. -/
structure Attempt where
  request : Request
  handled : Handled

/-- The admin has cancelled it. -/
def Attempt.cancelled (a : Attempt) : Bool :=
  a.handled.respOp = opError && a.handled.response = cancelText

/-- It has come to `OP_VALIDATE_INSERT`. -/
def Attempt.isInsert (a : Attempt) : Bool :=
  !a.cancelled && a.request.opId = opValidateInsert

/-- It is answered with an error. -/
def Attempt.failed (a : Attempt) : Bool := a.handled.respOp = opError

/-- An `OP_ERROR`. -/
def Message.isError (m : Message) : Bool := m.opId = opError

/-- What the worker does with a request. -/
inductive WorkerAct where
  | begins (r : Request) (now : Int)
  | performs (a : Attempt)
  | ends (a : Attempt) (elapsed : Int)

/-- What the worker does in a step. -/
def Server.acts (s : Server) : Event → List WorkerAct
  | .begin now =>
      match s.worker with
      | .popped r => [.begins r now]
      | _ => []
  | .handle env =>
      match s.worker with
      | .begun r =>
          ((handleRequest env r s.shared).map fun (_, h) => .performs ⟨r, h⟩).toList
      | _ => []
  | .finish _ elapsed =>
      match s.worker with
      | .handled r h => [.ends ⟨r, h⟩ elapsed]
      | _ => []
  | _ => []

def Service.acts (s : Service) : ServiceEvent → List WorkerAct
  | .server e => s.server.acts e
  | _ => []

/-- What the worker does in a run of the service. -/
def Service.actsOf (cfg : AdminConfig) (now : Int) (events : List ServiceEvent) : List WorkerAct :=
  collected (ServiceEvent.step cfg) Service.acts (Service.init cfg now) events

namespace WorkerAct

/-- The request that the worker is active on, and since when. -/
def active (log : List WorkerAct) : Option (Request × Int) :=
  log.foldl
    (fun current act =>
      match act with
      | begins r now => some (r, now)
      | performs _ => current
      | ends _ _ => none)
    none

/-- The operations that were performed. -/
def performed (log : List WorkerAct) : List Attempt :=
  log.filterMap fun
    | performs a => some a
    | _ => none

/-- The requests that came to their end, and how long each took. -/
def ended (log : List WorkerAct) : List (Attempt × Int) :=
  log.filterMap fun
    | ends a elapsed => some (a, elapsed)
    | _ => none

variable (log : List WorkerAct) (r : Request) (now : Int) (a : Attempt) (elapsed : Int)

@[simp] theorem active_begins : active (log ++ [begins r now]) = some (r, now) := by
  simp [active]

@[simp] theorem active_performs : active (log ++ [performs a]) = active log := by
  simp [active]

@[simp] theorem active_ends : active (log ++ [ends a elapsed]) = none := by
  simp [active]

@[simp] theorem performed_begins : performed (log ++ [begins r now]) = performed log := by
  simp [performed]

@[simp] theorem performed_performs :
    performed (log ++ [performs a]) = performed log ++ [a] := by
  simp [performed]

@[simp] theorem performed_ends : performed (log ++ [ends a elapsed]) = performed log := by
  simp [performed]

@[simp] theorem ended_begins : ended (log ++ [begins r now]) = ended log := by
  simp [ended]

@[simp] theorem ended_performs : ended (log ++ [performs a]) = ended log := by
  simp [ended]

@[simp] theorem ended_ends : ended (log ++ [ends a elapsed]) = ended log ++ [(a, elapsed)] := by
  simp [ended]

end WorkerAct

/-! ## The counters -/

/-- The words of `SharedState` that the reports on commands show. -/
structure Figures where
  totalCommands : Int
  insertCommands : Int
  failedCommands : Int
  cancelledCommands : Int
  totalExecMs : Int
  activeClientId : Int
  activeOpId : Int
  activeStartedAt : Int

def SharedState.figures (state : SharedState) : Figures :=
  ⟨state.totalCommands, state.insertCommands, state.failedCommands, state.cancelledCommands,
    state.totalExecMs, state.activeClientId, state.activeOpId, state.activeStartedAt⟩

/-- The operation that has been performed and not yet counted. -/
def Worker.inHand : Worker → List Attempt
  | .handled r h => [⟨r, h⟩]
  | _ => []

@[simp] theorem Worker.inHand_idle : Worker.idle.inHand = [] := rfl

@[simp] theorem Worker.inHand_begun (r : Request) : (Worker.begun r).inHand = [] := rfl

@[simp] theorem Worker.inHand_handled (r : Request) (h : Handled) :
    (Worker.handled r h).inHand = [⟨r, h⟩] := rfl

/-- The request that the worker is active on. -/
def Worker.activeOn : Worker → Option Request
  | .begun r => some r
  | .handled r _ => some r
  | _ => none

/-- What the counters say of what the worker has done. -/
structure Server.Counted (s : Server) (log : List WorkerAct) : Prop where
  total : s.shared.figures.totalCommands = (WorkerAct.ended log).length
  elapsed : s.shared.figures.totalExecMs = ((WorkerAct.ended log).map Prod.snd).sum
  failed : s.shared.figures.failedCommands =
    (WorkerAct.ended log).countP fun done => done.1.failed
  inserts : s.shared.figures.insertCommands = (WorkerAct.performed log).countP Attempt.isInsert
  cancelled : s.shared.figures.cancelledCommands =
    (WorkerAct.performed log).countP Attempt.cancelled
  balance : WorkerAct.performed log = (WorkerAct.ended log).map Prod.fst ++ s.worker.inHand
  errors : s.replies.countP Message.isError =
    (WorkerAct.ended log).countP fun done => done.1.failed
  reply : ∀ a ∈ s.worker.inHand, (a.handled.reply a.request).countP Message.isError =
    if a.failed then 1 else 0
  activeOn : s.worker.activeOn = (WorkerAct.active log).map Prod.fst
  activeClient : s.shared.figures.activeClientId =
    ((WorkerAct.active log).map fun act => toInt act.1.clientId).getD 0
  activeOp : s.shared.figures.activeOpId =
    ((WorkerAct.active log).map fun act => toInt act.1.opId).getD 0
  activeSince : s.shared.figures.activeStartedAt =
    ((WorkerAct.active log).map Prod.snd).getD 0

/-- A step that leaves the counters, the worker and the replies. -/
theorem Server.Counted.congr {s s' : Server} {log : List WorkerAct} (hs : s.Counted log)
    (hfigures : s'.shared.figures = s.shared.figures) (hworker : s'.worker = s.worker)
    (hreplies : s'.replies = s.replies) : s'.Counted log where
  total := by rw [hfigures, hs.total]
  elapsed := by rw [hfigures, hs.elapsed]
  failed := by rw [hfigures, hs.failed]
  inserts := by rw [hfigures, hs.inserts]
  cancelled := by rw [hfigures, hs.cancelled]
  balance := by rw [hworker, hs.balance]
  errors := by rw [hreplies, hs.errors]
  reply := by
    rw [hworker]
    exact hs.reply
  activeOn := by rw [hworker, hs.activeOn]
  activeClient := by rw [hfigures, hs.activeClient]
  activeOp := by rw [hfigures, hs.activeOp]
  activeSince := by rw [hfigures, hs.activeSince]

/-! ## Steps that count nothing -/

theorem figures_clientRemoveFd (fd : Int) (state : SharedState) :
    (clientRemoveFd fd state).figures = state.figures := by
  obtain ⟨_, _, hframe⟩ := clientRemoveFd_frame fd state
  rw [hframe]
  rfl

theorem figures_connectClient (now fd : Int) (addr : CString) (state : SharedState) :
    (connectClient now fd addr state).figures = state.figures := by
  obtain ⟨_, _, _, hframe⟩ := connectClient_frame now fd addr state
  rw [hframe]
  rfl

theorem figures_receiveRequest (now fd : Int) (clientId opId : UInt32) (payload : List UInt8)
    (state : SharedState) :
    (receiveRequest now fd clientId opId payload state).2.figures = state.figures := by
  unfold receiveRequest
  cases isProcessingOp opId with
  | true => rfl
  | false => rfl

theorem figures_handleMessage (s : Service) (now fd : Int) (opId : UInt32)
    (payload : List UInt8) :
    (s.handleMessage now fd opId payload).server.shared.figures = s.server.shared.figures := by
  have hspec := adminOperation_spec now fd opId (received payload)
    ⟨s.server.shared, s.blocked, s.adminFd, now⟩
  unfold Service.handleMessage handleAdminMessage
  generalize adminOperation now fd opId (received payload)
    ⟨s.server.shared, s.blocked, s.adminFd, now⟩ = result at hspec
  cases hspec <;> rfl

section AdminSteps

variable {s s' : Service}

theorem figures_removePollfd {i : Nat} (h : s.removePollfd i = .ok s') :
    s'.server.shared.figures = s.server.shared.figures := by
  unfold Service.removePollfd at h
  split at h
  · next entry fds _ _ =>
      obtain rfl := Outcome.ok.inj h
      exact figures_clientRemoveFd entry.fd s.server.shared
  · cases h

theorem figures_checkTimeout {cfg : AdminConfig} {now : Int} (h : s.checkTimeout cfg now = .ok s') :
    s'.server.shared.figures = s.server.shared.figures := by
  unfold Service.checkTimeout at h
  split at h
  · split at h
    · obtain rfl := Outcome.ok.inj h
      rfl
    · next i _ =>
        obtain ⟨middle, hremove, hdrop⟩ := Outcome.bind_eq_ok_iff.mp h
        obtain rfl := Outcome.ok.inj hdrop
        have hkept := figures_removePollfd hremove
        exact hkept
  · obtain rfl := Outcome.ok.inj h
    rfl

theorem figures_acceptAdmin {now fd : Int} (h : s.acceptAdmin now fd = .ok s') :
    s'.server.shared.figures = s.server.shared.figures := by
  unfold Service.acceptAdmin at h
  split at h
  · obtain rfl := Outcome.ok.inj h
    rfl
  split at h
  · obtain rfl := Outcome.ok.inj h
    rfl
  split at h
  · cases h
  · obtain rfl := Outcome.ok.inj h
    rfl

/-- The admin thread counts nothing. -/
theorem ServiceEvent.step_figures {cfg : AdminConfig} {e : ServiceEvent}
    (hadmin : ∀ e', e ≠ .server e') (h : e.step cfg s = some s') :
    s'.server.shared.figures = s.server.shared.figures := by
  cases step_spec h with
  | server e' after hordinary hstep => exact absurd rfl (hadmin e')
  | poll now ready middle hpoint hcheck =>
      have hkept := figures_checkTimeout hcheck
      exact hkept
  | next point => rfl
  | acceptFails now i entry hentry => rfl
  | accept now fd i entry middle hentry hfd haccept =>
      have hkept := figures_acceptAdmin haccept
      exact hkept
  | receiveFails i entry middle hentry hremove =>
      have hkept := figures_removePollfd hremove
      refine hkept.trans ?_
      split
      · rfl
      · rfl
  | bye now opId payload i entry middle hentry hgone hremove =>
      have hkept := figures_removePollfd hremove
      exact hkept.trans (figures_handleMessage s now entry.fd opId payload)
  | receive now opId payload i entry hentry hstays =>
      exact figures_handleMessage s now entry.fd opId payload

end AdminSteps

/-! ## Steps of the worker -/

theorem figures_updateJobOf (r : Request) (now : Int) (status : JobStatus) (result : CString)
    (state : SharedState) : (updateJobOf r now status result state).figures = state.figures := by
  obtain ⟨_, hframe⟩ := updateJobOf_frame r now status result state
  rw [hframe]
  rfl

/-- The worker is active on the request that it begins. -/
theorem figures_beginRequest (now : Int) (r : Request) (state : SharedState) :
    (beginRequest now r state).figures =
      { state.figures with
        activeClientId := toInt r.clientId
        activeOpId := toInt r.opId
        activeStartedAt := now } := by
  obtain ⟨_, htouch⟩ := clientTouch_frame now r.clientId state
  unfold beginRequest
  rw [htouch, figures_updateJobOf]
  rfl

/-- An operation is counted as an insertion if it comes to one. -/
theorem insertCommands_handleRequest {env : RequestEnv} {r : Request} {state state' : SharedState}
    {h : Handled} (hcancel : state.cancelClientId ≠ toInt r.clientId)
    (hhandle : handleRequest env r state = some (state', h)) :
    state'.insertCommands =
      state.insertCommands + if r.opId = opValidateInsert then 1 else 0 := by
  have hother : ∀ {opId : UInt32}, r.opId = opId → opId ≠ opValidateInsert →
      state.insertCommands =
        state.insertCommands + if r.opId = opValidateInsert then 1 else 0 := by
    intro opId hop hne
    rw [hop, if_neg hne, Int.add_zero]
  unfold handleRequest dispatchRequest at hhandle
  rw [if_neg hcancel] at hhandle
  -- the branches in the order of the dispatch
  split at hhandle
  · next hop =>
      obtain ⟨rfl, rfl⟩ := Prod.mk.inj (Option.some.inj hhandle)
      exact hother hop (by decide)
  split at hhandle
  · next hop =>
      obtain ⟨rfl, rfl⟩ := Prod.mk.inj (Option.some.inj hhandle)
      exact hother hop (by decide)
  split at hhandle
  · next hop =>
      obtain ⟨rfl, rfl⟩ := Prod.mk.inj (Option.some.inj hhandle)
      rw [← hother hop (by decide)]
      obtain ⟨tables, hload⟩ := loadErJson_frame env.cjsonParse state env.uploadFile
      split
      · next hresult =>
          rw [hresult] at hload
          obtain rfl := hload
          rfl
      · next hresult =>
          rw [hresult] at hload
          obtain rfl := hload
          rfl
  split at hhandle
  · next hop =>
      obtain ⟨rfl, rfl⟩ := Prod.mk.inj (Option.some.inj hhandle)
      exact hother hop (by decide)
  split at hhandle
  · next hop =>
      obtain ⟨rfl, rfl⟩ := Prod.mk.inj (Option.some.inj hhandle)
      rw [← hother hop (by decide)]
      split
      · rfl
      · rfl
  split at hhandle
  · next hop =>
      rw [if_pos hop]
      unfold handleValidateInsert at hhandle
      obtain ⟨verdict, hverdict, hresult⟩ := Option.map_eq_some_iff.mp hhandle
      cases verdict with
      | applied err after =>
          obtain ⟨rfl, rfl⟩ := Prod.mk.inj hresult
          obtain ⟨tables, rfl⟩ := insertVerdict_after hverdict
          rfl
      | _ =>
          obtain ⟨rfl, rfl⟩ := Prod.mk.inj hresult
          rfl
  · next hop =>
      obtain ⟨rfl, rfl⟩ := Prod.mk.inj (Option.some.inj hhandle)
      rw [if_neg hop, Int.add_zero]

/-- The text of a cancelled request fits the buffer. -/
theorem cancelled_text (r : Request) :
    (Attempt.mk r (.text opError cancelText)).cancelled = true := by
  have hcut : cut responseSize cancelText = cancelText := List.take_of_length_le (by decide)
  simp [Attempt.cancelled, Handled.text, hcut]

/-- An operation counts itself: cancelled, or an insertion. -/
theorem figures_handleRequest {env : RequestEnv} {r : Request} {state state' : SharedState}
    {h : Handled} (hhandle : handleRequest env r state = some (state', h)) :
    state'.figures =
      { state.figures with
        insertCommands := state.figures.insertCommands +
          if (Attempt.mk r h).isInsert then 1 else 0
        cancelledCommands := state.figures.cancelledCommands +
          if (Attempt.mk r h).cancelled then 1 else 0 } := by
  by_cases hcancel : state.cancelClientId = toInt r.clientId
  · obtain ⟨-, -, rfl⟩ := handleRequest_cancelled hcancel hhandle
    have hcancelled := cancelled_text r
    have hinsert : (Attempt.mk r (.text opError cancelText)).isInsert = false := by
      rw [Attempt.isInsert, hcancelled]
      rfl
    unfold handleRequest dispatchRequest at hhandle
    rw [if_pos hcancel] at hhandle
    obtain ⟨rfl, -⟩ := Prod.mk.inj (Option.some.inj hhandle)
    rw [hcancelled, hinsert]
    simp [SharedState.figures, historyAdd]
  · have hperformed := handleRequest_performed hcancel hhandle
    have hcancelled : (Attempt.mk r h).cancelled = false := by
      have hne := hperformed.response_ne
      simpa [Attempt.cancelled] using hne
    have hinsert : (Attempt.mk r h).isInsert = decide (r.opId = opValidateInsert) := by
      rw [Attempt.isInsert, hcancelled]
      rfl
    have hinserts := insertCommands_handleRequest hcancel hhandle
    have hcount := hperformed.cancelledCommands
    obtain ⟨_, _, _, _, _, _, rfl⟩ := handleRequest_effect hhandle
    rw [hcancelled, hinsert]
    simp only at hinserts hcount
    simp [SharedState.figures, hinserts, hcount]

/-- The end of a request is counted, and nobody is active behind it. -/
theorem figures_finishRequest (now elapsed : Int) (r : Request) (h : Handled)
    (state : SharedState) (hclient : state.activeClientId = toInt r.clientId)
    (hop : state.activeOpId = toInt r.opId) :
    (finishRequest now elapsed r h state).1.figures =
      { state.figures with
        totalCommands := state.figures.totalCommands + 1
        totalExecMs := state.figures.totalExecMs + elapsed
        failedCommands := state.figures.failedCommands + if (Attempt.mk r h).failed then 1 else 0
        activeClientId := 0
        activeOpId := 0
        activeStartedAt := 0 } := by
  obtain ⟨jobs, hjob⟩ := updateJobOf_frame r now h.status h.response (countRequest elapsed h state)
  have hactive : (countRequest elapsed h state).activeClientId = toInt r.clientId ∧
      (countRequest elapsed h state).activeOpId = toInt r.opId := ⟨hclient, hop⟩
  unfold finishRequest
  rw [hjob]
  simp only [clearActive, if_pos hactive]
  by_cases herror : h.respOp = opError
  · simp [SharedState.figures, countRequest, Attempt.failed, herror]
  · simp [SharedState.figures, countRequest, Attempt.failed, herror]

/-- No message of a download is an error. -/
theorem sendGeneratedSqlFile_errors (env : DownloadEnv) (r : Request) (tables : Tables) :
    (sendGeneratedSqlFile env r tables).1.countP Message.isError = 0 := by
  have hop : ∀ opId text, (respondText r.fd r.clientId opId text).isError =
      decide (opId = opError) := fun _ _ => rfl
  have hchunks : (sendRounds r env.rounds).1.countP Message.isError = 0 := by
    refine List.countP_eq_zero.mpr fun m hm => ?_
    obtain ⟨data, sent, -, rfl⟩ := mem_sendRounds hm
    simp [Message.isError, show opDownloadChunk ≠ opError by decide]
  have hspec := sendGeneratedSqlFile_spec env r tables
  generalize sendGeneratedSqlFile env r tables = sent at hspec
  cases hspec with
  | refused err => rfl
  | broken err =>
      simp only [List.countP_cons, hop, hchunks]
      decide
  | whole text =>
      simp only [List.countP_append, List.countP_cons, List.countP_nil, hop, hchunks]
      decide

/-- A reply by `respond_text` is an error if the request fails. -/
theorem errors_reply (r : Request) {h : Handled} (hsent : h.responseSent = false) :
    (h.reply r).countP Message.isError =
      if (Attempt.mk r h).failed then 1 else 0 := by
  have hreply : h.reply r = [respondText r.fd r.clientId h.respOp (wireText r h.response)] := by
    rw [Handled.reply, hsent]
    rfl
  rw [hreply, List.countP_singleton]
  rfl

/-- The messages of an operation are no errors; the reply is one if the request fails. -/
theorem errors_handleRequest {env : RequestEnv} {r : Request} {state state' : SharedState}
    {h : Handled} (hhandle : handleRequest env r state = some (state', h)) :
    h.messages.countP Message.isError = 0 ∧
      (h.reply r).countP Message.isError =
        if (Attempt.mk r h).failed then 1 else 0 := by
  by_cases hop : r.opId = opDownloadSql
  · by_cases hcancel : state.cancelClientId = toInt r.clientId
    · obtain ⟨-, -, rfl⟩ := handleRequest_cancelled hcancel hhandle
      exact ⟨rfl, errors_reply r rfl⟩
    · have hdownload : handleRequest env r state = some (handleDownloadSql env r state) := by
        unfold handleRequest dispatchRequest
        rw [if_neg hcancel, hop]
        rfl
      rw [hdownload] at hhandle
      obtain ⟨rfl, rfl⟩ := Prod.mk.inj (Option.some.inj hhandle)
      have herrors := sendGeneratedSqlFile_errors env.download r state.tables
      split
      · next messages err hsend =>
          rw [hsend] at herrors
          exact ⟨herrors, rfl⟩
      · next messages err hsend =>
          rw [hsend] at herrors
          exact ⟨herrors, errors_reply r rfl⟩
  · obtain ⟨hmessages, hsent⟩ := handleRequest_messages hop hhandle
    exact ⟨by rw [hmessages]; rfl, errors_reply r hsent⟩

/-! ## Runs -/

theorem Server.init_counted (now : Int) : (Server.init now).Counted [] where
  total := rfl
  elapsed := rfl
  failed := rfl
  inserts := rfl
  cancelled := rfl
  balance := rfl
  errors := rfl
  reply a h := by cases h
  activeOn := rfl
  activeClient := rfl
  activeOp := rfl
  activeSince := rfl

/-- Every step of the worker and of the ordinary interface keeps the counters true. -/
theorem Event.step_counted {s s' : Server} {log : List WorkerAct} {e : Event}
    (hs : s.Counted log) (h : e.step s = some s') : s'.Counted (log ++ s.acts e) := by
  have hsilent : s.acts e = [] → s'.shared.figures = s.shared.figures → s'.worker = s.worker →
      s'.replies = s.replies → s'.Counted (log ++ s.acts e) := by
    intro hacts hfigures hworker hreplies
    rw [hacts, List.append_nil]
    exact hs.congr hfigures hworker hreplies
  cases Event.step_spec h with
  | connect now fd addr => exact hsilent rfl (figures_connectClient now fd addr s.shared) rfl rfl
  | close fd => exact hsilent rfl (figures_clientRemoveFd fd s.shared) rfl rfl
  | receive now fd clientId opId payload hpending hregistered =>
      exact hsilent rfl (figures_receiveRequest now fd clientId opId payload s.shared) rfl rfl
  | push r hpending => exact hsilent rfl rfl rfl rfl
  | admin connected => exact hsilent rfl rfl rfl rfl
  | cancel clientId =>
      obtain ⟨_, _, _, hframe⟩ := adminCancel_frame clientId s.shared
      refine hsilent rfl ?_ rfl rfl
      rw [hframe]
      rfl
  | note line => exact hsilent rfl rfl rfl rfl
  | pop r rest hworker hqueue =>
      obtain ⟨htotal, helapsed, hfailed, hinserts, hcancelled, hbalance, herrors, hreply, hon,
        hclient, hop, hsince⟩ := hs
      have hacts : s.acts .pop = [] := rfl
      rw [hworker] at hbalance hreply hon
      rw [hacts, List.append_nil]
      exact ⟨htotal, helapsed, hfailed, hinserts, hcancelled, hbalance, herrors, hreply, hon,
        hclient, hop, hsince⟩
  | begin now r hworker =>
      obtain ⟨htotal, helapsed, hfailed, hinserts, hcancelled, hbalance, herrors, hreply, -, -, -,
        -⟩ := hs
      have hacts : s.acts (.begin now) = [.begins r now] := by rw [Server.acts, hworker]
      rw [hworker] at hbalance hreply
      rw [hacts]
      constructor <;> simp only [figures_beginRequest, WorkerAct.ended_begins,
        WorkerAct.performed_begins, WorkerAct.active_begins, Option.map_some, Option.getD_some]
      · exact htotal
      · exact helapsed
      · exact hfailed
      · exact hinserts
      · exact hcancelled
      · exact hbalance
      · exact herrors
      · exact hreply
      · rfl
  | handle env r state handled hworker hhandle =>
      obtain ⟨htotal, helapsed, hfailed, hinserts, hcancelled, hbalance, herrors, -, hon, hclient,
        hop, hsince⟩ := hs
      have hacts : s.acts (.handle env) = [.performs ⟨r, handled⟩] := by
        simp only [Server.acts, hworker, hhandle, Option.map_some, Option.toList_some]
      obtain ⟨hmessages, hreply⟩ := errors_handleRequest hhandle
      rw [hworker] at hbalance hon
      rw [hacts]
      constructor <;> simp only [figures_handleRequest hhandle, WorkerAct.ended_performs,
        WorkerAct.performed_performs, WorkerAct.active_performs, List.countP_append,
        List.countP_singleton]
      · exact htotal
      · exact helapsed
      · exact hfailed
      · rw [hinserts]
        push_cast
        rfl
      · rw [hcancelled]
        push_cast
        rfl
      · simpa using hbalance
      · rw [hmessages, herrors, Nat.add_zero]
      · intro a ha
        obtain rfl := List.mem_singleton.mp ha
        exact hreply
      · exact hon
      · exact hclient
      · exact hop
      · exact hsince
  | finish now elapsed r handled hworker =>
      obtain ⟨htotal, helapsed, hfailed, hinserts, hcancelled, hbalance, herrors, hreply, hon,
        hclient, hop, hsince⟩ := hs
      have hacts : s.acts (.finish now elapsed) = [.ends ⟨r, handled⟩ elapsed] := by
        rw [Server.acts, hworker]
      rw [hworker] at hbalance hreply hon
      -- the guard of the worker on the words that it clears holds
      obtain ⟨⟨r', began⟩, hactive, rfl⟩ := Option.map_eq_some_iff.mp hon.symm
      rw [hactive] at hclient hop
      have hfigures := figures_finishRequest now elapsed r' handled s.shared hclient hop
      rw [hacts]
      constructor <;> simp only [hfigures, WorkerAct.ended_ends, WorkerAct.performed_ends,
        WorkerAct.active_ends, List.length_append, List.length_singleton, List.map_append,
        List.map_cons, List.map_nil, List.sum_append, List.sum_singleton, List.countP_append,
        List.countP_singleton]
      · rw [htotal]
        push_cast
        rfl
      · rw [helapsed]
      · rw [hfailed]
        push_cast
        rfl
      · exact hinserts
      · exact hcancelled
      · simpa using hbalance
      · rw [herrors]
        exact congrArg _ (hreply _ List.mem_cons_self)
      · intro a ha
        cases ha
      · rfl
      · rfl
      · rfl
      · rfl

/-- The steps of the admin thread keep them too. -/
theorem ServiceEvent.step_counted {cfg : AdminConfig} {s s' : Service} {log : List WorkerAct}
    {e : ServiceEvent} (hs : s.server.Counted log) (h : e.step cfg s = some s') :
    s'.server.Counted (log ++ s.acts e) := by
  by_cases hserver : ∃ e', e = .server e'
  · obtain ⟨e', rfl⟩ := hserver
    obtain ⟨-, after, hstep, rfl⟩ := step_server h
    exact Event.step_counted hs hstep
  · have hadmin : ∀ e', e ≠ .server e' := fun e' he => hserver ⟨e', he⟩
    have hacts : s.acts e = [] := by
      cases e with
      | server e' => exact absurd rfl (hadmin e')
      | _ => rfl
    have hafter := (step_afterAdmin hadmin h).server
    rw [hacts, List.append_nil]
    exact hs.congr (step_figures hadmin h) (by rw [hafter]) (by rw [hafter])

theorem service_counted {cfg : AdminConfig} {now : Int} {events : List ServiceEvent} {s : Service}
    (h : runFrom (ServiceEvent.step cfg) (Service.init cfg now) events = some s) :
    s.server.Named ∧ s.server.Counted (Service.actsOf cfg now events) := by
  have hstep : ∀ (s : Service) (log : List WorkerAct) (e : ServiceEvent) (s' : Service),
      s.server.Named ∧ s.server.Counted log → e.step cfg s = some s' →
        s'.server.Named ∧ s'.server.Counted (log ++ s.acts e) :=
    fun _ _ _ _ hs h => ⟨ServiceEvent.step_named hs.1 h, ServiceEvent.step_counted hs.2 h⟩
  have hinit : (Service.init cfg now).server.Named ∧ (Service.init cfg now).server.Counted [] :=
    ⟨Server.init_named now, Server.init_counted now⟩
  exact collected_invariant hstep hinit h

/-! ## Reports -/

namespace WorkerAct

/-- The average time of the requests, rounded towards 0; 0 before the first. -/
def average (log : List WorkerAct) : Int :=
  ((ended log).map Prod.snd).sum.tdiv (ended log).length

/-- The report on commands that a log calls for. -/
def commandLines (now : Int) (log : List WorkerAct) : List CString :=
  [lit "Total commands: " ++ decimal (ended log).length ++
      lit "\nInsert commands: " ++ decimal ((performed log).countP Attempt.isInsert) ++
      lit "\nFailed commands: " ++ decimal ((ended log).countP fun done => done.1.failed) ++
      lit "\nCancelled commands: " ++ decimal ((performed log).countP Attempt.cancelled) ++
      lit "\n",
    match active log with
    | some (r, began) =>
        lit "Active command: client=" ++ decimalInt (toInt r.clientId) ++ lit " op=" ++
          decimalInt (toInt r.opId) ++ lit " running=" ++ decimalInt (now - began) ++ lit "s\n"
    | none => lit "Active command: none\n"]

/-- The report on the average time that a log calls for. -/
def averageLines (log : List WorkerAct) : List CString :=
  [lit "Average execution time: " ++ decimalInt (average log) ++ lit " ms\n"]

/-- An average lies between the bounds of what it is taken of. -/
theorem average_bounds {log : List WorkerAct} (hsome : ended log ≠ []) {low high : Int}
    (hbounds : ∀ done ∈ ended log, low ≤ done.2 ∧ done.2 ≤ high) :
    low ≤ average log ∧ average log ≤ high := by
  have hpos : 0 < ((ended log).length : Int) := by
    exact_mod_cast List.length_pos_iff.mpr hsome
  have hlow := List.card_nsmul_le_sum ((ended log).map Prod.snd) low fun elapsed helapsed => by
    obtain ⟨done, hdone, rfl⟩ := List.mem_map.mp helapsed
    exact (hbounds done hdone).1
  have hhigh := List.sum_le_card_nsmul ((ended log).map Prod.snd) high fun elapsed helapsed => by
    obtain ⟨done, hdone, rfl⟩ := List.mem_map.mp helapsed
    exact (hbounds done hdone).2
  rw [List.length_map, nsmul_eq_mul, mul_comm] at hlow hhigh
  unfold average
  generalize ((ended log).map Prod.snd).sum = sum at hlow hhigh ⊢
  rcases Int.le_total 0 sum with hsum | hsum
  · rw [Int.tdiv_eq_ediv_of_nonneg hsum]
    exact ⟨Int.le_ediv_of_mul_le hpos hlow, Int.ediv_le_of_le_mul hpos hhigh⟩
  · -- towards 0 is up below it
    obtain ⟨m, rfl⟩ : ∃ m, sum = -m := ⟨-sum, (neg_neg sum).symm⟩
    have hm : 0 ≤ m := by omega
    rw [Int.neg_tdiv, Int.tdiv_eq_ediv_of_nonneg hm]
    have hup : m / (ended log).length ≤ -low :=
      Int.ediv_le_of_le_mul hpos (by rw [Int.neg_mul]; omega)
    have hdown : -high ≤ m / (ended log).length :=
      Int.le_ediv_of_mul_le hpos (by rw [Int.neg_mul]; omega)
    omega

end WorkerAct

theorem decimalInt_natCast (n : Nat) : decimalInt (n : Int) = decimal n := rfl

section Reports

variable {s : Server} {log : List WorkerAct}

/-- The request that the worker is active on is unfinished, so its client has a number. -/
theorem Server.Counted.active_pos (hnamed : s.Named) (hs : s.Counted log) {r : Request}
    {began : Int} (hactive : WorkerAct.active log = some (r, began)) : 0 < toInt r.clientId := by
  have hon := hs.activeOn
  rw [hactive, Option.map_some] at hon
  refine hnamed.requests r (List.mem_append_left _ ?_)
  unfold Worker.activeOn at hon
  split at hon
  · next hworker =>
      obtain rfl := Option.some.inj hon
      rw [hworker]
      exact List.mem_cons_self
  · next hworker =>
      obtain rfl := Option.some.inj hon
      rw [hworker]
      exact List.mem_cons_self
  · cases hon

/-- The report on commands is the one that the log calls for. -/
theorem commands_of_counted (hnamed : s.Named) (hs : s.Counted log) (now : Int) :
    AdminReport.commands now s.shared = WorkerAct.commandLines now log := by
  have htotal : s.shared.totalCommands = (WorkerAct.ended log).length := hs.total
  have hinserts : s.shared.insertCommands = (WorkerAct.performed log).countP Attempt.isInsert :=
    hs.inserts
  have hfailed : s.shared.failedCommands =
      (WorkerAct.ended log).countP fun done => done.1.failed := hs.failed
  have hcancelled : s.shared.cancelledCommands =
      (WorkerAct.performed log).countP Attempt.cancelled := hs.cancelled
  have hclient : s.shared.activeClientId =
      ((WorkerAct.active log).map fun act => toInt act.1.clientId).getD 0 := hs.activeClient
  have hop : s.shared.activeOpId =
      ((WorkerAct.active log).map fun act => toInt act.1.opId).getD 0 := hs.activeOp
  have hsince : s.shared.activeStartedAt = ((WorkerAct.active log).map Prod.snd).getD 0 :=
    hs.activeSince
  unfold AdminReport.commands WorkerAct.commandLines
  rw [htotal, hinserts, hfailed, hcancelled, hclient, hop, hsince]
  simp only [decimalInt_natCast]
  cases hactive : WorkerAct.active log with
  | none => rfl
  | some act =>
      obtain ⟨r, began⟩ := act
      have hpos := hs.active_pos hnamed hactive
      simp only [Option.map_some, Option.getD_some]
      rw [if_pos hpos]

/-- The report on the average time is the one that the log calls for. -/
theorem avg_of_counted (hs : s.Counted log) :
    AdminReport.avg s.shared = WorkerAct.averageLines log := by
  have htotal : s.shared.totalCommands = (WorkerAct.ended log).length := hs.total
  have helapsed : s.shared.totalExecMs = ((WorkerAct.ended log).map Prod.snd).sum := hs.elapsed
  have haverage : averageTime s.shared = WorkerAct.average log := by
    unfold averageTime WorkerAct.average
    rw [htotal, helapsed]
    split
    · rfl
    · next hnone =>
        rw [not_not.mp hnone, Int.tdiv_zero]
  rw [AdminReport.avg, haverage, WorkerAct.averageLines]

end Reports

/-- In every run, what `OP_ADMIN_REPORT` answers on commands and on their average time is
computed from what the worker has done: the operations performed are those of the requests that
have ended, in order, and the one in hand; the errors sent are the requests that failed; and
the average lies between the shortest and the longest time.  The report sees the counters
before or behind the end of a request, which is one step. -/
theorem reports_count_run {cfg : AdminConfig} {now : Int} {events : List ServiceEvent}
    {s : Service}
    (h : runFrom (ServiceEvent.step cfg) (Service.init cfg now) events = some s) :
    let log := Service.actsOf cfg now events
    (∀ at' fd payload, cstr payload = lit "commands" →
      (s.handleMessage at' fd opAdminReport payload).sent =
        s.sent ++ [respondText fd 0 opOk
          ((WorkerAct.commandLines at' log).flatten.take (reportSize - 1))]) ∧
      (∀ at' fd payload, cstr payload = lit "avg" →
        (s.handleMessage at' fd opAdminReport payload).sent =
          s.sent ++ [respondText fd 0 opOk
            ((WorkerAct.averageLines log).flatten.take (reportSize - 1))]) ∧
      WorkerAct.performed log =
        (WorkerAct.ended log).map Prod.fst ++ s.server.worker.inHand ∧
      s.server.replies.countP Message.isError =
        (WorkerAct.ended log).countP (fun done => done.1.failed) ∧
      (WorkerAct.ended log ≠ [] → ∀ low high,
        (∀ done ∈ WorkerAct.ended log, low ≤ done.2 ∧ done.2 ≤ high) →
          low ≤ WorkerAct.average log ∧ WorkerAct.average log ≤ high) := by
  obtain ⟨hnamed, hcounted⟩ := service_counted h
  have hreport : ∀ at' fd payload, (s.handleMessage at' fd opAdminReport payload).sent =
      s.sent ++ [respondText fd 0 opOk
        (adminReport at' s.server.shared (cstr payload) reportSize)] := by
    intro at' fd payload
    have hpayload : (received payload).getD [] = payload := by
      cases payload <;> rfl
    have hsent : (s.handleMessage at' fd opAdminReport payload).sent =
        s.sent ++ [respondText fd 0 opOk
          (adminReport at' s.server.shared (cstr ((received payload).getD [])) reportSize)] := rfl
    rw [hsent, hpayload]
  refine ⟨fun at' fd payload hcategory => ?_, fun at' fd payload hcategory => ?_,
    hcounted.balance, hcounted.errors, fun hsome low high => WorkerAct.average_bounds hsome⟩
  · have hlines : adminReport at' s.server.shared (lit "commands") reportSize =
        appendLines reportSize (AdminReport.commands at' s.server.shared) := rfl
    rw [hreport, hcategory, hlines, appendLines_eq, commands_of_counted hnamed hcounted]
  · have hlines : adminReport at' s.server.shared (lit "avg") reportSize =
        appendLines reportSize (AdminReport.avg s.server.shared) := rfl
    rw [hreport, hcategory, hlines, appendLines_eq, avg_of_counted hcounted]

/-- A client connects, and its request is refused: the operation is unknown. -/
def refusedRequest : List ServiceEvent :=
  [.server (.interface (.connect 10 5 (lit "127.0.0.1"))),
    .server (.interface (.receive 11 5 1 99 [])), .server (.interface .push), .server .pop,
    .server (.begin 12), .server (.handle failingEnv), .server (.finish 13 7)]

theorem reports_count_refused :
    ∃ s, runFrom (ServiceEvent.step ⟨3, 60⟩) (Service.init ⟨3, 60⟩ 0) refusedRequest = some s ∧
      s.server.replies.countP Message.isError = 1 ∧
      (s.handleMessage 20 7 opAdminReport ((lit "avg").map Subtype.val)).sent =
        [respondText 7 0 opOk (lit "Average execution time: 7 ms\n")] := by
  have hrun : (runFrom (ServiceEvent.step ⟨3, 60⟩) (Service.init ⟨3, 60⟩ 0) refusedRequest).map
      (fun s => (s.server.replies.countP Message.isError, s.sent)) = some (1, []) := by
    decide +kernel
  obtain ⟨s, hs, hview⟩ := Option.map_eq_some_iff.mp hrun
  obtain ⟨herrors, hsent⟩ := Prod.mk.inj hview
  refine ⟨s, hs, herrors, ?_⟩
  rw [(reports_count_run hs).2.1 20 7 _ (by decide), hsent]
  have hlines : (WorkerAct.averageLines (Service.actsOf ⟨3, 60⟩ 0 refusedRequest)).flatten.take
      (reportSize - 1) = lit "Average execution time: 7 ms\n" := by
    decide +kernel
  rw [hlines]
  rfl

end SqlCodeGenerator
