import SqlCodeGenerator.AdminInterface
import SqlCodeGenerator.ArrivalOrder
import SqlCodeGenerator.InsertRequests
import SqlCodeGenerator.Library.Pending
import SqlCodeGenerator.Registrations

/-!
# Cancellations

The admin cancels the current or next command of a client: an accepted
`OP_ADMIN_CANCEL` writes the client into `cancel_client_id`, which the worker compares
with the client of the request that it starts to process.  The client is owed the
cancellation until then.  The worker clears the cell in a step of its own behind the
comparison, and the admin thread may write between the two.

* `SplitEvent.step`: the service with the comparison and what follows it as two steps.
  `runFrom_splits`: the runs in which nothing comes between them are among its runs.
* `CancelLaw`: a request is cancelled if its client is owed a cancellation, and no
  other request is.
* `split_cancellations`: the cell holds what was accepted last, if it has not been
  cleared since.
* `cancellations_kept_iff`: the law holds along a run exactly if, as a request of a
  client that is owed a cancellation is compared, no other was accepted since its own,
  and none was cleared.
-/

namespace SqlCodeGenerator

open Library

/-! ## What the admin thread changes -/

/-- The words that the cancellation of a request rests on, `cancel_client_id` and
`cancelled_commands`, and the clients that are registered, of whom some may go. -/
structure AdminEffect (state state' : SharedState) : Prop where
  cancelClientId : state'.cancelClientId = state.cancelClientId
  cancelledCommands : state'.cancelledCommands = state.cancelledCommands
  next : state'.nextClientId = state.nextClientId
  slots : ∀ slot, 0 < slotFd state' slot →
    slotFd state' slot = slotFd state slot ∧ slotClient state' slot = slotClient state slot

namespace AdminEffect

theorem of_eq {state state' : SharedState} (hcancel : state'.cancelClientId = state.cancelClientId)
    (hcount : state'.cancelledCommands = state.cancelledCommands)
    (hnext : state'.nextClientId = state.nextClientId) (hclients : state'.clients = state.clients) :
    AdminEffect state state' where
  cancelClientId := hcancel
  cancelledCommands := hcount
  next := hnext
  slots slot _ := by
    unfold slotFd slotClient
    rw [hclients]
    exact ⟨rfl, rfl⟩

theorem trans {first middle last : SharedState} (h : AdminEffect first middle)
    (h' : AdminEffect middle last) : AdminEffect first last where
  cancelClientId := h'.cancelClientId.trans h.cancelClientId
  cancelledCommands := h'.cancelledCommands.trans h.cancelledCommands
  next := h'.next.trans h.next
  slots slot hslot := by
    obtain ⟨hfd, hclient⟩ := h'.slots slot hslot
    rw [hfd] at hslot ⊢
    obtain ⟨hfd', hclient'⟩ := h.slots slot hslot
    exact ⟨hfd', hclient.trans hclient'⟩

theorem clientRemoveFd (fd : Int) (state : SharedState) :
    AdminEffect state (clientRemoveFd fd state) := by
  have hslots : ∀ slot, 0 < slotFd (SqlCodeGenerator.clientRemoveFd fd state) slot →
      slotFd (SqlCodeGenerator.clientRemoveFd fd state) slot = slotFd state slot ∧
        slotClient (SqlCodeGenerator.clientRemoveFd fd state) slot = slotClient state slot := by
    intro slot hslot
    rcases clientRemoveFd_slots fd state with ⟨hsame, -⟩ | ⟨used, -, hslots⟩
    · rw [hsame]
      exact ⟨rfl, rfl⟩
    · obtain ⟨hfd, hclient⟩ := hslots slot
      refine ⟨?_, hclient⟩
      rw [hfd] at hslot ⊢
      split at hslot
      · cases hslot
      · next hother => exact if_neg hother
  obtain ⟨_, _, hframe⟩ := clientRemoveFd_frame fd state
  refine ⟨?_, ?_, clientRemoveFd_nextClientId fd state, hslots⟩
  · rw [hframe]
  · rw [hframe]

end AdminEffect

/-- The service after the admin thread has worked on a shared state. -/
structure Service.AfterAdmin (s : Service) (shared : SharedState) (s' : Service) : Prop where
  server : s'.server = { s.server with shared := s'.server.shared }
  effect : AdminEffect shared s'.server.shared

namespace Service

variable {s s' s'' : Service} {shared : SharedState}

theorem AfterAdmin.refl : s.AfterAdmin s.server.shared s := ⟨rfl, .of_eq rfl rfl rfl rfl⟩

theorem AfterAdmin.trans (h : s.AfterAdmin shared s') (h' : s'.AfterAdmin s'.server.shared s'') :
    s.AfterAdmin shared s'' where
  server := by
    rw [h'.server, h.server]
  effect := h.effect.trans h'.effect

/-- What the admin thread does to its own variables. -/
theorem AfterAdmin.congr (h : s.AfterAdmin shared s') (hserver : s''.server = s'.server) :
    s.AfterAdmin shared s'' :=
  ⟨by rw [hserver]; exact h.server, by rw [hserver]; exact h.effect⟩

theorem afterAdmin_dropAdmin (s : Service) : s.AfterAdmin s.server.shared s.dropAdmin :=
  ⟨rfl, .of_eq rfl rfl rfl rfl⟩

theorem afterAdmin_removePollfd {i : Nat} (h : s.removePollfd i = .ok s') :
    s.AfterAdmin s.server.shared s' := by
  unfold removePollfd at h
  split at h
  · next entry fds _ _ =>
      obtain rfl := Outcome.ok.inj h
      exact ⟨rfl, .clientRemoveFd entry.fd s.server.shared⟩
  · cases h

theorem afterAdmin_checkTimeout {cfg : AdminConfig} {now : Int}
    (h : s.checkTimeout cfg now = .ok s') : s.AfterAdmin s.server.shared s' := by
  unfold checkTimeout at h
  split at h
  · split at h
    · obtain rfl := Outcome.ok.inj h
      exact afterAdmin_dropAdmin s
    · next i _ =>
        obtain ⟨middle, hremove, hdrop⟩ := Outcome.bind_eq_ok_iff.mp h
        obtain rfl := Outcome.ok.inj hdrop
        exact (afterAdmin_removePollfd hremove).trans (afterAdmin_dropAdmin middle)
  · obtain rfl := Outcome.ok.inj h
    exact .refl

theorem afterAdmin_acceptAdmin {now fd : Int} (h : s.acceptAdmin now fd = .ok s') :
    s.AfterAdmin s.server.shared s' := by
  unfold acceptAdmin at h
  split at h
  · obtain rfl := Outcome.ok.inj h
    exact AfterAdmin.refl.congr rfl
  split at h
  · obtain rfl := Outcome.ok.inj h
    exact .refl
  split at h
  · cases h
  · obtain rfl := Outcome.ok.inj h
    exact ⟨rfl, .of_eq rfl rfl rfl rfl⟩

end Service

/-- The client of a cancellation that a message asks for, if it is accepted. -/
def SharedState.cancels (state : SharedState) (opId : UInt32) (payload : List UInt8) : Option Int :=
  if opId = opAdminCancel then cancelAccepted state (received payload) else none

/-- A cancellation that is accepted. -/
def SharedState.cancelled (state : SharedState) : Option Int → SharedState
  | none => state
  | some clientId => { state with cancelClientId := clientId }

theorem SharedState.cancelled_frame (state : SharedState) (clientId : Option Int) :
    ∃ cancelClientId,
      state.cancelled clientId = { state with cancelClientId := cancelClientId } := by
  cases clientId with
  | none => exact ⟨state.cancelClientId, rfl⟩
  | some clientId => exact ⟨clientId, rfl⟩

/-- A message that is no cancellation leaves all this alone; an accepted cancellation is
answered so. -/
theorem Service.handleMessage_cancels (s : Service) (now fd : Int) (opId : UInt32)
    (payload : List UInt8) :
    s.AfterAdmin (s.server.shared.cancelled (s.server.shared.cancels opId payload))
        (s.handleMessage now fd opId payload) ∧
      ∀ clientId, s.server.shared.cancels opId payload = some clientId →
        (s.handleMessage now fd opId payload).sent =
          s.sent ++ [respondText fd 0 opOk (lit "cancel requested")] := by
  have hspec := adminOperation_spec now fd opId (received payload)
    ⟨s.server.shared, s.blocked, s.adminFd, now⟩
  have hnone : opId ≠ opAdminCancel → s.server.shared.cancels opId payload = none :=
    fun h => if_neg h
  unfold handleMessage handleAdminMessage
  generalize adminOperation now fd opId (received payload)
    ⟨s.server.shared, s.blocked, s.adminFd, now⟩ = result at hspec
  cases hspec with
  | cancel clientId hop haccepted =>
      have hsome : s.server.shared.cancels opId payload = some clientId :=
        (if_pos hop).trans haccepted
      rw [hsome]
      exact ⟨⟨rfl, .of_eq rfl rfl rfl rfl⟩, fun _ _ => rfl⟩
  | refuse text hop hunprivileged hlogin =>
      have hsome : s.server.shared.cancels opId payload = none := by
        unfold SharedState.cancels
        split
        · next hcancel => exact cancelAccepted_eq_none_iff.mpr (hunprivileged.2.2.1 hcancel)
        · rfl
      rw [hsome]
      exact ⟨⟨rfl, .of_eq rfl rfl rfl rfl⟩, fun _ h => by cases h⟩
  | bye hop =>
      rw [hnone (by rw [hop]; decide)]
      exact ⟨⟨rfl, .of_eq rfl rfl rfl rfl⟩, fun _ h => by cases h⟩
  | login hop htoken =>
      rw [hnone (by rw [hop]; decide)]
      exact ⟨⟨rfl, .of_eq rfl rfl rfl rfl⟩, fun _ h => by cases h⟩
  | report hop =>
      rw [hnone (by rw [hop]; decide)]
      exact ⟨⟨rfl, .of_eq rfl rfl rfl rfl⟩, fun _ h => by cases h⟩
  | disconnect clientId hop hparse hconnected =>
      rw [hnone (by rw [hop]; decide)]
      exact ⟨⟨rfl, .of_eq rfl rfl rfl rfl⟩, fun _ h => by cases h⟩
  | block blocked text hop hblock =>
      rw [hnone (by rw [hop]; decide)]
      exact ⟨⟨rfl, .of_eq rfl rfl rfl rfl⟩, fun _ h => by cases h⟩

/-- The client of a cancellation that a step accepts. -/
def ServiceEvent.cancels (s : Service) : ServiceEvent → Option Int
  | .receive _ opId payload => s.server.shared.cancels opId payload
  | _ => none

/-- What a step of the admin thread changes. -/
theorem ServiceEvent.step_afterAdmin {cfg : AdminConfig} {s s' : Service} {e : ServiceEvent}
    (hadmin : ∀ e', e ≠ .server e') (h : e.step cfg s = some s') :
    s.AfterAdmin (s.server.shared.cancelled (e.cancels s)) s' := by
  cases step_spec h with
  | server e' after hordinary hstep => exact absurd rfl (hadmin e')
  | poll now ready middle hpoint hcheck =>
      have hpolled : s.AfterAdmin s.server.shared { s with fds := s.fds.polled s.nfds ready } :=
        Service.AfterAdmin.refl.congr rfl
      exact (hpolled.trans (Service.afterAdmin_checkTimeout hcheck)).congr rfl
  | next point => exact Service.AfterAdmin.refl.congr rfl
  | acceptFails now i entry hentry => exact Service.AfterAdmin.refl.congr rfl
  | accept now fd i entry middle hentry hfd haccept =>
      exact (Service.afterAdmin_acceptAdmin haccept).congr rfl
  | receiveFails i entry middle hentry hremove =>
      have hdrop : s.AfterAdmin s.server.shared
          (if entry.fd = s.adminFd then s.dropAdmin else s) := by
        split
        · exact Service.afterAdmin_dropAdmin s
        · exact .refl
      exact (hdrop.trans (Service.afterAdmin_removePollfd hremove)).congr rfl
  | bye now opId payload i entry middle hentry hgone hremove =>
      have hmessage := (s.handleMessage_cancels now entry.fd opId payload).1
      exact (hmessage.trans (Service.afterAdmin_removePollfd hremove)).congr rfl
  | receive now opId payload i entry hentry hstays =>
      exact (s.handleMessage_cancels now entry.fd opId payload).1.congr rfl

/-! ## Identifiers of clients -/

/-- No identifier of a client is 0, which stands for no cancellation. -/
structure Server.Named (s : Server) : Prop where
  next : 0 < s.shared.nextClientId ∧ s.shared.nextClientId ≤ intMax
  registered : ∀ slot, 0 < slotFd s.shared slot → 0 < slotClient s.shared slot
  requests : ∀ r ∈ s.unfinished, 0 < toInt r.clientId

theorem Server.init_named (now : Int) : (Server.init now).Named where
  next := ⟨Nat.one_pos, show 1 ≤ intMax by decide⟩
  registered slot h := by
    have hzero : slotFd (Server.init now).shared slot = 0 := slotFd_stateInit now slot
    rw [hzero] at h
    exact absurd h (lt_irrefl 0)
  requests r h := by cases h

theorem clientFind_pos {s : Server} (hs : s.Named) {clientId : UInt32}
    (hregistered : isRegisteredClient s.shared clientId = true) : 0 < toInt clientId := by
  obtain ⟨slot, hslot⟩ := Option.isSome_iff_exists.mp hregistered
  obtain ⟨hclient, hfd⟩ := clientFind_eq_some hslot
  rw [← hclient]
  exact hs.registered slot hfd

/-- The same identifiers, of clients of whom some may have gone. -/
theorem Server.Named.of_slots {s s' : Server} (hs : s.Named)
    (hnext : s'.shared.nextClientId = s.shared.nextClientId)
    (hslots : ∀ slot, 0 < slotFd s'.shared slot →
      slotFd s'.shared slot = slotFd s.shared slot ∧
        slotClient s'.shared slot = slotClient s.shared slot)
    (hrequests : ∀ r ∈ s'.unfinished, 0 < toInt r.clientId) : s'.Named where
  next := hnext ▸ hs.next
  registered slot hslot := by
    obtain ⟨hfd, hclient⟩ := hslots slot hslot
    rw [hclient]
    exact hs.registered slot (hfd ▸ hslot)
  requests := hrequests

theorem Event.step_named {s s' : Server} {e : Event} (hs : s.Named)
    (hordinary : e.ordinary s = true) (h : e.step s = some s') : s'.Named := by
  have hrequests : ∀ r ∈ s'.unfinished, 0 < toInt r.clientId := by
    refine Event.step_forall_unfinished h (fun now fd clientId opId payload hregistered => ?_)
      hs.requests
    rw [receiveRequest_request]
    exact clientFind_pos hs hregistered
  have hsame : SameClients s.shared s'.shared → s'.Named := fun hclients =>
    hs.of_slots hclients.next (fun slot _ => ⟨hclients.fd slot, hclients.clientId slot⟩) hrequests
  cases Event.step_spec h with
  | connect now fd addr =>
      have hmax : s.shared.nextClientId < intMax := of_decide_eq_true hordinary
      have hnext : (connectClient now fd addr s.shared).nextClientId =
          s.shared.nextClientId + 1 := by
        obtain ⟨_, _, _, hframe⟩ := connectClient_frame now fd addr s.shared
        rw [hframe]
      refine ⟨⟨?_, ?_⟩, fun slot hslot => ?_, hrequests⟩
      · exact hnext ▸ Nat.succ_pos _
      · exact hnext ▸ hmax
      · rcases connectClient_slots now fd addr s.shared with hsame | ⟨free, -, hslots⟩
        · obtain ⟨-, hfd, hclient⟩ := hsame slot
          exact hclient ▸ hs.registered slot (hfd ▸ hslot)
        · obtain ⟨hfd, hclient⟩ := hslots slot
          dsimp only at hslot ⊢
          rw [hfd] at hslot
          rw [hclient]
          split
          · -- the client that connects has the next identifier
            rw [toInt_ofNat (Nat.lt_trans hmax (by decide))]
            exact Int.natCast_pos.mpr hs.next.1
          · next hother =>
              rw [if_neg hother] at hslot
              exact hs.registered slot hslot
  | close fd =>
      have heffect := AdminEffect.clientRemoveFd fd s.shared
      exact hs.of_slots heffect.next heffect.slots hrequests
  | receive now fd clientId opId payload =>
      exact hsame (sameClients_receiveRequest now fd clientId opId payload _)
  | cancel clientId => cases hordinary
  | begin now r => exact hsame (sameClients_beginRequest now r _)
  | handle env r state handled hworker hhandle => exact hsame (sameClients_handleRequest hhandle)
  | finish now elapsed r handled => exact hsame (sameClients_finishRequest now elapsed r handled _)
  | _ => exact hsame (.of_eq rfl rfl)

/-! ## Requests that are cancelled and requests that are not -/

theorem opOk_ne_opError : opOk ≠ opError := by decide

/-- An operation that has been performed: no cancellation is used up or counted, and
the text of an error is another one. -/
structure Performed (state state' : SharedState) (h : Handled) : Prop where
  cancelClientId : state'.cancelClientId = state.cancelClientId
  cancelledCommands : state'.cancelledCommands = state.cancelledCommands
  answer : h.respOp = opError → h.response.take 2 ≠ lit "co"

theorem Performed.response_ne {state state' : SharedState} {h : Handled}
    (hperformed : Performed state state' h) : ¬ (h.respOp = opError ∧ h.response = cancelText) := by
  rintro ⟨hop, hresponse⟩
  exact hperformed.answer hop (by rw [hresponse]; decide)

theorem performed_uploadBegin (env : RequestEnv) (state : SharedState) :
    Performed state (handleUploadBegin env state).1 (handleUploadBegin env state).2 := by
  refine ⟨rfl, rfl, ?_⟩
  unfold handleUploadBegin
  cases env.createUpload with
  | error reason =>
      intro _ htext
      have hstart : lit "ca" = lit "co" := htext
      exact absurd hstart (by decide)
  | ok _ => exact fun h => absurd h opOk_ne_opError

theorem performed_uploadChunk (env : RequestEnv) (r : Request) (state : SharedState) :
    Performed state (handleUploadChunk env r state).1 (handleUploadChunk env r state).2 := by
  refine ⟨rfl, rfl, ?_⟩
  have hcannot : lit "ca" ≠ lit "co" := by decide
  unfold handleUploadChunk
  cases env.openUpload with
  | error reason => exact fun _ htext => hcannot htext
  | ok _ =>
      dsimp only
      cases (if r.payloadSize > 0 then env.writeUpload else .ok ()) with
      | error reason => exact fun _ htext => hcannot htext
      | ok _ => exact fun h => absurd h opOk_ne_opError

theorem performed_uploadEnd (env : RequestEnv) (state : SharedState) :
    Performed state (handleUploadEnd env state).1 (handleUploadEnd env state).2 := by
  have herror : lit "ER" ≠ lit "co" := by decide
  obtain ⟨tables, hload⟩ := loadErJson_frame env.cjsonParse state env.uploadFile
  unfold handleUploadEnd
  split
  · next hresult =>
      rw [hresult] at hload
      obtain rfl := hload
      exact ⟨rfl, rfl, fun h => absurd h opOk_ne_opError⟩
  · next hresult =>
      rw [hresult] at hload
      obtain rfl := hload
      exact ⟨rfl, rfl, fun _ htext => herror htext⟩

theorem performed_downloadSql (env : RequestEnv) (r : Request) (state : SharedState) :
    Performed state (handleDownloadSql env r state).1 (handleDownloadSql env r state).2 := by
  have herror : lit "ER" ≠ lit "co" := by decide
  unfold handleDownloadSql
  split
  · exact ⟨rfl, rfl, fun h => absurd h opOk_ne_opError⟩
  · exact ⟨rfl, rfl, fun _ htext => herror htext⟩

theorem performed_validateInsert {env : RequestEnv} {r : Request} {state state' : SharedState}
    {h : Handled} (hhandle : handleValidateInsert env r state = some (state', h)) :
    Performed state state' h := by
  have hempty : lit "em" ≠ lit "co" := by decide
  have herror : lit "ER" ≠ lit "co" := by decide
  unfold handleValidateInsert at hhandle
  obtain ⟨verdict, hverdict, hresult⟩ := Option.map_eq_some_iff.mp hhandle
  cases verdict with
  | empty =>
      obtain ⟨rfl, rfl⟩ := Prod.mk.inj hresult
      exact ⟨rfl, rfl, fun _ htext => hempty htext⟩
  | rejected err =>
      obtain ⟨rfl, rfl⟩ := Prod.mk.inj hresult
      exact ⟨rfl, rfl, fun _ htext => herror htext⟩
  | applyFailed err =>
      obtain ⟨rfl, rfl⟩ := Prod.mk.inj hresult
      exact ⟨rfl, rfl, fun _ htext => herror htext⟩
  | applied err after =>
      obtain ⟨rfl, rfl⟩ := Prod.mk.inj hresult
      obtain ⟨tables, rfl⟩ := insertVerdict_after hverdict
      exact ⟨rfl, rfl, fun h => absurd h opOk_ne_opError⟩

/-- What the dispatch does. -/
theorem dispatchRequest_performed {env : RequestEnv} {r : Request} {state state' : SharedState}
    {h : Handled} (hhandle : dispatchRequest env r state = some (state', h)) :
    Performed state state' h := by
  have hunknown : lit "un" ≠ lit "co" := by decide
  unfold dispatchRequest at hhandle
  -- the branches in the order of the dispatch
  split at hhandle
  · obtain ⟨rfl, rfl⟩ := Prod.mk.inj (Option.some.inj hhandle)
    exact performed_uploadBegin env state
  split at hhandle
  · obtain ⟨rfl, rfl⟩ := Prod.mk.inj (Option.some.inj hhandle)
    exact performed_uploadChunk env r state
  split at hhandle
  · obtain ⟨rfl, rfl⟩ := Prod.mk.inj (Option.some.inj hhandle)
    exact performed_uploadEnd env state
  split at hhandle
  · obtain ⟨rfl, rfl⟩ := Prod.mk.inj (Option.some.inj hhandle)
    exact ⟨rfl, rfl, fun h => absurd h opOk_ne_opError⟩
  split at hhandle
  · obtain ⟨rfl, rfl⟩ := Prod.mk.inj (Option.some.inj hhandle)
    exact performed_downloadSql env r state
  split at hhandle
  · exact performed_validateInsert hhandle
  · obtain ⟨rfl, rfl⟩ := Prod.mk.inj (Option.some.inj hhandle)
    exact ⟨rfl, rfl, fun _ htext => hunknown htext⟩

/-- A request of a client whose cancellation is not asked for is performed. -/
theorem handleRequest_performed {env : RequestEnv} {r : Request} {state state' : SharedState}
    {h : Handled} (hcancel : state.cancelClientId ≠ toInt r.clientId)
    (hhandle : handleRequest env r state = some (state', h)) : Performed state state' h := by
  unfold handleRequest at hhandle
  rw [if_neg hcancel] at hhandle
  exact dispatchRequest_performed hhandle

theorem ServiceEvent.step_named {cfg : AdminConfig} {s s' : Service} {e : ServiceEvent}
    (hs : s.server.Named) (h : e.step cfg s = some s') : s'.server.Named := by
  by_cases hserver : ∃ e', e = .server e'
  · obtain ⟨e', rfl⟩ := hserver
    obtain ⟨hordinary, after, hstep, rfl⟩ := step_server h
    exact Event.step_named hs hordinary hstep
  · have hafter := step_afterAdmin (fun e' he => hserver ⟨e', he⟩) h
    obtain ⟨cancelClientId, hframe⟩ := s.server.shared.cancelled_frame (e.cancels s)
    rw [hframe] at hafter
    refine hs.of_slots hafter.effect.next hafter.effect.slots ?_
    rw [hafter.server]
    exact hs.requests

/-! ## The comparison and what follows it -/

/-- The service, and which branch the worker takes once it has compared
`cancel_client_id` with the client of its request: that of the cancellation or not. -/
structure SplitService where
  service : Service
  branch : Option Bool

namespace SplitService

/-- The word `cancel_client_id`. -/
def cancelClientId (s : SplitService) : Int := s.service.server.shared.cancelClientId

/-- The word `cancelled_commands`. -/
def cancelledCommands (s : SplitService) : Int := s.service.server.shared.cancelledCommands

/-- Where the worker is. -/
def worker (s : SplitService) : Worker := s.service.server.worker

end SplitService

/-- A step of the service, with the part of the worker that `handleRequest` is in two
steps. -/
inductive SplitEvent where
  | service (e : ServiceEvent)
  /-- `g_state->cancel_client_id == (int)r->client_id`. -/
  | compare
  /-- The branch of the cancellation. -/
  | clear
  /-- The dispatch on `op_id`. -/
  | perform (env : RequestEnv)

/-- The worker has come to `finish_request`. -/
def Service.processed (s : Service) (r : Request) (result : SharedState × Handled) : Service :=
  { s with server := { s.server with
      shared := result.1
      worker := .handled r result.2
      replies := s.server.replies ++ result.2.messages } }

/-- A step, if the thread concerned is where the step begins. -/
def SplitEvent.step (cfg : AdminConfig) (s : SplitService) : SplitEvent → Option SplitService
  | .service (.server (.handle _)) => none
  | .service e => (e.step cfg s.service).map fun service => { s with service := service }
  | .compare =>
      match s.worker, s.branch with
      | .begun r, none =>
          some { s with
            branch := some (decide (s.cancelClientId = toInt r.clientId)) }
      | _, _ => none
  | .clear =>
      match s.worker, s.branch with
      | .begun r, some true =>
          some ⟨s.service.processed r (handleCancelled s.service.server.shared), none⟩
      | _, _ => none
  | .perform env =>
      match s.worker, s.branch with
      | .begun r, some false =>
          (dispatchRequest env r s.service.server.shared).map fun result =>
            ⟨s.service.processed r result, none⟩
      | _, _ => none

/-- What a step can do. -/
inductive SplitStep (cfg : AdminConfig) (s : SplitService) : SplitEvent → SplitService → Prop where
  | service (e : ServiceEvent) (service : Service) (hother : ∀ env, e ≠ .server (.handle env))
      (hstep : e.step cfg s.service = some service) :
      SplitStep cfg s (.service e) { s with service := service }
  | compare (r : Request) (hworker : s.worker = .begun r) (hbranch : s.branch = none) :
      SplitStep cfg s .compare { s with
        branch := some (decide (s.cancelClientId = toInt r.clientId)) }
  | clear (r : Request) (hworker : s.worker = .begun r)
      (hbranch : s.branch = some true) :
      SplitStep cfg s .clear
        ⟨s.service.processed r (handleCancelled s.service.server.shared), none⟩
  | perform (env : RequestEnv) (r : Request) (result : SharedState × Handled)
      (hworker : s.worker = .begun r) (hbranch : s.branch = some false)
      (hdispatch : dispatchRequest env r s.service.server.shared = some result) :
      SplitStep cfg s (.perform env) ⟨s.service.processed r result, none⟩

theorem SplitEvent.step_spec {cfg : AdminConfig} {s s' : SplitService} {e : SplitEvent}
    (h : e.step cfg s = some s') : SplitStep cfg s e s' := by
  cases e with
  | service e =>
      unfold step at h
      split at h
      · cases h
      · next hother heq =>
          obtain rfl := SplitEvent.service.inj heq
          obtain ⟨service, hstep, rfl⟩ := Option.map_eq_some_iff.mp h
          exact .service e service (fun env he => hother env he) hstep
      all_goals contradiction
  | compare =>
      simp only [step] at h
      split at h
      · next r hworker hbranch =>
          obtain rfl := Option.some.inj h
          exact .compare r hworker hbranch
      · cases h
  | clear =>
      simp only [step] at h
      split at h
      · next r hworker hbranch =>
          obtain rfl := Option.some.inj h
          exact .clear r hworker hbranch
      · cases h
  | perform env =>
      simp only [step] at h
      split at h
      · next r hworker hbranch =>
          obtain ⟨result, hdispatch, rfl⟩ := Option.map_eq_some_iff.mp h
          exact .perform env r result hworker hbranch hdispatch
      · cases h

/-- Beside the worker's part the steps are those of the service. -/
theorem SplitEvent.step_service {cfg : AdminConfig} {s : SplitService} {e : ServiceEvent}
    (hother : ∀ env, e ≠ .server (.handle env)) :
    SplitEvent.step cfg s (.service e) =
      (e.step cfg s.service).map fun service => { s with service := service } := by
  unfold step
  split
  · next env heq => exact absurd (SplitEvent.service.inj heq) (hother env)
  · next heq =>
      obtain rfl := SplitEvent.service.inj heq
      rfl
  all_goals contradiction

/-- With nothing between them the comparison and what follows it are the step
`handleRequest`. -/
theorem ServiceEvent.step_handle_splits {cfg : AdminConfig} {s s' : Service} {env : RequestEnv}
    (h : ServiceEvent.step cfg s (.server (.handle env)) = some s') :
    ∃ e, runFrom (SplitEvent.step cfg) ⟨s, none⟩ [.compare, e] = some ⟨s', none⟩ := by
  obtain ⟨-, after, hstep, rfl⟩ := step_server h
  cases Event.step_spec hstep with
  | handle _ r state handled hworker hhandle =>
      have hcompare : SplitEvent.step cfg ⟨s, none⟩ .compare =
          some ⟨s, some (decide (s.server.shared.cancelClientId = toInt r.clientId))⟩ := by
        simp only [SplitEvent.step, SplitService.worker, hworker]
        rfl
      unfold handleRequest at hhandle
      split at hhandle
      · next hcancel =>
          rw [decide_eq_true hcancel] at hcompare
          refine ⟨.clear, runFrom_cons_eq_some_iff.mpr ⟨_, hcompare, ?_⟩⟩
          simp only [runFrom_cons, SplitEvent.step, SplitService.worker, hworker,
            Option.some.inj hhandle]
          rfl
      · next hcancel =>
          rw [decide_eq_false hcancel] at hcompare
          refine ⟨.perform env, runFrom_cons_eq_some_iff.mpr ⟨_, hcompare, ?_⟩⟩
          simp only [runFrom_cons, SplitEvent.step, SplitService.worker, hworker, hhandle]
          rfl

/-- Every run of the service is one of these runs. -/
theorem runFrom_splits {cfg : AdminConfig} {s s' : Service} {events : List ServiceEvent}
    (hrun : runFrom (ServiceEvent.step cfg) s events = some s') :
    ∃ split, runFrom (SplitEvent.step cfg) ⟨s, none⟩ split = some ⟨s', none⟩ := by
  induction events generalizing s with
  | nil =>
      obtain rfl := Option.some.inj hrun
      exact ⟨[], rfl⟩
  | cons e events ih =>
      obtain ⟨middle, hfirst, hrest⟩ := runFrom_cons_eq_some_iff.mp hrun
      obtain ⟨rest, hsplit⟩ := ih hrest
      have hmoves : ∃ moves,
          runFrom (SplitEvent.step cfg) ⟨s, none⟩ moves = some ⟨middle, none⟩ := by
        by_cases hhandle : ∃ env, e = .server (.handle env)
        · obtain ⟨env, rfl⟩ := hhandle
          obtain ⟨next, hnext⟩ := ServiceEvent.step_handle_splits hfirst
          exact ⟨[.compare, next], hnext⟩
        · refine ⟨[.service e], ?_⟩
          rw [runFrom_cons, SplitEvent.step_service fun env he => hhandle ⟨env, he⟩, hfirst]
          rfl
      obtain ⟨moves, hmoves⟩ := hmoves
      refine ⟨moves ++ rest, ?_⟩
      rw [runFrom_append, hmoves]
      exact hsplit

/-! ## The law -/

/-- The cancellations that the clients are owed: a client whose request is compared is
owed none any more. -/
def recordCancellation (s : SplitService) (e : SplitEvent) (p : Pending Int) : Pending Int :=
  match e with
  | .service e =>
      match e.cancels s.service with
      | some clientId => p.ask clientId
      | none => p
  | .compare =>
      match s.worker with
      | .begun r => p.done (toInt r.clientId)
      | _ => p
  | .clear => p.wipe
  | .perform _ => p

/-- A step of the service beside the cancellations that the clients are owed. -/
def cancellationStep (cfg : AdminConfig) :
    SplitService × Pending Int → SplitEvent → Option (SplitService × Pending Int) :=
  withHistory (SplitEvent.step cfg) recordCancellation

/-- The worker takes the branch of the cancellation for a request of a client that is
owed one, and for no other.  In that branch the request is answered so and counted, in
the other it is not, and no other step counts one. -/
def CancelLaw (cfg : AdminConfig) (t : SplitService × Pending Int) (e : SplitEvent) : Prop :=
  ∀ s', e.step cfg t.1 = some s' →
    match e with
    | .service _ => s'.cancelledCommands = t.1.cancelledCommands
    | .compare => ∀ r, t.1.worker = .begun r →
        (s'.branch = some true ↔ toInt r.clientId ∈ t.2.owed)
    | .clear => ∃ r h, t.1.worker = .begun r ∧ s'.worker = .handled r h ∧
        h.reply r = [respondText r.fd r.clientId opError (wireText r cancelText)] ∧
        s'.cancelledCommands = t.1.cancelledCommands + 1
    | .perform _ => ∃ r h, t.1.worker = .begun r ∧ s'.worker = .handled r h ∧
        ¬ (h.respOp = opError ∧ h.response = cancelText) ∧
        s'.cancelledCommands = t.1.cancelledCommands

/-- As a request of a client that is owed a cancellation is compared, the cancellation
accepted last is for that client, and none has been cleared since. -/
def Undisturbed (t : SplitService × Pending Int) (e : SplitEvent) : Prop :=
  ∀ r, e = .compare → t.1.worker = .begun r → t.1.branch = none →
    toInt r.clientId ∈ t.2.owed → t.2.last = some (toInt r.clientId)

/-! ## The cell -/

/-- The cell `cancel_client_id` holds the client of the cancellation accepted last, if it
has not been cleared since.  That client is owed it, but for what the worker is about to
clear. -/
structure CancelCell (t : SplitService × Pending Int) : Prop where
  named : t.1.service.server.Named
  cell : t.1.cancelClientId = t.2.last.getD 0
  standing : t.1.branch ≠ some true → t.2.Standing

/-- Whether the cell is that of the client whose request the worker has begun. -/
theorem CancelCell.eq_iff {t : SplitService × Pending Int} (ht : CancelCell t) {r : Request}
    (hworker : t.1.worker = .begun r) :
    t.1.cancelClientId = toInt r.clientId ↔
      t.2.last = some (toInt r.clientId) := by
  have hopen : r ∈ t.1.service.server.unfinished := by
    have hbegun : t.1.service.server.worker = .begun r := hworker
    rw [Server.unfinished, hbegun]
    exact List.mem_append_left _ List.mem_cons_self
  have hpos := ht.named.requests r hopen
  rw [ht.cell]
  cases hlast : t.2.last with
  | none => exact iff_of_false (by simpa using hpos.ne) (by simp)
  | some other => simp

/-- A step that accepts no cancellation leaves the cell, but for the worker's part. -/
theorem ServiceEvent.step_cell {cfg : AdminConfig} {s s' : Service} {e : ServiceEvent}
    (hcancels : e.cancels s = none) (hother : ∀ env, e ≠ .server (.handle env))
    (h : e.step cfg s = some s') :
    s'.server.shared.cancelClientId = s.server.shared.cancelClientId := by
  by_cases hserver : ∃ e', e = .server e'
  · obtain ⟨e', rfl⟩ := hserver
    obtain ⟨hordinary, after, hstep, rfl⟩ := step_server h
    exact (Event.step_admin hordinary hstep).2 fun env henv =>
      hother env (congrArg ServiceEvent.server henv)
  · have hafter := step_afterAdmin (fun e' he => hserver ⟨e', he⟩) h
    rw [hcancels] at hafter
    exact hafter.effect.cancelClientId

/-- No step but the worker's part counts a cancellation. -/
theorem ServiceEvent.step_cancelledCommands {cfg : AdminConfig} {s s' : Service}
    {e : ServiceEvent} (hother : ∀ env, e ≠ .server (.handle env)) (h : e.step cfg s = some s') :
    s'.server.shared.cancelledCommands = s.server.shared.cancelledCommands := by
  by_cases hserver : ∃ e', e = .server e'
  · obtain ⟨e', rfl⟩ := hserver
    obtain ⟨hordinary, after, hstep, rfl⟩ := step_server h
    cases Event.step_spec hstep with
    | connect now fd addr =>
        obtain ⟨_, _, _, hframe⟩ := connectClient_frame now fd addr s.server.shared
        dsimp only
        rw [hframe]
    | close fd =>
        obtain ⟨_, _, hframe⟩ := clientRemoveFd_frame fd s.server.shared
        dsimp only
        rw [hframe]
    | receive now fd clientId opId payload =>
        dsimp only
        unfold receiveRequest
        cases isProcessingOp opId with
        | true => rfl
        | false => rfl
    | cancel clientId => cases hordinary
    | begin now r =>
        obtain ⟨_, _, _, _, _, hframe⟩ := beginRequest_frame now r s.server.shared
        dsimp only
        rw [hframe]
    | handle env => exact absurd rfl (hother env)
    | finish now elapsed r handled =>
        obtain ⟨_, _, _, _, _, _, _, hframe⟩ :=
          finishRequest_frame now elapsed r handled s.server.shared
        dsimp only
        rw [hframe]
    | _ => rfl
  · have hafter := step_afterAdmin (fun e' he => hserver ⟨e', he⟩) h
    obtain ⟨cancelClientId, hframe⟩ := s.server.shared.cancelled_frame (e.cancels s)
    rw [hframe] at hafter
    exact hafter.effect.cancelledCommands

/-- The identifiers of clients behind the worker's part. -/
theorem Server.Named.processed {s : Service} (hs : s.server.Named) {r : Request}
    (hworker : s.server.worker = .begun r) {result : SharedState × Handled}
    (heffect : OperationEffect s.server.shared result.1) : (s.processed r result).server.Named := by
  have hclients := heffect.sameClients
  refine hs.of_slots hclients.next (fun slot _ => ⟨hclients.fd slot, hclients.clientId slot⟩) ?_
  have hunfinished : (s.processed r result).server.unfinished = s.server.unfinished := by
    rw [Server.unfinished, Server.unfinished, hworker]
    rfl
  rw [hunfinished]
  exact hs.requests

theorem cancellationStep_eq_some {cfg : AdminConfig} {t t' : SplitService × Pending Int}
    {e : SplitEvent} (h : cancellationStep cfg t e = some t') :
    e.step cfg t.1 = some t'.1 ∧ t'.2 = recordCancellation t.1 e t.2 := by
  obtain ⟨s', hstep, rfl⟩ := Option.map_eq_some_iff.mp h
  exact ⟨hstep, rfl⟩

/-- A step keeps the cell. -/
theorem cancellationStep_cell {cfg : AdminConfig} {t t' : SplitService × Pending Int}
    {e : SplitEvent} (ht : CancelCell t) (h : cancellationStep cfg t e = some t') :
    CancelCell t' := by
  obtain ⟨hstep, hrecord⟩ := cancellationStep_eq_some h
  obtain ⟨s, p⟩ := t
  obtain ⟨s', p'⟩ := t'
  dsimp only at hstep hrecord
  subst hrecord
  cases SplitEvent.step_spec hstep with
  | service e service hother hstep' =>
      have hnamed := ServiceEvent.step_named ht.named hstep'
      cases hcancels : e.cancels s.service with
      | some clientId =>
          -- an accepted cancellation overwrites the cell
          have hadmin : ∀ e', e ≠ .server e' := by
            rintro e' rfl
            cases hcancels
          have hafter := ServiceEvent.step_afterAdmin hadmin hstep'
          rw [hcancels] at hafter
          simp only [recordCancellation, hcancels]
          exact ⟨hnamed, hafter.effect.cancelClientId, fun _ => p.standing_ask clientId⟩
      | none =>
          simp only [recordCancellation, hcancels]
          refine ⟨hnamed, ?_, ht.standing⟩
          exact (ServiceEvent.step_cell hcancels hother hstep').trans ht.cell
  | compare r hworker hbranch =>
      have hcell := ht.eq_iff hworker
      simp only [recordCancellation, hworker]
      refine ⟨ht.named, ht.cell, fun hnot => ?_⟩
      -- what is found in the cell is about to be cleared
      have hother : p.last ≠ some (toInt r.clientId) := by
        intro hlast
        exact hnot (congrArg some (decide_eq_true (hcell.mpr hlast)))
      exact (ht.standing (by rw [hbranch]; decide)).done hother
  | clear r hworker hbranch =>
      exact ⟨ht.named.processed hworker (handleCancelled_effect _), rfl,
        fun _ => p.standing_wipe⟩
  | perform env r result hworker hbranch hdispatch =>
      refine ⟨ht.named.processed hworker (dispatchRequest_effect hdispatch), ?_, fun _ => ?_⟩
      · exact (dispatchRequest_performed hdispatch).cancelClientId.trans ht.cell
      · exact ht.standing (by rw [hbranch]; decide)

/-- The cell in every run. -/
theorem split_cancellations {cfg : AdminConfig} {now : Int} {events : List SplitEvent}
    {t : SplitService × Pending Int}
    (hrun : runFrom (cancellationStep cfg) (⟨.init cfg now, none⟩, .empty) events = some t) :
    CancelCell t := by
  have hinit : CancelCell (⟨.init cfg now, none⟩, .empty) :=
    ⟨Server.init_named now, rfl, fun _ _ hlast => by cases hlast⟩
  exact runFrom_invariant (fun _ _ _ ht h => cancellationStep_cell ht h) hinit hrun

/-- A request is compared as its client is owed, exactly if the cell says so. -/
theorem CancelCell.law_iff {cfg : AdminConfig} {t : SplitService × Pending Int}
    (ht : CancelCell t) (e : SplitEvent) : CancelLaw cfg t e ↔ Undisturbed t e := by
  obtain ⟨s, p⟩ := t
  constructor
  · rintro hlaw r rfl hworker hbranch
    have hstep : SplitEvent.step cfg s .compare =
        some { s with branch := some (decide (s.cancelClientId = toInt r.clientId)) } := by
      dsimp only at hworker hbranch
      simp only [SplitEvent.step, hworker, hbranch]
    have hdecides := hlaw _ hstep r hworker
    dsimp only at hdecides
    rw [Option.some_inj, decide_eq_true_eq, ht.eq_iff hworker] at hdecides
    exact (ht.standing (by rw [hbranch]; decide)).exact_iff.mp hdecides
  · intro hundisturbed s' hstep
    cases SplitEvent.step_spec hstep with
    | service e service hother hstep' => exact ServiceEvent.step_cancelledCommands hother hstep'
    | compare r hworker hbranch =>
        intro r' hworker'
        obtain rfl := Worker.begun.inj (hworker.symm.trans hworker')
        dsimp only
        rw [Option.some_inj, decide_eq_true_eq, ht.eq_iff hworker]
        exact (ht.standing (by rw [hbranch]; decide)).exact_iff.mpr
          (hundisturbed r rfl hworker hbranch)
    | clear r hworker hbranch => exact ⟨r, _, hworker, rfl, rfl, rfl⟩
    | perform env r result hworker hbranch hdispatch =>
        have hperformed := dispatchRequest_performed hdispatch
        exact ⟨r, _, hworker, rfl, hperformed.response_ne, hperformed.cancelledCommands⟩

/-- Along a run every client that is owed a cancellation has it, and no other, exactly if
whenever a request of a client that is owed one is compared, no cancellation was accepted
for another client since its own, and none was cleared. -/
theorem cancellations_kept_iff (cfg : AdminConfig) (now : Int) (events : List SplitEvent) :
    EveryStep (cancellationStep cfg) (CancelLaw cfg) (⟨.init cfg now, none⟩, .empty) events ↔
      EveryStep (cancellationStep cfg) Undisturbed (⟨.init cfg now, none⟩, .empty) events := by
  rw [everyStep_iff, everyStep_iff]
  refine forall_congr' fun done => forall_congr' fun e => forall_congr' fun rest =>
    forall_congr' fun t => imp_congr_right fun _ => imp_congr_right fun hrun => ?_
  exact (split_cancellations hrun).law_iff e

/-! ## A cancellation that is overwritten -/

/-- A round in which only the admin's entry is ready, with a cancellation. -/
def cancelRound (digit : UInt8) : List ServiceEvent :=
  [.poll 0 fun k => decide (k.val = 1), .next, .receive 0 opAdminCancel [digit], .next]

/-- Clients 1 and 2 connect, then the admin, who cancels 1 and then 2; a request of
client 1 comes to the worker. -/
def overwrittenEvents : List ServiceEvent :=
  [.server (.interface (.connect 0 10 (lit "10.0.0.1"))),
    .server (.interface (.connect 0 11 (lit "10.0.0.2"))),
    .poll 0 (fun k => decide (k.val = 0)), .accept 0 (some 5), .next, .next] ++
  cancelRound 49 ++ cancelRound 50 ++
  [.server (.interface (.receive 0 10 1 opGenerateSql [])), .server (.interface .push),
    .server .pop, .server (.begin 0)]

/-- The listening socket of the admin port is 3. -/
def portConfig : AdminConfig := ⟨3, 60⟩

/-- The run comes to the comparison: client 1 is owed a cancellation, and its request is
not found to be cancelled. -/
theorem overwritten_run :
    (runFrom (cancellationStep portConfig) (⟨.init portConfig 0, none⟩, .empty)
        (overwrittenEvents.map .service)).bind
      (fun t => (SplitEvent.step portConfig t.1 .compare).map fun s' =>
        decide (t.1.worker.request.map Request.clientId = some 1 ∧ 1 ∈ t.2.owed ∧
          s'.branch = some false)) =
      some true := by
  decide +kernel

/-- The cancellation of client 1 is lost: the admin has cancelled client 2 after it. -/
theorem overwritten_lost :
    ¬ EveryStep (cancellationStep portConfig) (CancelLaw portConfig)
      (⟨.init portConfig 0, none⟩, .empty) (overwrittenEvents.map .service ++ [.compare]) := by
  intro hlaw
  obtain ⟨t, hrun, hlast⟩ := Option.bind_eq_some_iff.mp overwritten_run
  obtain ⟨s', hstep, hfacts⟩ := Option.map_eq_some_iff.mp hlast
  obtain ⟨hclient, howed, hbranch⟩ := of_decide_eq_true hfacts
  obtain ⟨r, hworker, -⟩ : ∃ r, t.1.worker = .begun r ∧ t.1.branch = none := by
    cases SplitEvent.step_spec hstep with
    | compare r hworker hnone => exact ⟨r, hworker, hnone⟩
  have hid : toInt r.clientId = 1 := by
    rw [hworker] at hclient
    rw [Option.some.inj hclient]
    rfl
  have hdecides := everyStep_iff.mp hlaw _ _ [] t rfl hrun s' hstep r hworker
  rw [hid, hbranch] at hdecides
  exact absurd (hdecides.mpr howed) (by decide)

/-- So is a cancellation that is accepted between the comparison for another client and
the clearing of the cell. -/
example :
    (runFrom (cancellationStep portConfig) (⟨.init portConfig 0, none⟩, .empty)
        ((overwrittenEvents.take 10 ++ overwrittenEvents.drop 14).map .service ++ .compare ::
          (cancelRound 50).map .service ++ [.clear])).map
      (fun t => decide (2 ∈ t.2.owed ∧ t.1.cancelClientId = 0 ∧ t.1.cancelledCommands = 1)) =
      some true := by
  decide +kernel

end SqlCodeGenerator
