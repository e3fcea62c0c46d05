import SqlCodeGenerator.Library.Runs
import SqlCodeGenerator.Requests

/-!
# The server as a system of threads

The worker thread takes requests from the queue and processes them, in the parts
of `process_request`; the ordinary interface thread registers clients and
enqueues their requests, `job_create` first and `queue_push` second; the admin
interface thread asks for cancellations.  Between two parts of one thread the
others may take any number of steps.

A step has no result when a thread is not where the step begins, or when the C
code makes an undefined memory access.
-/

namespace SqlCodeGenerator

open Library

/-- Where the worker thread is. -/
inductive Worker where
  | idle
  /-- A request has been popped. -/
  | popped (r : Request)
  /-- It is marked active and its job running. -/
  | begun (r : Request)
  /-- Its operation has been performed. -/
  | handled (r : Request) (h : Handled)

/-- The shared state with the queue and what the threads hold. -/
structure Server where
  shared : SharedState
  queue : List Request
  /-- A request that the ordinary interface has built and not yet pushed. -/
  pending : Option Request
  worker : Worker
  /-- The messages the worker has sent, in order. -/
  replies : List Message

/-- The request that the worker is at. -/
def Worker.request : Worker → Option Request
  | idle => none
  | popped r => some r
  | begun r => some r
  | handled r _ => some r

/-- The requests that are built and that the worker has not popped, in order. -/
def Server.ahead (s : Server) : List Request := s.queue ++ s.pending.toList

/-- The server after `state_init` and `queue_init`. -/
def Server.init (now : Int) : Server := ⟨stateInit now, [], none, .idle, []⟩

/-- A step of an interface thread. -/
inductive InterfaceEvent where
  /-- `OP_CONNECT` on a descriptor whose address is known. -/
  | connect (now fd : Int) (addr : CString)
  /-- A descriptor is closed. -/
  | close (fd : Int)
  /-- A request of a registered client is built, with its job if it has one. -/
  | receive (now fd : Int) (clientId opId : UInt32) (payload : List UInt8)
  /-- The request built is pushed. -/
  | push
  /-- The admin connection comes or goes. -/
  | admin (connected : Bool)
  /-- `OP_ADMIN_CANCEL` for a client. -/
  | cancel (clientId : Int)
  /-- A line that the admin interface adds to the history. -/
  | note (line : CString)

/-- The request built from a message. -/
def receiveRequest (now fd : Int) (clientId opId : UInt32) (payload : List UInt8)
    (state : SharedState) : Request × SharedState :=
  let kept := if payload = [] then none else some payload
  if isProcessingOp opId then
    let (jobId, state) := jobCreate now clientId opId state
    (⟨fd, clientId, opId, jobId, kept, payload.length⟩, state)
  else
    (⟨fd, clientId, opId, 0, kept, payload.length⟩, state)

/-- `OP_CONNECT`: the next identifier, and the registration. -/
def connectClient (now fd : Int) (addr : CString) (state : SharedState) : SharedState :=
  let id := state.nextClientId
  let state := { state with nextClientId := state.nextClientId + 1 }
  historyAdd (registerClient now fd addr (toInt (UInt32.ofNat id)) state)
    (lit "client connected")

/-- `OP_ADMIN_CANCEL`: the request is noted when the client is active or
connected. -/
def adminCancel (clientId : Int) (state : SharedState) : SharedState :=
  if state.activeClientId = clientId ∨ hasClientFd state clientId then
    historyAdd { state with cancelClientId := clientId } (lit "admin requested command cancel")
  else
    state

/-- A step of an interface thread. -/
def InterfaceEvent.step (s : Server) : InterfaceEvent → Option Server
  | .connect now fd addr => some { s with shared := connectClient now fd addr s.shared }
  | .close fd => some { s with shared := clientRemoveFd fd s.shared }
  | .receive now fd clientId opId payload =>
      if s.pending.isNone && isRegisteredClient s.shared clientId then
        let (r, state) := receiveRequest now fd clientId opId payload s.shared
        some { s with shared := state, pending := some r }
      else
        none
  | .push =>
      s.pending.map fun r =>
        { s with
          shared := { s.shared with queueDepth := s.shared.queueDepth + 1 }
          queue := s.queue ++ [r]
          pending := none }
  | .admin connected => some { s with shared := { s.shared with adminConnected := connected } }
  | .cancel clientId => some { s with shared := adminCancel clientId s.shared }
  | .note line => some { s with shared := historyAdd s.shared line }

/-- A step of the server. -/
inductive Event where
  | interface (e : InterfaceEvent)
  /-- `queue_pop`. -/
  | pop
  | begin (now : Int)
  | handle (env : RequestEnv)
  | finish (now elapsed : Int)

/-- A step of the server, if the thread concerned is where the step begins. -/
def Event.step (s : Server) : Event → Option Server
  | .interface e => e.step s
  | .pop =>
      match s.worker, s.queue with
      | .idle, r :: rest =>
          some { s with
            shared := { s.shared with queueDepth := s.shared.queueDepth - 1 }
            queue := rest
            worker := .popped r }
      | _, _ => none
  | .begin now =>
      match s.worker with
      | .popped r => some { s with shared := beginRequest now r s.shared, worker := .begun r }
      | _ => none
  | .handle env =>
      match s.worker with
      | .begun r =>
          (handleRequest env r s.shared).map fun (state, h) =>
            { s with shared := state, worker := .handled r h, replies := s.replies ++ h.messages }
      | _ => none
  | .finish now elapsed =>
      match s.worker with
      | .handled r h =>
          let (state, reply) := finishRequest now elapsed r h s.shared
          some { s with shared := state, worker := .idle, replies := s.replies ++ reply }
      | _ => none

/-- The server after a list of steps. -/
def serve (s : Server) (events : List Event) : Option Server := runFrom Event.step s events

/-- What a step leaves, said once for each kind of step. -/
inductive EventSpec (s : Server) : Event → Server → Prop where
  | connect (now fd : Int) (addr : CString) :
      EventSpec s (.interface (.connect now fd addr))
        { s with shared := connectClient now fd addr s.shared }
  | close (fd : Int) :
      EventSpec s (.interface (.close fd)) { s with shared := clientRemoveFd fd s.shared }
  | receive (now fd : Int) (clientId opId : UInt32) (payload : List UInt8)
      (hpending : s.pending = none) (hregistered : isRegisteredClient s.shared clientId = true) :
      EventSpec s (.interface (.receive now fd clientId opId payload))
        { s with
          shared := (receiveRequest now fd clientId opId payload s.shared).2
          pending := some (receiveRequest now fd clientId opId payload s.shared).1 }
  | push (r : Request) (hpending : s.pending = some r) :
      EventSpec s (.interface .push)
        { s with
          shared := { s.shared with queueDepth := s.shared.queueDepth + 1 }
          queue := s.queue ++ [r]
          pending := none }
  | admin (connected : Bool) :
      EventSpec s (.interface (.admin connected))
        { s with shared := { s.shared with adminConnected := connected } }
  | cancel (clientId : Int) :
      EventSpec s (.interface (.cancel clientId))
        { s with shared := adminCancel clientId s.shared }
  | note (line : CString) :
      EventSpec s (.interface (.note line)) { s with shared := historyAdd s.shared line }
  | pop (r : Request) (rest : List Request) (hworker : s.worker = .idle)
      (hqueue : s.queue = r :: rest) :
      EventSpec s .pop
        { s with
          shared := { s.shared with queueDepth := s.shared.queueDepth - 1 }
          queue := rest
          worker := .popped r }
  | begin (now : Int) (r : Request) (hworker : s.worker = .popped r) :
      EventSpec s (.begin now)
        { s with shared := beginRequest now r s.shared, worker := .begun r }
  | handle (env : RequestEnv) (r : Request) (state : SharedState) (h : Handled)
      (hworker : s.worker = .begun r) (hhandle : handleRequest env r s.shared = some (state, h)) :
      EventSpec s (.handle env)
        { s with shared := state, worker := .handled r h, replies := s.replies ++ h.messages }
  | finish (now elapsed : Int) (r : Request) (h : Handled) (hworker : s.worker = .handled r h) :
      EventSpec s (.finish now elapsed)
        { s with
          shared := (finishRequest now elapsed r h s.shared).1
          worker := .idle
          replies := s.replies ++ (finishRequest now elapsed r h s.shared).2 }

/-- Inversion of a step. -/
theorem Event.step_spec {s s' : Server} {e : Event} (h : e.step s = some s') :
    EventSpec s e s' := by
  cases e with
  | interface e =>
      cases e with
      | connect now fd addr =>
          obtain rfl := Option.some.inj h
          exact .connect now fd addr
      | close fd =>
          obtain rfl := Option.some.inj h
          exact .close fd
      | receive now fd clientId opId payload =>
          simp only [step, InterfaceEvent.step] at h
          split at h
          · next hguard =>
              simp only [Bool.and_eq_true, Option.isNone_iff_eq_none] at hguard
              obtain rfl := Option.some.inj h
              exact .receive now fd clientId opId payload hguard.1 hguard.2
          · cases h
      | push =>
          obtain ⟨r, hpending, rfl⟩ := Option.map_eq_some_iff.mp h
          exact .push r hpending
      | admin connected =>
          obtain rfl := Option.some.inj h
          exact .admin connected
      | cancel clientId =>
          obtain rfl := Option.some.inj h
          exact .cancel clientId
      | note line =>
          obtain rfl := Option.some.inj h
          exact .note line
  | pop =>
      simp only [step] at h
      split at h
      · next r rest hworker hqueue =>
          obtain rfl := Option.some.inj h
          exact .pop r rest hworker hqueue
      · cases h
  | begin now =>
      simp only [step] at h
      split at h
      · next r hworker =>
          obtain rfl := Option.some.inj h
          exact .begin now r hworker
      · cases h
  | handle env =>
      simp only [step] at h
      split at h
      · next r hworker =>
          obtain ⟨⟨state, handled⟩, hhandle, rfl⟩ := Option.map_eq_some_iff.mp h
          exact .handle env r state handled hworker hhandle
      · cases h
  | finish now elapsed =>
      simp only [step] at h
      split at h
      · next r handled hworker =>
          obtain rfl := Option.some.inj h
          exact .finish now elapsed r handled hworker
      · cases h

/-! ## What the interfaces leave alone -/

theorem receiveRequest_tables (now fd : Int) (clientId opId : UInt32) (payload : List UInt8)
    (state : SharedState) :
    (receiveRequest now fd clientId opId payload state).2.tables = state.tables := by
  unfold receiveRequest
  cases isProcessingOp opId <;> rfl

theorem connectClient_frame (now fd : Int) (addr : CString) (state : SharedState) :
    ∃ clients clientCount history, connectClient now fd addr state =
      { state with
        nextClientId := state.nextClientId + 1
        clients := clients
        clientCount := clientCount
        history := history
        historyCount := state.historyCount + 1 } := by
  obtain ⟨clients, clientCount, hframe⟩ := registerClient_frame now fd addr
    (toInt (UInt32.ofNat state.nextClientId)) { state with nextClientId := state.nextClientId + 1 }
  unfold connectClient
  simp only [hframe]
  exact ⟨_, _, _, rfl⟩

theorem connectClient_tables (now fd : Int) (addr : CString) (state : SharedState) :
    (connectClient now fd addr state).tables = state.tables := by
  obtain ⟨_, _, _, hframe⟩ := connectClient_frame now fd addr state
  rw [hframe]

theorem clientRemoveFd_tables (fd : Int) (state : SharedState) :
    (clientRemoveFd fd state).tables = state.tables := by
  obtain ⟨_, _, hframe⟩ := clientRemoveFd_frame fd state
  rw [hframe]

theorem adminCancel_frame (clientId : Int) (state : SharedState) :
    ∃ cancelClientId history historyCount, adminCancel clientId state =
      { state with
        cancelClientId := cancelClientId
        history := history
        historyCount := historyCount } := by
  unfold adminCancel
  split
  · exact ⟨_, _, _, rfl⟩
  · exact ⟨state.cancelClientId, state.history, state.historyCount, rfl⟩

theorem adminCancel_tables (clientId : Int) (state : SharedState) :
    (adminCancel clientId state).tables = state.tables := by
  obtain ⟨_, _, _, hframe⟩ := adminCancel_frame clientId state
  rw [hframe]

/-- The interface threads touch neither the tables, nor the worker, nor what it has
sent. -/
theorem InterfaceEvent.step_frame {s s' : Server} {e : InterfaceEvent} (h : e.step s = some s') :
    s'.shared.tables = s.shared.tables ∧ s'.worker = s.worker ∧ s'.replies = s.replies := by
  have hspec : EventSpec s (.interface e) s' := Event.step_spec h
  cases hspec with
  | connect now fd addr => exact ⟨connectClient_tables now fd addr _, rfl, rfl⟩
  | close fd => exact ⟨clientRemoveFd_tables fd _, rfl, rfl⟩
  | receive now fd clientId opId payload =>
      exact ⟨receiveRequest_tables now fd clientId opId payload _, rfl, rfl⟩
  | cancel clientId => exact ⟨adminCancel_tables clientId _, rfl, rfl⟩
  | _ => exact ⟨rfl, rfl, rfl⟩

/-- Any number of interface steps leaves these alone. -/
theorem serve_interface_frame {s s' : Server} {es : List InterfaceEvent}
    (h : serve s (es.map .interface) = some s') :
    s'.shared.tables = s.shared.tables ∧ s'.worker = s.worker ∧ s'.replies = s.replies := by
  unfold serve at h
  induction es generalizing s with
  | nil =>
      obtain rfl := Option.some.inj h
      exact ⟨rfl, rfl, rfl⟩
  | cons e es ih =>
      obtain ⟨middle, hfirst, hrest⟩ := runFrom_cons_eq_some_iff.mp h
      obtain ⟨htables, hworker, hreplies⟩ := ih hrest
      obtain ⟨htables', hworker', hreplies'⟩ := InterfaceEvent.step_frame hfirst
      exact ⟨htables.trans htables', hworker.trans hworker', hreplies.trans hreplies'⟩

/-! ## The requests along a run -/

/-- The request that a message becomes. -/
theorem receiveRequest_request (now fd : Int) (clientId opId : UInt32) (payload : List UInt8)
    (state : SharedState) :
    (receiveRequest now fd clientId opId payload state).1 =
      ⟨fd, clientId, opId, if isProcessingOp opId then state.nextJobId else 0,
        if payload = [] then none else some payload, payload.length⟩ := by
  unfold receiveRequest
  cases isProcessingOp opId with
  | false => rfl
  | true => rfl

/-- A request that the worker has not popped was there before, or the step has built
it for a registered client. -/
theorem Event.step_ahead {s s' : Server} {e : Event} (h : e.step s = some s') :
    ∀ r ∈ s'.ahead, r ∈ s.ahead ∨ ∃ now fd clientId opId payload,
      receiveRequest now fd clientId opId payload s.shared = (r, s'.shared) ∧
        isRegisteredClient s.shared clientId = true := by
  intro r hr
  cases Event.step_spec h with
  | receive now fd clientId opId payload hpending hregistered =>
      rcases List.mem_append.mp hr with hr | hr
      · exact Or.inl (List.mem_append_left _ hr)
      · obtain rfl := List.mem_singleton.mp hr
        exact Or.inr ⟨now, fd, clientId, opId, payload, rfl, hregistered⟩
  | push built hpending =>
      -- the request pushed was the one pending
      simp only [Server.ahead, hpending, Option.toList_some, Option.toList_none,
        List.append_nil] at hr ⊢
      exact Or.inl hr
  | pop first rest hworker hqueue =>
      rw [Server.ahead, hqueue]
      exact Or.inl (List.mem_cons_of_mem first hr)
  | _ => exact Or.inl hr

/-- The worker stays at its request, or takes one of those ahead. -/
theorem Event.step_request {s s' : Server} {e : Event} (h : e.step s = some s') {r : Request}
    (hr : s'.worker.request = some r) : s.worker.request = some r ∨ r ∈ s.ahead := by
  cases Event.step_spec h with
  | pop first rest hworker hqueue =>
      obtain rfl := Option.some.inj hr
      rw [Server.ahead, hqueue]
      exact Or.inr List.mem_cons_self
  | begin now r' hworker =>
      rw [hworker]
      exact Or.inl hr
  | handle env r' state handled hworker hhandle =>
      rw [hworker]
      exact Or.inl hr
  | finish now elapsed r' handled hworker => cases hr
  -- the interfaces leave the worker where it is
  | _ => exact Or.inl hr

end SqlCodeGenerator
