import SqlCodeGenerator.JobQueries

/-!
# Connections

`ordinary_interface_main` and `admin_interface_main` of `server.c` around the
server: connections are accepted, read from and closed, and the kernel gives out
the number of a closed descriptor again.  A request carries only the number of its
descriptor, so a message of the worker goes to whoever has that number when it is
sent.

The second half of `Network` is history: connections are counted, and the fields
say from which connection a request was read, which identifier was assigned to
which, and what was done and delivered.  No step reads it.
-/

namespace SqlCodeGenerator

open Library

/-- A connection: its place in the order of accepts, and whether it came in on the
admin port. -/
structure Connection where
  serial : Nat
  admin : Bool
  deriving DecidableEq

/-- The connections that the requests in the server were read from. -/
structure Origins where
  pending : Option Nat
  queue : List Nat
  worker : Nat

/-- What was done in the name of a client. -/
inductive Act where
  /-- A request was read on a connection and is to be queued. -/
  | queued (connection : Nat) (clientId opId : UInt32)
  /-- A question was answered with the record of a job. -/
  | answered (connection : Nat) (clientId : UInt32) (jobId : Nat)
  /-- The operation of a request was performed: on the upload file of its client, or
  by consuming a cancellation of that client. -/
  | processed (connection : Nat) (clientId opId : UInt32)
  deriving DecidableEq

/-- A message that the worker has sent: for which request, from which connection
that was read, and who had the descriptor. -/
structure Delivery where
  request : Nat
  origin : Nat
  receiver : Option Connection
  message : Message

/-- The server with its connections. -/
structure Network where
  server : Server
  /-- The open descriptors. -/
  owner : Int → Option Connection
  /-- `admin_fd`. -/
  adminFd : Option Int
  /-- What the worker is about to send. -/
  outbox : List Message
  /-- How many connections have been accepted, and how many requests popped. -/
  accepted : Nat
  popped : Nat
  origins : Origins
  /-- The identifiers that `OP_CONNECT` has given out, and to which connection. -/
  assigned : List (UInt32 × Nat)
  /-- The jobs created, and for a request of which connection. -/
  created : List (Nat × Nat)
  acts : List Act
  /-- What the ordinary interface has answered, and on which connection. -/
  replied : List (Nat × Message)
  /-- The clients that the admin has disconnected, and who had the descriptor. -/
  notices : List (Int × Option Connection)
  delivered : List Delivery

/-- Before the first connection. -/
def Network.init (now : Int) : Network where
  server := .init now
  owner := fun _ => none
  adminFd := none
  outbox := []
  accepted := 0
  popped := 0
  origins := ⟨none, [], 0⟩
  assigned := []
  created := []
  acts := []
  replied := []
  notices := []
  delivered := []

/-- `client_fd_by_id`. -/
def clientFdById (state : SharedState) (clientId : Int) : Int :=
  match clientFind state clientId with
  | none => -1
  | some slot => (state.clients.get slot).fd

/-- The largest `int`. -/
abbrev intMax : Nat := 2 ^ 31 - 1

/-! ## The ordinary interface -/

/-- A step of the server, and what it adds to the messages to be sent. -/
def Network.serverStep (net : Network) (e : Event) : Option Network :=
  (e.step net.server).map fun server =>
    { net with
      server := server
      outbox := net.outbox ++ server.replies.drop net.server.replies.length }

/-- A descriptor is given out. -/
def Network.openFd (net : Network) (fd : Int) (admin : Bool) : Network :=
  { net with
    owner := Function.update net.owner fd (some ⟨net.accepted, admin⟩)
    accepted := net.accepted + 1 }

/-- `remove_pollfd`: the descriptor is closed and its client removed. -/
def Network.removePollfd (net : Network) (fd : Int) : Option Network :=
  (net.serverStep (.interface (.close fd))).map fun net =>
    { net with owner := Function.update net.owner fd none }

/-- An answer of the ordinary interface itself. -/
def Network.reply (net : Network) (connection : Nat) (message : Message) : Network :=
  { net with replied := net.replied ++ [(connection, message)] }

/-- `OP_CONNECT`.  No result where `next_client_id++` overflows. -/
def Network.connect (net : Network) (now fd : Int) (addr : CString) (connection : Nat) :
    Option Network :=
  if net.server.shared.nextClientId < intMax then
    let id := UInt32.ofNat net.server.shared.nextClientId
    (net.serverStep (.interface (.connect now fd addr))).map fun net =>
      { net with assigned := (id, connection) :: net.assigned }.reply connection
        (respondText fd id opOk (decimal id.toNat))
  else
    none

/-- `OP_BYE`. -/
def Network.bye (net : Network) (fd : Int) (clientId : UInt32) (connection : Nat) :
    Option Network :=
  (net.reply connection (respondText fd clientId opOk (lit "bye"))).removePollfd fd

/-- A message under an identifier that is not registered. -/
def Network.reject (net : Network) (fd : Int) (clientId : UInt32) (connection : Nat) : Network :=
  net.reply connection (respondText fd clientId opError (lit "client must CONNECT first"))

/-- The payload as `recv_message` leaves it: NULL when it is empty. -/
def received (payload : List UInt8) : Option (List UInt8) :=
  if payload = [] then none else some payload

/-- `OP_JOB_STATUS` and `OP_JOB_RESULT`. -/
def Network.query (net : Network) (fd : Int) (clientId opId : UInt32) (payload : List UInt8)
    (connection : Nat) : Network :=
  let state := net.server.shared
  { net with
    acts := net.acts ++
      match jobQueried state clientId (received payload) with
      | .ok job => [Act.answered connection clientId job.jobId]
      | .error _ => [] }.reply connection
        (respondJobInfo state fd clientId opId (received payload))

/-- Any other operation: a request is built, with its job if it has one. -/
def Network.receive (net : Network) (now fd : Int) (clientId opId : UInt32)
    (payload : List UInt8) (connection : Nat) : Option Network :=
  (net.serverStep (.interface (.receive now fd clientId opId payload))).map fun net' =>
    { net' with
      origins := { net'.origins with pending := some connection }
      created :=
        if isProcessingOp opId then (net.server.shared.nextJobId, connection) :: net'.created
        else net'.created
      acts := net'.acts ++ [.queued connection clientId opId] }

/-- What `ordinary_interface_main` makes of a message. -/
def Network.message (net : Network) (now fd : Int) (addr : CString) (clientId opId : UInt32)
    (payload : List UInt8) (connection : Nat) : Option Network :=
  if opId = opConnect then
    net.connect now fd addr connection
  else if opId = opBye then
    net.bye fd clientId connection
  else if !isRegisteredClient net.server.shared clientId then
    some (net.reject fd clientId connection)
  else if opId = opJobStatus ∨ opId = opJobResult then
    some (net.query fd clientId opId payload connection)
  else
    net.receive now fd clientId opId payload connection

/-! ## Steps -/

/-- A step of the server with its connections. -/
inductive NetworkEvent where
  /-- `accept_client`: `accept` returns a descriptor. -/
  | accept (fd : Int)
  /-- `recv_message` returns 1 on a descriptor, whose address is known. -/
  | message (now fd : Int) (addr : CString) (clientId opId : UInt32) (payload : List UInt8)
  /-- `recv_message` returns 0 or -1. -/
  | hangup (fd : Int)
  /-- `queue_push` of the request built. -/
  | push
  /-- `accept_admin`. -/
  | acceptAdmin (fd : Int)
  /-- The admin connection ends, or times out: all of `remove_pollfd`, as one step. -/
  | hangupAdmin
  | adminDisconnect (clientId : Int)
  | adminCancel (clientId : Int)
  | adminBlock
  | pop
  | begin (now : Int)
  | handle (env : RequestEnv)
  | finish (now elapsed : Int)
  /-- The worker sends the next of its messages. -/
  | transmit

/-- The descriptor on which a step receives `OP_CONNECT`. -/
def NetworkEvent.connectFd : NetworkEvent → Option Int
  | .message _ fd _ _ opId _ => if opId = opConnect then some fd else none
  | _ => none

/-- A step, if the thread concerned is where it begins.  The ordinary interface does
nothing else while it has a request to push, and the worker nothing else while it
has messages to send. -/
def NetworkEvent.step (net : Network) : NetworkEvent → Option Network
  | .accept fd =>
      if net.server.pending.isNone ∧ 0 < fd ∧ net.owner fd = none then
        some (net.openFd fd false)
      else
        none
  | .message now fd addr clientId opId payload =>
      match net.owner fd with
      | some ⟨connection, false⟩ =>
          if net.server.pending.isNone then
            net.message now fd addr clientId opId payload connection
          else
            none
      | _ => none
  | .hangup fd =>
      match net.owner fd with
      | some ⟨_, false⟩ => if net.server.pending.isNone then net.removePollfd fd else none
      | _ => none
  | .push =>
      (net.serverStep (.interface .push)).map fun net =>
        { net with origins := { net.origins with
            pending := none
            queue := net.origins.queue ++ net.origins.pending.toList } }
  | .acceptAdmin fd =>
      if net.adminFd = none ∧ 0 < fd ∧ net.owner fd = none then
        (net.serverStep (.interface (.admin true))).map fun net =>
          { net.openFd fd true with adminFd := some fd }
      else
        none
  | .hangupAdmin =>
      match net.adminFd with
      | none => none
      | some fd => do
          let net ← net.removePollfd fd
          let net ← net.serverStep (.interface (.admin false))
          some { net with adminFd := none }
  | .adminDisconnect clientId =>
      if net.adminFd = none ∨ clientFdById net.server.shared clientId < 0 then
        none
      else
        let fd := clientFdById net.server.shared clientId
        (net.serverStep (.interface (.note (lit "admin disconnected client")))).map fun net =>
          { net with notices := net.notices ++ [(clientId, net.owner fd)] }
  | .adminCancel clientId =>
      if net.adminFd = none then none else net.serverStep (.interface (.cancel clientId))
  | .adminBlock =>
      if net.adminFd = none then
        none
      else
        net.serverStep (.interface (.note (lit "admin blocked address")))
  | .pop =>
      if net.outbox = [] then
        (net.serverStep .pop).map fun net =>
          { net with
            popped := net.popped + 1
            origins := { net.origins with
              queue := net.origins.queue.tail
              worker := net.origins.queue.headD 0 } }
      else
        none
  | .begin now => net.serverStep (.begin now)
  | .handle env =>
      match net.server.worker with
      | .begun r =>
          (net.serverStep (.handle env)).map fun net =>
            { net with acts := net.acts ++ [.processed net.origins.worker r.clientId r.opId] }
      | _ => none
  | .finish now elapsed =>
      if net.outbox = [] then net.serverStep (.finish now elapsed) else none
  | .transmit =>
      match net.outbox with
      | [] => none
      | m :: rest =>
          some { net with
            outbox := rest
            delivered := net.delivered ++
              [⟨net.popped - 1, net.origins.worker, net.owner m.fd, m⟩] }

/-- The network after a list of steps. -/
def network (net : Network) (events : List NetworkEvent) : Option Network :=
  runFrom NetworkEvent.step net events

/-! ## What a step does -/

/-- The network with another shared state. -/
def Network.withShared (net : Network) (shared : SharedState) : Network :=
  { net with server := { net.server with shared := shared } }

/-- The possible steps, with what each of them has checked and what it leaves. -/
inductive StepSpec (net : Network) : NetworkEvent → Network → Prop where
  | accept (fd : Int) (hpos : 0 < fd) (hfree : net.owner fd = none) :
      StepSpec net (.accept fd) (net.openFd fd false)
  | connect (now fd : Int) (addr : CString) (clientId : UInt32) (payload : List UInt8)
      (connection : Nat) (howner : net.owner fd = some ⟨connection, false⟩)
      (hmax : net.server.shared.nextClientId < intMax) (message : Message) :
      StepSpec net (.message now fd addr clientId opConnect payload)
        { net.withShared (connectClient now fd addr net.server.shared) with
          assigned :=
            (UInt32.ofNat net.server.shared.nextClientId, connection) :: net.assigned
          replied := net.replied ++ [(connection, message)] }
  | bye (now fd : Int) (addr : CString) (clientId : UInt32) (payload : List UInt8)
      (connection : Nat) (howner : net.owner fd = some ⟨connection, false⟩) (message : Message) :
      StepSpec net (.message now fd addr clientId opBye payload)
        { net.withShared (clientRemoveFd fd net.server.shared) with
          owner := Function.update net.owner fd none
          replied := net.replied ++ [(connection, message)] }
  | reject (now fd : Int) (addr : CString) (clientId opId : UInt32) (payload : List UInt8)
      (connection : Nat) (howner : net.owner fd = some ⟨connection, false⟩)
      (hop : opId ≠ opConnect ∧ opId ≠ opBye)
      (hunknown : isRegisteredClient net.server.shared clientId = false) :
      StepSpec net (.message now fd addr clientId opId payload) (net.reject fd clientId connection)
  | query (now fd : Int) (addr : CString) (clientId opId : UInt32) (payload : List UInt8)
      (connection : Nat) (howner : net.owner fd = some ⟨connection, false⟩)
      (hregistered : isRegisteredClient net.server.shared clientId = true)
      (hop : opId = opJobStatus ∨ opId = opJobResult) :
      StepSpec net (.message now fd addr clientId opId payload)
        (net.query fd clientId opId payload connection)
  | receive (now fd : Int) (addr : CString) (clientId opId : UInt32) (payload : List UInt8)
      (connection : Nat) (howner : net.owner fd = some ⟨connection, false⟩)
      (hpending : net.server.pending = none)
      (hregistered : isRegisteredClient net.server.shared clientId = true)
      (hop : opId ≠ opConnect ∧ opId ≠ opBye) :
      StepSpec net (.message now fd addr clientId opId payload)
        { net with
          server := { net.server with
            shared := (receiveRequest now fd clientId opId payload net.server.shared).2
            pending := some (receiveRequest now fd clientId opId payload net.server.shared).1 }
          origins := { net.origins with pending := some connection }
          created :=
            if isProcessingOp opId then
              (net.server.shared.nextJobId, connection) :: net.created
            else net.created
          acts := net.acts ++ [.queued connection clientId opId] }
  | hangup (fd : Int) (connection : Nat) (howner : net.owner fd = some ⟨connection, false⟩) :
      StepSpec net (.hangup fd)
        { net.withShared (clientRemoveFd fd net.server.shared) with
          owner := Function.update net.owner fd none }
  | push (r : Request) (hpending : net.server.pending = some r) :
      StepSpec net .push
        { net with
          server := { net.server with
            shared := { net.server.shared with queueDepth := net.server.shared.queueDepth + 1 }
            queue := net.server.queue ++ [r]
            pending := none }
          origins := { net.origins with
            pending := none
            queue := net.origins.queue ++ net.origins.pending.toList } }
  | acceptAdmin (fd : Int) (hadmin : net.adminFd = none) (hpos : 0 < fd)
      (hfree : net.owner fd = none) :
      StepSpec net (.acceptAdmin fd)
        { (net.withShared { net.server.shared with adminConnected := true }).openFd fd true with
          adminFd := some fd }
  | hangupAdmin (fd : Int) (hadmin : net.adminFd = some fd) :
      StepSpec net .hangupAdmin
        { net.withShared { clientRemoveFd fd net.server.shared with adminConnected := false } with
          owner := Function.update net.owner fd none
          adminFd := none }
  | adminDisconnect (clientId : Int) (hfd : 0 ≤ clientFdById net.server.shared clientId) :
      StepSpec net (.adminDisconnect clientId)
        { net.withShared (historyAdd net.server.shared (lit "admin disconnected client")) with
          notices := net.notices ++
            [(clientId, net.owner (clientFdById net.server.shared clientId))] }
  | adminCancel (clientId : Int) :
      StepSpec net (.adminCancel clientId) (net.withShared (adminCancel clientId net.server.shared))
  | adminBlock :
      StepSpec net .adminBlock
        (net.withShared (historyAdd net.server.shared (lit "admin blocked address")))
  | pop (r : Request) (rest : List Request) (hworker : net.server.worker = .idle)
      (hqueue : net.server.queue = r :: rest) (houtbox : net.outbox = []) :
      StepSpec net .pop
        { net with
          server := { net.server with
            shared := { net.server.shared with queueDepth := net.server.shared.queueDepth - 1 }
            queue := rest
            worker := .popped r }
          popped := net.popped + 1
          origins := { net.origins with
            queue := net.origins.queue.tail
            worker := net.origins.queue.headD 0 } }
  | begin (now : Int) (r : Request) (hworker : net.server.worker = .popped r) :
      StepSpec net (.begin now)
        { net with
          server := { net.server with
            shared := beginRequest now r net.server.shared
            worker := .begun r } }
  | handle (env : RequestEnv) (r : Request) (state : SharedState) (h : Handled)
      (hworker : net.server.worker = .begun r)
      (hhandle : handleRequest env r net.server.shared = some (state, h)) :
      StepSpec net (.handle env)
        { net with
          server := { net.server with
            shared := state
            worker := .handled r h
            replies := net.server.replies ++ h.messages }
          outbox := net.outbox ++ h.messages
          acts := net.acts ++ [.processed net.origins.worker r.clientId r.opId] }
  | finish (now elapsed : Int) (r : Request) (h : Handled)
      (hworker : net.server.worker = .handled r h) (houtbox : net.outbox = []) :
      StepSpec net (.finish now elapsed)
        { net with
          server := { net.server with
            shared := (finishRequest now elapsed r h net.server.shared).1
            worker := .idle
            replies := net.server.replies ++ h.reply r }
          outbox := h.reply r }
  | transmit (m : Message) (rest : List Message) (houtbox : net.outbox = m :: rest) :
      StepSpec net .transmit
        { net with
          outbox := rest
          delivered := net.delivered ++
            [⟨net.popped - 1, net.origins.worker, net.owner m.fd, m⟩] }

/-- Steps of the interfaces send nothing in the worker's name. -/
theorem Network.serverStep_interface {net net' : Network} {e : InterfaceEvent}
    (h : net.serverStep (.interface e) = some net') :
    ∃ server, e.step net.server = some server ∧ net' = { net with server := server } := by
  obtain ⟨server, hserver, rfl⟩ := Option.map_eq_some_iff.mp h
  obtain ⟨-, -, hreplies⟩ := InterfaceEvent.step_frame hserver
  exact ⟨server, hserver, by rw [hreplies, List.drop_length, List.append_nil]⟩

theorem Network.removePollfd_eq {net net' : Network} {fd : Int}
    (h : net.removePollfd fd = some net') :
    net' = { net.withShared (clientRemoveFd fd net.server.shared) with
      owner := Function.update net.owner fd none } := by
  obtain ⟨middle, hstep, rfl⟩ := Option.map_eq_some_iff.mp h
  obtain ⟨server, hserver, rfl⟩ := Network.serverStep_interface hstep
  obtain rfl := Option.some.inj hserver
  rfl

/-- The steps of a message. -/
theorem Network.message_spec {net net' : Network} {now fd : Int} {addr : CString}
    {clientId opId : UInt32} {payload : List UInt8} {connection : Nat}
    (howner : net.owner fd = some ⟨connection, false⟩) (hpending : net.server.pending = none)
    (h : net.message now fd addr clientId opId payload connection = some net') :
    StepSpec net (.message now fd addr clientId opId payload) net' := by
  unfold message at h
  -- the branches in the order of the dispatch
  split at h
  · next hop =>
      subst hop
      unfold connect at h
      split at h
      · next hmax =>
          obtain ⟨middle, hstep, rfl⟩ := Option.map_eq_some_iff.mp h
          obtain ⟨server, hserver, rfl⟩ := Network.serverStep_interface hstep
          obtain rfl := Option.some.inj hserver
          exact .connect now fd addr clientId payload connection howner hmax _
      · cases h
  · next hconnect =>
      split at h
      · next hop =>
          subst hop
          obtain rfl := Network.removePollfd_eq h
          exact .bye now fd addr clientId payload connection howner _
      · next hbye =>
          split at h
          · next hunknown =>
              obtain rfl := Option.some.inj h
              exact .reject now fd addr clientId opId payload connection howner ⟨hconnect, hbye⟩
                (by simpa using hunknown)
          · next hknown =>
              have hregistered : isRegisteredClient net.server.shared clientId = true := by
                simpa using hknown
              split at h
              · next hop =>
                  obtain rfl := Option.some.inj h
                  exact .query now fd addr clientId opId payload connection howner hregistered hop
              · obtain ⟨middle, hstep, rfl⟩ := Option.map_eq_some_iff.mp h
                obtain ⟨server, hserver, rfl⟩ := Network.serverStep_interface hstep
                simp only [InterfaceEvent.step, hpending, hregistered, Option.isNone_none,
                  Bool.and_self, if_true, Option.some.injEq] at hserver
                obtain rfl := hserver
                exact .receive now fd addr clientId opId payload connection howner hpending
                  hregistered ⟨hconnect, hbye⟩

theorem NetworkEvent.step_spec {net net' : Network} {e : NetworkEvent}
    (h : e.step net = some net') : StepSpec net e net' := by
  cases e with
  | accept fd =>
      simp only [step] at h
      split at h
      · next hguard =>
          obtain rfl := Option.some.inj h
          exact .accept fd hguard.2.1 hguard.2.2
      · cases h
  | message now fd addr clientId opId payload =>
      simp only [step] at h
      split at h
      · next connection howner =>
          split at h
          · next hpending =>
              exact Network.message_spec howner (Option.isNone_iff_eq_none.mp hpending) h
          · cases h
      · cases h
  | hangup fd =>
      simp only [step] at h
      split at h
      · next connection howner =>
          split at h
          · obtain rfl := Network.removePollfd_eq h
            exact .hangup fd connection howner
          · cases h
      · cases h
  | push =>
      obtain ⟨middle, hstep, rfl⟩ := Option.map_eq_some_iff.mp h
      obtain ⟨server, hserver, rfl⟩ := Network.serverStep_interface hstep
      obtain ⟨r, hr, rfl⟩ := Option.map_eq_some_iff.mp hserver
      exact .push r hr
  | acceptAdmin fd =>
      simp only [step] at h
      split at h
      · next hguard =>
          obtain ⟨middle, hstep, rfl⟩ := Option.map_eq_some_iff.mp h
          obtain ⟨server, hserver, rfl⟩ := Network.serverStep_interface hstep
          obtain rfl := Option.some.inj hserver
          exact .acceptAdmin fd hguard.1 hguard.2.1 hguard.2.2
      · cases h
  | hangupAdmin =>
      simp only [step] at h
      split at h
      · cases h
      · next fd hadmin =>
          obtain ⟨first, hfirst, h⟩ := Option.bind_eq_some_iff.mp h
          obtain ⟨second, hsecond, h⟩ := Option.bind_eq_some_iff.mp h
          obtain rfl := Network.removePollfd_eq hfirst
          obtain ⟨server, hserver, rfl⟩ := Network.serverStep_interface hsecond
          obtain rfl := Option.some.inj hserver
          obtain rfl := Option.some.inj h
          exact .hangupAdmin fd hadmin
  | adminDisconnect clientId =>
      simp only [step] at h
      split at h
      · cases h
      · next hguard =>
          obtain ⟨middle, hstep, rfl⟩ := Option.map_eq_some_iff.mp h
          obtain ⟨server, hserver, rfl⟩ := Network.serverStep_interface hstep
          obtain rfl := Option.some.inj hserver
          exact .adminDisconnect clientId (by omega)
  | adminCancel clientId =>
      simp only [step] at h
      split at h
      · cases h
      · obtain ⟨server, hserver, rfl⟩ := Network.serverStep_interface h
        obtain rfl := Option.some.inj hserver
        exact .adminCancel clientId
  | adminBlock =>
      simp only [step] at h
      split at h
      · cases h
      · obtain ⟨server, hserver, rfl⟩ := Network.serverStep_interface h
        obtain rfl := Option.some.inj hserver
        exact .adminBlock
  | pop =>
      simp only [step] at h
      split at h
      · next houtbox =>
          obtain ⟨middle, hstep, rfl⟩ := Option.map_eq_some_iff.mp h
          obtain ⟨server, hserver, rfl⟩ := Option.map_eq_some_iff.mp hstep
          cases Event.step_spec hserver with
          | pop r rest hworker hqueue =>
              simp only [List.drop_length, List.append_nil]
              exact .pop r rest hworker hqueue houtbox
      · cases h
  | begin now =>
      obtain ⟨server, hserver, rfl⟩ := Option.map_eq_some_iff.mp h
      cases Event.step_spec hserver with
      | begin _ r hworker =>
          simp only [List.drop_length, List.append_nil]
          exact .begin now r hworker
  | handle env =>
      simp only [step] at h
      split at h
      · next r hworker =>
          obtain ⟨middle, hstep, rfl⟩ := Option.map_eq_some_iff.mp h
          obtain ⟨server, hserver, rfl⟩ := Option.map_eq_some_iff.mp hstep
          simp only [Event.step, hworker] at hserver
          obtain ⟨⟨state, handled⟩, hhandle, rfl⟩ := Option.map_eq_some_iff.mp hserver
          simp only [List.drop_left]
          exact .handle env r state handled hworker hhandle
      · cases h
  | finish now elapsed =>
      simp only [step] at h
      split at h
      · next houtbox =>
          obtain ⟨server, hserver, rfl⟩ := Option.map_eq_some_iff.mp h
          cases Event.step_spec hserver with
          | finish _ _ r handled hworker =>
              simp only [finishRequest, List.drop_left, houtbox, List.nil_append]
              exact .finish now elapsed r handled hworker houtbox
      · cases h
  | transmit =>
      simp only [step] at h
      split at h
      · cases h
      · next m rest houtbox =>
          obtain rfl := Option.some.inj h
          exact .transmit m rest houtbox

/-! ## Requests and where they come from -/

/-- The requests between `ordinary_interface_main` and their last reply. -/
def Network.outstanding (net : Network) : List Request :=
  net.server.pending.toList ++ net.server.queue ++ net.server.worker.request.toList

/-- `P` holds of every outstanding request and the connection it was read from. -/
structure Tagged (P : Request → Nat → Prop) (net : Network) : Prop where
  pending : ∀ r, net.server.pending = some r → ∃ c, net.origins.pending = some c ∧ P r c
  queue : List.Forall₂ P net.server.queue net.origins.queue
  worker : ∀ r, net.server.worker.request = some r → P r net.origins.worker

theorem tagged_init (P : Request → Nat → Prop) (now : Int) : Tagged P (.init now) where
  pending r h := by cases h
  queue := .nil
  worker r h := by cases h

theorem mem_outstanding_of_pending {net : Network} {r : Request}
    (h : net.server.pending = some r) : r ∈ net.outstanding := by
  simp [Network.outstanding, h]

theorem mem_outstanding_of_queue {net : Network} {r : Request} (h : r ∈ net.server.queue) :
    r ∈ net.outstanding := by
  simp [Network.outstanding, h]

theorem mem_outstanding_of_worker {net : Network} {r : Request}
    (h : net.server.worker.request = some r) : r ∈ net.outstanding := by
  simp [Network.outstanding, h]

/-- The same requests from the same connections. -/
theorem Tagged.mono {P Q : Request → Nat → Prop} {net net' : Network} (h : Tagged P net)
    (himp : ∀ r ∈ net.outstanding, ∀ c, P r c → Q r c)
    (hpending : net'.server.pending = net.server.pending)
    (hqueue : net'.server.queue = net.server.queue)
    (hworker : net'.server.worker.request = net.server.worker.request ∨
      net'.server.worker.request = none)
    (horigins : net'.origins = net.origins) : Tagged Q net' := by
  refine ⟨fun r hr => ?_, ?_, fun r hr => ?_⟩
  · rw [hpending] at hr
    obtain ⟨c, hc, hP⟩ := h.pending r hr
    exact ⟨c, horigins ▸ hc, himp r (mem_outstanding_of_pending hr) c hP⟩
  · rw [hqueue, horigins]
    exact forall₂_imp_of_mem h.queue fun r hr c _ => himp r (mem_outstanding_of_queue hr) c
  · rcases hworker with hworker | hworker
    · rw [hworker] at hr
      rw [horigins]
      exact himp r (mem_outstanding_of_worker hr) _ (h.worker r hr)
    · rw [hworker] at hr
      cases hr

/-- A step hands the requests on with their connections; a request that is built
comes from the connection it was read on. -/
theorem Tagged.step {P Q : Request → Nat → Prop} {net net' : Network} {e : NetworkEvent}
    (h : Tagged P net) (hstep : StepSpec net e net')
    (himp : ∀ r ∈ net.outstanding, ∀ c, P r c → Q r c)
    (hbuilt : ∀ now fd addr clientId opId payload c,
      e = .message now fd addr clientId opId payload → net.owner fd = some ⟨c, false⟩ →
      isRegisteredClient net.server.shared clientId = true → opId ≠ opConnect ∧ opId ≠ opBye →
      Q (receiveRequest now fd clientId opId payload net.server.shared).1 c) :
    Tagged Q net' := by
  cases hstep with
  | receive now fd addr clientId opId payload connection howner hpending hregistered hop =>
      refine ⟨fun r hr => ?_, ?_, fun r hr => ?_⟩
      · obtain rfl := Option.some.inj hr
        exact ⟨connection, rfl, hbuilt now fd addr clientId opId payload connection rfl howner
          hregistered hop⟩
      · exact forall₂_imp_of_mem h.queue fun r hr c _ => himp r (mem_outstanding_of_queue hr) c
      · exact himp r (mem_outstanding_of_worker hr) _ (h.worker r hr)
  | push r hpending =>
      obtain ⟨c, hc, hP⟩ := h.pending r hpending
      refine ⟨fun _ hnone => (by cases hnone), ?_, fun r hr => ?_⟩
      · show List.Forall₂ Q (net.server.queue ++ [r])
          (net.origins.queue ++ net.origins.pending.toList)
        rw [hc]
        refine List.rel_append ?_ (.cons (himp r (mem_outstanding_of_pending hpending) c hP) .nil)
        exact forall₂_imp_of_mem h.queue fun r hr c _ => himp r (mem_outstanding_of_queue hr) c
      · exact himp r (mem_outstanding_of_worker hr) _ (h.worker r hr)
  | pop r rest hworker hqueue houtbox =>
      have hall := forall₂_imp_of_mem h.queue fun r hr c _ => himp r (mem_outstanding_of_queue hr) c
      rw [hqueue] at hall
      refine ⟨fun r hr => ?_, ?_, fun r' hr' => ?_⟩
      · obtain ⟨c, hc, hP⟩ := h.pending r hr
        exact ⟨c, hc, himp r (mem_outstanding_of_pending hr) c hP⟩
      · show List.Forall₂ Q rest net.origins.queue.tail
        cases horigins : net.origins.queue with
        | nil => simp [horigins] at hall
        | cons c cs =>
            rw [horigins] at hall
            exact (List.forall₂_cons.mp hall).2
      · obtain rfl := Option.some.inj hr'
        show Q r (net.origins.queue.headD 0)
        cases horigins : net.origins.queue with
        | nil => simp [horigins] at hall
        | cons c cs =>
            rw [horigins] at hall
            exact (List.forall₂_cons.mp hall).1
  | begin now r hworker => exact h.mono himp rfl rfl (Or.inl (by rw [hworker]; rfl)) rfl
  | handle env r state h' hworker hhandle =>
      exact h.mono himp rfl rfl (Or.inl (by rw [hworker]; rfl)) rfl
  | finish now elapsed r h' hworker houtbox => exact h.mono himp rfl rfl (Or.inr rfl) rfl
  -- no other step touches a request
  | _ => exact h.mono himp rfl rfl (Or.inl rfl) rfl

theorem receiveRequest_fd (now fd : Int) (clientId opId : UInt32) (payload : List UInt8)
    (state : SharedState) :
    (receiveRequest now fd clientId opId payload state).1.fd = fd ∧
      (receiveRequest now fd clientId opId payload state).1.clientId = clientId := by
  unfold receiveRequest
  cases isProcessingOp opId with
  | true => exact ⟨rfl, rfl⟩
  | false => exact ⟨rfl, rfl⟩

end SqlCodeGenerator
