import SqlCodeGenerator.AdminMessages

/-!
# The admin interface

`admin_interface_main` of `server.c` with `accept_admin` and `remove_pollfd`, beside
the other threads of the server.  A round of its loop waits in `poll`, checks the
time of the last message, and goes through the descriptors; each entry that it comes
to is a step.

* `ServiceEvent.outcome`: a step.  It has no result where the thread is not where the
  step begins, and is a fault where it leaves the array `fds`.
* `adminInterface_oneAdmin`: in every run there is at most one admin, and no step
  leaves the array.
-/

namespace SqlCodeGenerator

open Library

/-! ## The array of descriptors -/

/-- A `struct pollfd`: is one of the events that the loop looks at set? -/
structure PollFd where
  fd : Int
  ready : Bool
  deriving DecidableEq

/-- `struct pollfd fds[2]`. -/
abbrev PollFds := FixedArray PollFd 2

/-- An entry, if the index is in range. -/
def PollFds.read (fds : PollFds) (i : Nat) : Option PollFd :=
  if h : i < 2 then some (fds.get ⟨i, h⟩) else none

/-- The array with an entry written, if the index is in range. -/
def PollFds.write (fds : PollFds) (i : Nat) (entry : PollFd) : Option PollFds :=
  if h : i < 2 then some (fds.set ⟨i, h⟩ entry) else none

/-- The `memmove` of `remove_pollfd`, if it stays in range. -/
def PollFds.shift (fds : PollFds) (nfds i : Nat) : Option PollFds :=
  if i + 1 < nfds then
    if nfds ≤ 2 then
      some (.tabulate fun k =>
        if h : i ≤ k.val ∧ k.val + 1 < 2 then fds.get ⟨k.val + 1, h.2⟩ else fds.get k)
    else
      none
  else
    some fds

/-- What `poll` writes into the first entries. -/
def PollFds.polled (fds : PollFds) (nfds : Nat) (ready : Fin 2 → Bool) : PollFds :=
  .tabulate fun k => if k.val < nfds then { fds.get k with ready := ready k } else fds.get k

/-! ## The server with its admin interface -/

/-- Where the admin thread is. -/
inductive AdminPoint where
  /-- Before `poll`. -/
  | polling
  /-- In the loop over the descriptors, at an index. -/
  | scanning (i : Nat)

/-- The server with the variables of its admin thread. -/
structure Service where
  server : Server
  blocked : Blocklist
  fds : PollFds
  nfds : Nat
  adminFd : Int
  adminLast : Int
  point : AdminPoint
  /-- The messages that the admin thread has sent, in order. -/
  sent : List Message
  /-- The descriptors that it has shut down. -/
  shutDown : List Int

/-- The listening socket of the admin port, and `admin_timeout_sec`. -/
structure AdminConfig where
  listenFd : Int
  timeoutSec : Int

/-- The size that `accept_admin` compares with. -/
abbrev maxFds : Nat := 256

/-- Before the first round. -/
def Service.init (cfg : AdminConfig) (now : Int) : Service where
  server := .init now
  blocked := .empty
  fds := .tabulate fun k => ⟨if k = 0 then cfg.listenFd else 0, false⟩
  nfds := 1
  adminFd := -1
  adminLast := 0
  point := .polling
  sent := []
  shutDown := []

/-- The service with another shared state. -/
def Service.withShared (s : Service) (shared : SharedState) : Service :=
  { s with server := { s.server with shared := shared } }

/-- `g_state->admin_connected = …`. -/
def Service.setConnected (s : Service) (connected : Bool) : Service :=
  s.withShared { s.server.shared with adminConnected := connected }

/-- `remove_pollfd`. -/
def Service.removePollfd (s : Service) (i : Nat) : Outcome Unit Service :=
  match s.fds.read i, s.fds.shift s.nfds i with
  | some entry, some fds =>
      .ok { s.withShared (clientRemoveFd entry.fd s.server.shared) with
        fds := fds
        nfds := s.nfds - 1 }
  | _, _ => .fault

/-- The admin thread forgets its admin. -/
def Service.dropAdmin (s : Service) : Service := { s.setConnected false with adminFd := -1 }

/-- `accept_admin` with the descriptor that `accept` returns. -/
def Service.acceptAdmin (s : Service) (now fd : Int) : Outcome Unit Service :=
  if s.adminFd > 0 then
    .ok { s with sent := s.sent ++
      [respondText fd 0 opError (lit "another admin client is already connected")] }
  else if s.nfds ≥ maxFds then
    .ok s
  else
    match s.fds.write s.nfds ⟨fd, false⟩ with
    | none => .fault
    | some fds =>
        .ok { s.setConnected true with
          fds := fds
          nfds := s.nfds + 1
          adminFd := fd
          adminLast := now }

/-- The check of the time since the last message. -/
def Service.checkTimeout (cfg : AdminConfig) (now : Int) (s : Service) : Outcome Unit Service :=
  if s.adminFd > 0 ∧ now - s.adminLast > cfg.timeoutSec then
    match (List.finRange 2).find? fun i =>
        decide (i.val < s.nfds ∧ (s.fds.get i).fd = s.adminFd) with
    | none => .ok s.dropAdmin
    | some i => (s.removePollfd i).bind fun s => .ok s.dropAdmin
  else
    .ok s

/-- `handle_admin_message` on a descriptor. -/
def Service.handleMessage (s : Service) (now fd : Int) (opId : UInt32) (payload : List UInt8) :
    Service :=
  let (a, answer) := handleAdminMessage now fd opId (received payload)
    ⟨s.server.shared, s.blocked, s.adminFd, s.adminLast⟩
  { s.withShared a.shared with
    blocked := a.blocked
    adminFd := a.adminFd
    adminLast := a.adminLast
    sent := s.sent ++ answer.messages
    shutDown := s.shutDown ++ answer.shutdown.toList }

/-! ## Steps -/

/-- A step of the worker or of the ordinary interface, or of the admin thread. -/
inductive ServiceEvent where
  | server (e : Event)
  /-- `poll` returns, with the descriptors that are ready. -/
  | poll (now : Int) (ready : Fin 2 → Bool)
  /-- The entry is not ready, or there is none left. -/
  | next
  /-- `accept` on the listening socket fails, or returns a descriptor that was not
  open. -/
  | accept (now : Int) (fd : Option Int)
  /-- `recv_message` returns 0 or -1. -/
  | receiveFails
  | receive (now : Int) (opId : UInt32) (payload : List UInt8)

/-- The steps of the other threads.  `next_client_id++` has no result where it
overflows. -/
def Event.ordinary (s : Server) : Event → Bool
  | .interface (.admin _) => false
  | .interface (.cancel _) => false
  | .interface (.note _) => false
  | .interface (.connect _ _ _) => decide (s.shared.nextClientId < intMax)
  | _ => true

/-- The entry that the loop has come to, if it is ready and is the listening socket or
not. -/
def Service.atEntry (cfg : AdminConfig) (s : Service) (listening : Bool) :
    Outcome Unit (Nat × PollFd) :=
  match s.point with
  | .polling => .error ()
  | .scanning i =>
      if i < s.nfds then
        match s.fds.read i with
        | none => .fault
        | some entry =>
            if entry.ready = true ∧ decide (entry.fd = cfg.listenFd) = listening then
              .ok (i, entry)
            else
              .error ()
      else
        .error ()

/-- A step. -/
def ServiceEvent.outcome (cfg : AdminConfig) (s : Service) : ServiceEvent → Outcome Unit Service
  | .server e =>
      if e.ordinary s.server then
        match e.step s.server with
        | none => .error ()
        | some after => .ok { s with server := after }
      else
        .error ()
  | .poll now ready =>
      match s.point with
      | .scanning _ => .error ()
      | .polling =>
          if s.nfds ≤ 2 then
            (Service.checkTimeout cfg now { s with fds := s.fds.polled s.nfds ready }).bind
              fun s => .ok { s with point := .scanning 0 }
          else
            .fault
  | .next =>
      match s.point with
      | .polling => .error ()
      | .scanning i =>
          if i < s.nfds then
            match s.fds.read i with
            | none => .fault
            | some entry =>
                if entry.ready then .error () else .ok { s with point := .scanning (i + 1) }
          else
            .ok { s with point := .polling }
  | .accept now fd => do
      let (i, _) ← s.atEntry cfg true
      match fd with
      | none => .ok { s with point := .scanning (i + 1) }
      | some fd =>
          if 0 < fd ∧ fd ≠ cfg.listenFd ∧ fd ≠ s.adminFd then
            (s.acceptAdmin now fd).bind fun s => .ok { s with point := .scanning (i + 1) }
          else
            .error ()
  | .receiveFails => do
      let (i, entry) ← s.atEntry cfg false
      let s := if entry.fd = s.adminFd then s.dropAdmin else s
      (s.removePollfd i).bind fun s => .ok { s with point := .scanning i }
  | .receive now opId payload => do
      let (i, entry) ← s.atEntry cfg false
      let s := s.handleMessage now entry.fd opId payload
      if s.adminFd < 0 then
        (s.removePollfd i).bind fun s => .ok { s with point := .scanning i }
      else
        .ok { s with point := .scanning (i + 1) }

/-- A step that leaves a state. -/
def ServiceEvent.step (cfg : AdminConfig) (s : Service) (e : ServiceEvent) : Option Service :=
  match e.outcome cfg s with
  | .ok s' => some s'
  | _ => none

theorem ServiceEvent.step_eq_some_iff {cfg : AdminConfig} {s s' : Service} {e : ServiceEvent} :
    e.step cfg s = some s' ↔ e.outcome cfg s = .ok s' := by
  unfold step
  cases e.outcome cfg s with
  | ok after => exact ⟨fun h => congrArg Outcome.ok (Option.some.inj h), fun h => congrArg some
      (Outcome.ok.inj h)⟩
  | error _ => exact ⟨fun h => (by cases h), fun h => (by cases h)⟩
  | fault => exact ⟨fun h => (by cases h), fun h => (by cases h)⟩

/-- A step of the other threads. -/
theorem ServiceEvent.step_server {cfg : AdminConfig} {s s' : Service} {e : Event}
    (h : ServiceEvent.step cfg s (.server e) = some s') :
    e.ordinary s.server = true ∧ ∃ after, e.step s.server = some after ∧
      s' = { s with server := after } := by
  have hok := step_eq_some_iff.mp h
  unfold outcome at hok
  dsimp only at hok
  split at hok
  · next hordinary =>
      split at hok
      · cases hok
      · next after hstep => exact ⟨hordinary, after, hstep, (Outcome.ok.inj hok).symm⟩
  · cases hok

/-- What a step can do. -/
inductive ServiceStep (cfg : AdminConfig) (s : Service) : ServiceEvent → Service → Prop where
  | server (e : Event) (after : Server) (hordinary : e.ordinary s.server = true)
      (hstep : e.step s.server = some after) :
      ServiceStep cfg s (.server e) { s with server := after }
  | poll (now : Int) (ready : Fin 2 → Bool) (s' : Service) (hpoint : s.point = .polling)
      (hcheck : Service.checkTimeout cfg now { s with fds := s.fds.polled s.nfds ready } = .ok s') :
      ServiceStep cfg s (.poll now ready) { s' with point := .scanning 0 }
  /-- The loop passes an entry, or comes to its end. -/
  | next (point : AdminPoint) : ServiceStep cfg s .next { s with point := point }
  | acceptFails (now : Int) (i : Nat) (entry : PollFd)
      (hentry : s.atEntry cfg true = .ok (i, entry)) :
      ServiceStep cfg s (.accept now none) { s with point := .scanning (i + 1) }
  | accept (now fd : Int) (i : Nat) (entry : PollFd) (s' : Service)
      (hentry : s.atEntry cfg true = .ok (i, entry))
      (hfd : 0 < fd ∧ fd ≠ cfg.listenFd ∧ fd ≠ s.adminFd)
      (haccept : s.acceptAdmin now fd = .ok s') :
      ServiceStep cfg s (.accept now (some fd)) { s' with point := .scanning (i + 1) }
  | receiveFails (i : Nat) (entry : PollFd) (s' : Service)
      (hentry : s.atEntry cfg false = .ok (i, entry))
      (hremove : (if entry.fd = s.adminFd then s.dropAdmin else s).removePollfd i = .ok s') :
      ServiceStep cfg s .receiveFails { s' with point := .scanning i }
  /-- The admin is gone after its message. -/
  | bye (now : Int) (opId : UInt32) (payload : List UInt8) (i : Nat) (entry : PollFd)
      (s' : Service) (hentry : s.atEntry cfg false = .ok (i, entry))
      (hgone : (s.handleMessage now entry.fd opId payload).adminFd < 0)
      (hremove : (s.handleMessage now entry.fd opId payload).removePollfd i = .ok s') :
      ServiceStep cfg s (.receive now opId payload) { s' with point := .scanning i }
  | receive (now : Int) (opId : UInt32) (payload : List UInt8) (i : Nat) (entry : PollFd)
      (hentry : s.atEntry cfg false = .ok (i, entry))
      (hstays : ¬ (s.handleMessage now entry.fd opId payload).adminFd < 0) :
      ServiceStep cfg s (.receive now opId payload)
        { s.handleMessage now entry.fd opId payload with point := .scanning (i + 1) }

theorem ServiceEvent.step_spec {cfg : AdminConfig} {s s' : Service} {e : ServiceEvent}
    (h : e.step cfg s = some s') : ServiceStep cfg s e s' := by
  have hok := step_eq_some_iff.mp h
  cases e with
  | server e =>
      obtain ⟨hordinary, after, hstep, rfl⟩ := step_server h
      exact .server e after hordinary hstep
  | poll now ready =>
      unfold outcome at hok
      dsimp only at hok
      split at hok
      · cases hok
      next hpoint =>
        split at hok
        · obtain ⟨middle, hcheck, hdone⟩ := Outcome.bind_eq_ok_iff.mp hok
          obtain rfl := Outcome.ok.inj hdone
          exact .poll now ready middle hpoint hcheck
        · cases hok
  | next =>
      unfold outcome at hok
      dsimp only at hok
      split at hok
      · cases hok
      split at hok
      · split at hok
        · cases hok
        split at hok
        · cases hok
        · obtain rfl := Outcome.ok.inj hok
          exact .next _
      · obtain rfl := Outcome.ok.inj hok
        exact .next _
  | accept now fd =>
      obtain ⟨⟨i, entry⟩, hentry, hok⟩ := Outcome.bind_eq_ok_iff.mp hok
      dsimp only at hok
      cases fd with
      | none =>
          obtain rfl := Outcome.ok.inj hok
          exact .acceptFails now i entry hentry
      | some fd =>
          dsimp only at hok
          split at hok
          · next hfd =>
              obtain ⟨middle, haccept, hdone⟩ := Outcome.bind_eq_ok_iff.mp hok
              obtain rfl := Outcome.ok.inj hdone
              exact .accept now fd i entry middle hentry hfd haccept
          · cases hok
  | receiveFails =>
      obtain ⟨⟨i, entry⟩, hentry, hok⟩ := Outcome.bind_eq_ok_iff.mp hok
      obtain ⟨middle, hremove, hdone⟩ := Outcome.bind_eq_ok_iff.mp hok
      obtain rfl := Outcome.ok.inj hdone
      exact .receiveFails i entry middle hentry hremove
  | receive now opId payload =>
      obtain ⟨⟨i, entry⟩, hentry, hok⟩ := Outcome.bind_eq_ok_iff.mp hok
      dsimp only at hok
      split at hok
      · next hgone =>
          obtain ⟨middle, hremove, hdone⟩ := Outcome.bind_eq_ok_iff.mp hok
          obtain rfl := Outcome.ok.inj hdone
          exact .bye now opId payload i entry middle hentry hgone hremove
      · next hstays =>
          obtain rfl := Outcome.ok.inj hok
          exact .receive now opId payload i entry hentry hstays

/-! ## The other threads -/

/-- The same words of the admin thread in the shared state. -/
def SameAdmin (state state' : SharedState) : Prop :=
  state'.adminConnected = state.adminConnected ∧ state'.cancelClientId = state.cancelClientId

theorem sameAdmin_clientRemoveFd (fd : Int) (state : SharedState) :
    SameAdmin state (clientRemoveFd fd state) := by
  obtain ⟨_, _, hframe⟩ := clientRemoveFd_frame fd state
  rw [hframe]
  exact ⟨rfl, rfl⟩

theorem sameAdmin_connectClient (now fd : Int) (addr : CString) (state : SharedState) :
    SameAdmin state (connectClient now fd addr state) := by
  obtain ⟨_, _, _, hframe⟩ := connectClient_frame now fd addr state
  rw [hframe]
  exact ⟨rfl, rfl⟩

theorem sameAdmin_receiveRequest (now fd : Int) (clientId opId : UInt32) (payload : List UInt8)
    (state : SharedState) :
    SameAdmin state (receiveRequest now fd clientId opId payload state).2 := by
  unfold receiveRequest
  cases isProcessingOp opId with
  | true => exact ⟨rfl, rfl⟩
  | false => exact ⟨rfl, rfl⟩

theorem sameAdmin_beginRequest (now : Int) (r : Request) (state : SharedState) :
    SameAdmin state (beginRequest now r state) := by
  obtain ⟨_, _, _, _, _, hframe⟩ := beginRequest_frame now r state
  rw [hframe]
  exact ⟨rfl, rfl⟩

theorem sameAdmin_finishRequest (now elapsed : Int) (r : Request) (h : Handled)
    (state : SharedState) : SameAdmin state (finishRequest now elapsed r h state).1 := by
  obtain ⟨_, _, _, _, _, _, _, hframe⟩ := finishRequest_frame now elapsed r h state
  rw [hframe]
  exact ⟨rfl, rfl⟩

/-- The other threads leave `admin_connected`, and `cancel_client_id` unless they
perform an operation. -/
theorem Event.step_admin {s s' : Server} {e : Event} (hordinary : e.ordinary s = true)
    (h : e.step s = some s') :
    s'.shared.adminConnected = s.shared.adminConnected ∧
      ((∀ env, e ≠ .handle env) → s'.shared.cancelClientId = s.shared.cancelClientId) := by
  have hkeep : SameAdmin s.shared s'.shared → s'.shared.adminConnected = s.shared.adminConnected ∧
      ((∀ env, e ≠ .handle env) → s'.shared.cancelClientId = s.shared.cancelClientId) :=
    fun hsame => ⟨hsame.1, fun _ => hsame.2⟩
  cases Event.step_spec h with
  | connect now fd addr => exact hkeep (sameAdmin_connectClient now fd addr _)
  | close fd => exact hkeep (sameAdmin_clientRemoveFd fd _)
  | receive now fd clientId opId payload =>
      exact hkeep (sameAdmin_receiveRequest now fd clientId opId payload _)
  | admin connected => cases hordinary
  | cancel clientId => cases hordinary
  | begin now r => exact hkeep (sameAdmin_beginRequest now r _)
  | handle env r state handled hworker hhandle =>
      obtain ⟨_, _, _, _, _, _, rfl⟩ := handleRequest_effect hhandle
      exact ⟨rfl, fun hne => absurd rfl (hne env)⟩
  | finish now elapsed r handled => exact hkeep (sameAdmin_finishRequest now elapsed r handled _)
  | _ => exact hkeep ⟨rfl, rfl⟩

/-! ## One admin -/

/-- There is at most one admin, the second entry of the array is its descriptor, and
the first is the listening socket. -/
structure Service.OneAdmin (cfg : AdminConfig) (s : Service) : Prop where
  count : 1 ≤ s.nfds ∧ s.nfds ≤ 2
  listening : (s.fds.get 0).fd = cfg.listenFd
  admin : s.nfds = 2 ↔ 0 < s.adminFd
  second : s.nfds = 2 → (s.fds.get 1).fd = s.adminFd
  connected : s.server.shared.adminConnected = true ↔ 0 < s.adminFd

/-- With it, what the code relies on: the admin is not the listening socket, and no
admin is -1. -/
structure Service.Sound (cfg : AdminConfig) (s : Service) : Prop where
  one : s.OneAdmin cfg
  distinct : 0 < s.adminFd → s.adminFd ≠ cfg.listenFd
  none : s.adminFd ≤ 0 → s.adminFd = -1

section Parts

variable {cfg : AdminConfig} {s : Service}

/-- The second entry is removed. -/
theorem Service.removePollfd_second (hnfds : s.nfds = 2) :
    s.removePollfd 1 =
      .ok { s.withShared (clientRemoveFd (s.fds.get 1).fd s.server.shared) with nfds := 1 } := by
  have hshift : s.fds.shift s.nfds 1 = some s.fds := by
    unfold PollFds.shift
    rw [if_neg (by omega)]
  have hread : s.fds.read 1 = some (s.fds.get 1) := dif_pos (by decide)
  unfold removePollfd
  rw [hshift, hread, hnfds]
  rfl

/-- The admin goes, and its entry with it. -/
theorem Service.Sound.without (hs : s.Sound cfg) {s' : Service} (hnfds : s'.nfds = 1)
    (hfds : s'.fds = s.fds) (hadmin : s'.adminFd = -1)
    (hconnected : s'.server.shared.adminConnected = false) : s'.Sound cfg where
  one :=
    { count := by omega
      listening := by rw [hfds]; exact hs.one.listening
      admin := by omega
      second := by omega
      connected := by
        rw [hconnected, hadmin]
        decide }
  distinct := by omega
  none _ := hadmin

/-- Nothing of this changes. -/
theorem Service.Sound.congr (hs : s.Sound cfg) {s' : Service} (hnfds : s'.nfds = s.nfds)
    (hfds : ∀ k, (s'.fds.get k).fd = (s.fds.get k).fd) (hadmin : s'.adminFd = s.adminFd)
    (hconnected : s'.server.shared.adminConnected = s.server.shared.adminConnected) :
    s'.Sound cfg where
  one :=
    { count := hnfds ▸ hs.one.count
      listening := (hfds 0).trans hs.one.listening
      admin := by rw [hnfds, hadmin]; exact hs.one.admin
      second := by rw [hnfds, hfds, hadmin]; exact hs.one.second
      connected := by rw [hconnected, hadmin]; exact hs.one.connected }
  distinct := by rw [hadmin]; exact hs.distinct
  none := by rw [hadmin]; exact hs.none

theorem Service.init_sound (cfg : AdminConfig) (now : Int) :
    (Service.init cfg now).Sound cfg := by
  have hnfds : (Service.init cfg now).nfds = 1 := rfl
  have hadmin : (Service.init cfg now).adminFd = -1 := rfl
  exact
    { one :=
        { count := by omega
          listening := rfl
          admin := by omega
          second := by omega
          connected := iff_of_false Bool.false_ne_true (by omega) }
      distinct := by omega
      none := fun _ => rfl }

/-- The check of the time stays in the array and leaves one admin or none. -/
theorem Service.checkTimeout_spec (hs : s.Sound cfg) (now : Int) :
    ∃ s', s.checkTimeout cfg now = .ok s' ∧ s'.Sound cfg := by
  unfold checkTimeout
  split
  · next hlate =>
      have hnfds := hs.one.admin.mpr hlate.1
      have hfind : ((List.finRange 2).find? fun i =>
          decide (i.val < s.nfds ∧ (s.fds.get i).fd = s.adminFd)) = some 1 := by
        have hfirst : ¬ ((0 : Fin 2).val < s.nfds ∧ (s.fds.get 0).fd = s.adminFd) := by
          rw [hs.one.listening]
          exact fun h => hs.distinct hlate.1 h.2.symm
        have hsecond : (1 : Fin 2).val < s.nfds ∧ (s.fds.get 1).fd = s.adminFd :=
          ⟨by rw [hnfds]; decide, hs.one.second hnfds⟩
        rw [show List.finRange 2 = [0, 1] from rfl, List.find?_cons_of_neg (by simpa using hfirst),
          List.find?_cons_of_pos (by simpa using hsecond)]
      rw [hfind]
      change ∃ s', (s.removePollfd 1).bind (fun s => .ok s.dropAdmin) = .ok s' ∧ s'.Sound cfg
      rw [removePollfd_second hnfds]
      exact ⟨_, rfl, hs.without rfl rfl rfl rfl⟩
  · exact ⟨s, rfl, hs⟩

/-- A message leaves the array alone; `OP_ADMIN_BYE` takes the admin away. -/
theorem Service.handleMessage_admin (now fd : Int) (opId : UInt32) (payload : List UInt8) :
    (s.handleMessage now fd opId payload).nfds = s.nfds ∧
      (s.handleMessage now fd opId payload).fds = s.fds ∧
      ((s.handleMessage now fd opId payload).adminFd = -1 ∧
          (s.handleMessage now fd opId payload).server.shared.adminConnected = false ∨
        (s.handleMessage now fd opId payload).adminFd = s.adminFd ∧
          (s.handleMessage now fd opId payload).server.shared.adminConnected =
            s.server.shared.adminConnected) := by
  refine ⟨rfl, rfl, ?_⟩
  have hspec := adminOperation_spec now fd opId (received payload)
    ⟨s.server.shared, s.blocked, s.adminFd, now⟩
  unfold handleMessage handleAdminMessage
  generalize adminOperation now fd opId (received payload)
    ⟨s.server.shared, s.blocked, s.adminFd, now⟩ = result at hspec
  cases hspec with
  | bye hop => exact Or.inl ⟨rfl, rfl⟩
  | _ => exact Or.inr ⟨rfl, rfl⟩

/-! ## The entries -/

/-- An entry that the loop reads is in the array. -/
theorem Service.OneAdmin.read_eq (hs : s.OneAdmin cfg) {i : Nat} (hi : i < s.nfds) :
    i = 0 ∧ s.fds.read i = some (s.fds.get 0) ∨
      i = 1 ∧ s.nfds = 2 ∧ s.fds.read i = some (s.fds.get 1) := by
  have hcount := hs.count
  obtain rfl | rfl : i = 0 ∨ i = 1 := by omega
  · exact Or.inl ⟨rfl, dif_pos (by decide)⟩
  · exact Or.inr ⟨rfl, by omega, dif_pos (by decide)⟩

/-- The loop reads inside the array. -/
theorem Service.OneAdmin.atEntry_ne_fault (hs : s.OneAdmin cfg) (listening : Bool) :
    s.atEntry cfg listening ≠ .fault := by
  unfold atEntry
  split
  · exact fun h => by cases h
  · next i _ =>
      by_cases hi : i < s.nfds
      · rw [if_pos hi]
        obtain ⟨-, hread⟩ | ⟨-, -, hread⟩ := hs.read_eq hi
        all_goals
          rw [hread]
          dsimp only
          split
          · exact fun h => by cases h
          · exact fun h => by cases h
      · rw [if_neg hi]
        exact fun h => by cases h

/-- Where the loop stands at an entry. -/
theorem Service.atEntry_spec {listening : Bool} {i : Nat} {entry : PollFd}
    (h : s.atEntry cfg listening = .ok (i, entry)) :
    s.point = .scanning i ∧ i < s.nfds ∧ s.fds.read i = some entry ∧
      decide (entry.fd = cfg.listenFd) = listening := by
  unfold atEntry at h
  split at h
  · cases h
  · next j hpoint =>
      split at h
      · next hj =>
          split at h
          · cases h
          · next found hread =>
              split at h
              · next hguard =>
                  obtain ⟨rfl, rfl⟩ := Prod.mk.inj (Outcome.ok.inj h)
                  exact ⟨hpoint, hj, hread, hguard.2⟩
              · cases h
      · cases h

/-- A message comes from the admin, who is there: it is the second entry. -/
theorem Service.OneAdmin.message_from (hs : s.OneAdmin cfg) {i : Nat} {entry : PollFd}
    (h : s.atEntry cfg false = .ok (i, entry)) :
    i = 1 ∧ s.nfds = 2 ∧ entry = s.fds.get 1 ∧ entry.fd = s.adminFd ∧ 0 < s.adminFd := by
  obtain ⟨-, hi, hread, hlisten⟩ := atEntry_spec h
  obtain ⟨-, hfirst⟩ | ⟨hone, hnfds, hsecond⟩ := hs.read_eq hi
  · rw [hfirst] at hread
    rw [← Option.some.inj hread, hs.listening, decide_eq_true rfl] at hlisten
    cases hlisten
  · rw [hsecond] at hread
    obtain rfl := Option.some.inj hread
    exact ⟨hone, hnfds, rfl, hs.second hnfds, hs.admin.mp hnfds⟩

/-! ## Steps keep one admin -/

/-- An admin is accepted in the second entry, or refused. -/
theorem Service.acceptAdmin_spec (hs : s.Sound cfg) (now : Int) {fd : Int} (hpositive : 0 < fd)
    (hfd : fd ≠ cfg.listenFd) : ∃ s', s.acceptAdmin now fd = .ok s' ∧ s'.Sound cfg := by
  unfold acceptAdmin
  by_cases hbusy : s.adminFd > 0
  · rw [if_pos hbusy]
    exact ⟨_, rfl, hs.congr rfl (fun _ => rfl) rfl rfl⟩
  · have hcount := hs.one.count
    have hadmin := hs.one.admin
    have hnfds : s.nfds = 1 := by omega
    -- without an admin there is the listening socket only
    have hroom : ¬ s.nfds ≥ maxFds := by rw [hnfds]; decide
    have hwrite : s.fds.write s.nfds ⟨fd, false⟩ = some (s.fds.set 1 ⟨fd, false⟩) := by
      rw [hnfds]
      exact dif_pos (by decide)
    rw [if_neg hbusy, if_neg hroom, hwrite]
    refine ⟨_, rfl, ?_⟩
    exact
      { one :=
          { count := ⟨Nat.le_add_left 1 s.nfds, by change s.nfds + 1 ≤ 2; omega⟩
            listening := by
              have hfirst : (s.fds.set 1 ⟨fd, false⟩).get 0 = s.fds.get 0 := by
                rw [FixedArray.get_set, if_neg (by decide)]
              exact (congrArg PollFd.fd hfirst).trans hs.one.listening
            admin := iff_of_true (congrArg (· + 1) hnfds) hpositive
            second := fun _ => congrArg PollFd.fd (FixedArray.get_set_self s.fds 1 ⟨fd, false⟩)
            connected := iff_of_true rfl hpositive }
        distinct := fun _ => hfd
        none := fun h => absurd hpositive (Int.not_lt.mpr h) }

/-- The second entry goes after its admin. -/
theorem Service.Sound.removePollfd (hs : s.Sound cfg) (s' : Service) (hnfds : s.nfds = 2)
    (hsame : s'.nfds = s.nfds ∧ s'.fds = s.fds) (hadmin : s'.adminFd = -1)
    (hconnected : s'.server.shared.adminConnected = false) (i : Nat) :
    ∃ s'', (s'.removePollfd 1).bind (fun s => .ok { s with point := .scanning i }) = .ok s'' ∧
      s''.Sound cfg := by
  rw [Service.removePollfd_second (hsame.1.trans hnfds)]
  refine ⟨_, rfl, hs.without rfl hsame.2 hadmin ?_⟩
  exact (sameAdmin_clientRemoveFd _ s'.server.shared).1.trans hconnected

/-- `poll` changes which entries are ready, not whose they are. -/
theorem Service.Sound.polled (hs : s.Sound cfg) (ready : Fin 2 → Bool) (point : AdminPoint) :
    ({ s with fds := s.fds.polled s.nfds ready, point := point } : Service).Sound cfg := by
  refine hs.congr rfl (fun k => ?_) rfl rfl
  simp only [PollFds.polled, FixedArray.get_tabulate]
  split
  · rfl
  · rfl

/-- What is done at an entry is done where the loop stands at one. -/
theorem Service.Sound.atEntry (hs : s.Sound cfg) (listening : Bool)
    {act : Nat × PollFd → Outcome Unit Service}
    (hact : ∀ i entry, s.atEntry cfg listening = .ok (i, entry) →
      act (i, entry) = .error () ∨ ∃ s', act (i, entry) = .ok s' ∧ s'.Sound cfg) :
    s.atEntry cfg listening >>= act = .error () ∨
      ∃ s', s.atEntry cfg listening >>= act = .ok s' ∧ s'.Sound cfg := by
  cases hentry : s.atEntry cfg listening with
  | fault => exact absurd hentry (hs.one.atEntry_ne_fault listening)
  | error => exact Or.inl rfl
  | ok found => exact hact found.1 found.2 hentry

/-- A step stays in the array, and leaves one admin or none. -/
theorem ServiceEvent.outcome_spec (hs : s.Sound cfg) (e : ServiceEvent) :
    e.outcome cfg s = .error () ∨ ∃ s', e.outcome cfg s = .ok s' ∧ s'.Sound cfg := by
  cases e with
  | server e =>
      unfold outcome
      dsimp only
      split
      · next hordinary =>
          split
          · exact Or.inl rfl
          · next after hstep =>
              have hconnected := (Event.step_admin hordinary hstep).1
              exact Or.inr ⟨_, rfl, hs.congr rfl (fun _ => rfl) rfl hconnected⟩
      · exact Or.inl rfl
  | poll now ready =>
      unfold outcome
      dsimp only
      cases s.point with
      | scanning i => exact Or.inl rfl
      | polling =>
          obtain ⟨s', hcheck, hs'⟩ := Service.checkTimeout_spec (hs.polled ready .polling) now
          dsimp only
          rw [if_pos hs.one.count.2, hcheck]
          exact Or.inr ⟨_, rfl, hs'.congr rfl (fun _ => rfl) rfl rfl⟩
  | next =>
      unfold outcome
      dsimp only
      cases s.point with
      | polling => exact Or.inl rfl
      | scanning i =>
          dsimp only
          by_cases hi : i < s.nfds
          · rw [if_pos hi]
            obtain ⟨-, hread⟩ | ⟨-, -, hread⟩ := hs.one.read_eq hi
            all_goals
              rw [hread]
              dsimp only
              split
              · exact Or.inl rfl
              · exact Or.inr ⟨_, rfl, hs.congr rfl (fun _ => rfl) rfl rfl⟩
          · rw [if_neg hi]
            exact Or.inr ⟨_, rfl, hs.congr rfl (fun _ => rfl) rfl rfl⟩
  | accept now fd =>
      refine hs.atEntry true fun i entry _ => ?_
      cases fd with
      | none => exact Or.inr ⟨_, rfl, hs.congr rfl (fun _ => rfl) rfl rfl⟩
      | some fd =>
          dsimp only
          by_cases hfd : 0 < fd ∧ fd ≠ cfg.listenFd ∧ fd ≠ s.adminFd
          · obtain ⟨s', haccept, hs'⟩ := Service.acceptAdmin_spec hs now hfd.1 hfd.2.1
            rw [if_pos hfd, haccept]
            exact Or.inr ⟨_, rfl, hs'.congr rfl (fun _ => rfl) rfl rfl⟩
          · rw [if_neg hfd]
            exact Or.inl rfl
  | receiveFails =>
      refine hs.atEntry false fun i entry hentry => ?_
      -- the entry is the admin's, so `admin_fd` is reset before the entry goes
      obtain ⟨rfl, hnfds, -, hadmin, -⟩ := hs.one.message_from hentry
      dsimp only
      rw [if_pos hadmin]
      exact Or.inr (hs.removePollfd s.dropAdmin hnfds ⟨rfl, rfl⟩ rfl rfl 1)
  | receive now opId payload =>
      refine hs.atEntry false fun i entry hentry => ?_
      obtain ⟨rfl, hnfds, -, -, hpositive⟩ := hs.one.message_from hentry
      obtain ⟨hcount, hfds, hmessage⟩ :=
        Service.handleMessage_admin (s := s) now entry.fd opId payload
      dsimp only
      -- `OP_ADMIN_BYE` is the one message after which the entry is removed
      rcases hmessage with ⟨hgone, hflag⟩ | ⟨hsame, hflag⟩
      · rw [if_pos (by omega)]
        exact Or.inr (hs.removePollfd _ hnfds ⟨hcount, hfds⟩ hgone hflag 1)
      · rw [if_neg (by omega)]
        exact Or.inr ⟨_, rfl, hs.congr hcount (fun k => by rw [← hfds]) hsame hflag⟩

end Parts

/-- A step that leaves a state keeps one admin. -/
theorem ServiceEvent.step_sound {cfg : AdminConfig} {s s' : Service} {e : ServiceEvent}
    (hs : s.Sound cfg) (h : e.step cfg s = some s') : s'.Sound cfg := by
  have hstep := ServiceEvent.step_eq_some_iff.mp h
  rcases ServiceEvent.outcome_spec hs e with herror | ⟨after, hok, hafter⟩
  · cases herror.symm.trans hstep
  · obtain rfl := Outcome.ok.inj (hok.symm.trans hstep)
    exact hafter

/-- One admin at most, in an array of two entries: after every step of every run the
first entry is the listening socket, there is a second one exactly when there is an
admin, it is the admin's, and `admin_connected` says so; no step accesses the array out
of its range, and every message handled is the admin's. -/
theorem adminInterface_oneAdmin (cfg : AdminConfig) (now : Int) (events : List ServiceEvent) :
    Throughout (ServiceEvent.step cfg) (Service.OneAdmin cfg) (.init cfg now) events ∧
      EveryStep (ServiceEvent.step cfg)
        (fun s e => e.outcome cfg s ≠ .fault ∧
          ∀ i entry, s.atEntry cfg false = .ok (i, entry) →
            entry.fd = s.adminFd ∧ 0 < s.adminFd) (.init cfg now) events := by
  have hinit := Service.init_sound cfg now
  have hstep : ∀ (s : Service) (e : ServiceEvent) (s' : Service), s.Sound cfg →
      e.step cfg s = some s' → s'.Sound cfg := fun s e s' => ServiceEvent.step_sound
  constructor
  · intro done rest s' hevents hrun
    exact (runFrom_invariant hstep hinit hrun).one
  · refine everyStep_iff.mpr fun done e rest s' hevents hrun => ?_
    have hs' := runFrom_invariant hstep hinit hrun
    constructor
    · intro hfault
      rcases ServiceEvent.outcome_spec hs' e with herror | ⟨after, hok, -⟩
      · cases herror.symm.trans hfault
      · cases hok.symm.trans hfault
    · intro i entry hentry
      obtain ⟨-, -, -, hadmin, hpositive⟩ := hs'.one.message_from hentry
      exact ⟨hadmin, hpositive⟩

end SqlCodeGenerator
