import SqlCodeGenerator.ClientAddresses
import SqlCodeGenerator.PollRound

/-!
# The thread of the ordinary interface

`ordinary_interface_main` of `server.c`, round after round: `poll`, and the loop over the array.
Its calls reach the gate, where the other threads take steps before each of them, and the kernel
answers what it likes.

* `PollWorld`, `gateEnv`: the world of the loop, made of the gate and the turns of the others;
* `PollWorld.Follows`: the trace of the world is a run of the gate, and the array holds the open
  connections;
* `handleEntry_follows`: one visit keeps that;
* `interface_refines_gate`: so does every round.
-/

namespace SqlCodeGenerator

open Library

/-! ## The world of the loop -/

/-- What the other threads do before a call of the thread, and how that is answered. -/
structure PollTurn where
  others : List GateEvent
  now : Int
  /-- The descriptor and the address that `accept` returns. -/
  accepted : Option (Int × Ipv4)
  /-- What `recv_message` reads, if it returns 1. -/
  message : Option WireMessage
  /-- Does `calloc` succeed? -/
  memory : Bool

/-- The steps of the ordinary interface itself. -/
def GateEvent.ofInterface : GateEvent → Bool
  | .accept .. | .message .. | .hangup _ | .other .push => true
  | _ => false

/-- The gate, and what is to come. -/
structure PollWorld where
  /-- No state once `next_client_id++` has overflowed. -/
  gate : Option Gate
  turns : Nat → PollTurn
  calls : Nat
  /-- The steps taken, by whichever thread. -/
  trace : List GateEvent
  /-- What the interface has answered without memory for a request. -/
  refused : List Message

namespace PollWorld

/-- The turn of the last call. -/
def turn (w : PollWorld) : PollTurn := w.turns w.calls

/-- A step of another thread, if it is possible. -/
def interleave (w : PollWorld) (e : GateEvent) : PollWorld :=
  if e.ofInterface then
    w
  else
    match w.gate.bind e.step with
    | none => w
    | some g => { w with gate := some g, trace := w.trace ++ [e] }

/-- The other threads take their steps, and the next call is made. -/
def next (w : PollWorld) : PollWorld :=
  (w.turns (w.calls + 1)).others.foldl interleave { w with calls := w.calls + 1 }

/-- A step of the interface. -/
def take (w : PollWorld) (e : GateEvent) : PollWorld :=
  { w with gate := w.gate.bind e.step, trace := w.trace ++ [e] }

/-- What is done with the connection that `accept` has returned. -/
def takeAccept (w : PollWorld) (fd : Int) : PollWorld :=
  match w.turn.accepted with
  | none => w
  | some (_, ip) => w.take (.accept fd ip)

/-- What is done after `recv_message`. -/
def takeMessage (w : PollWorld) (fd : Int) : PollWorld :=
  match w.turn.message with
  | none => w.take (.hangup fd)
  | some m => w.take (.message w.turn.now fd m.clientId m.opId m.payload)

/-- What the loop does, on the gate. -/
def perform (w : PollWorld) : PollAction → PollWorld
  | .close fd => w.takeAccept fd
  | .deny fd => w.takeAccept fd
  | .track fd _ => w.takeAccept fd
  | .remove fd => w.takeMessage fd
  | .connect fd => w.takeMessage fd
  -- the gate answers `OP_BYE` in the step that closes the descriptor
  | .bye _ _ => w
  | .reject fd _ => w.takeMessage fd
  | .respondJobInfo fd _ _ => w.takeMessage fd
  | .outOfMemory fd clientId =>
      { w with
        refused := w.refused ++ [respondText fd clientId opError (lit "server out of memory")] }
  -- other threads run between `job_create` and `queue_push`
  | .push fd _ _ => (w.takeMessage fd).next.take (.other .push)

/-- `accept`: the kernel gives out a descriptor that is not open. -/
def acceptFd (listenFd : Int) (w : PollWorld) : Option Int :=
  match w.gate, w.turn.accepted with
  | some g, some (fd, _) =>
      if 0 < fd ∧ fd ≠ listenFd ∧ g.net.owner fd = none then some fd else none
  | _, _ => none

/-- `is_registered_client`. -/
def knows (w : PollWorld) (clientId : UInt32) : Bool :=
  match w.gate with
  | none => false
  | some g => isRegisteredClient g.net.server.shared clientId

end PollWorld

/-- The calls of the loop, on the gate. -/
def gateEnv (listenFd : Int) : PollEnv PollWorld where
  accept w := (w.next.acceptFd listenFd, w.next)
  inetNtop w := w.turn.accepted.map fun peer => peer.2.text
  addrBlocked w addr :=
    match w.gate with
    | none => false
    | some g => addrBlocked g.blocked addr
  recvMessage w _ := (w.next.turn.message.map WireMessage.received, w.next)
  isRegisteredClient := PollWorld.knows
  calloc w := (w.turn.memory, w)
  perform := PollWorld.perform

/-! ## The thread -/

/-- What `poll` writes: which of the descriptors are ready. -/
def PollArray.poll (a : PollArray) (ready : Int → Bool) : PollArray where
  cells := (a.cells.take a.nfds).map (fun entry => ⟨entry.fd, ready entry.fd⟩) ++
    a.cells.drop a.nfds
  nfds := a.nfds
  size_eq := by
    rw [List.length_append, List.length_map, ← List.length_append, List.take_append_drop, a.size_eq]
  inUse := a.inUse

/-- Enough rounds of the inner loop. -/
abbrev pollFuel : Nat := (maxFds + 1) * (maxFds + 1)

/-- The thread between two rounds.  What `poll` has found ready and what the loop has visited
is history. -/
structure InterfaceThread where
  array : PollArray
  world : PollWorld
  due : List PollFd
  served : List (PollFd × Visit PollFd)

/-- `ordinary_interface_main` for so many rounds, by what is ready in each of them. -/
def ordinaryInterfaceMain (listenFd : Int) :
    List (Int → Bool) → InterfaceThread → PollRun InterfaceThread
  | [], t => .done t
  | ready :: more, t => do
      let polled := t.array.poll ready
      let s ← pollRound (gateEnv listenFd) listenFd pollFuel polled t.world.next
      ordinaryInterfaceMain listenFd more
        ⟨s.array, s.world, t.due ++ polled.entries.filter PollFd.ready, t.served ++ s.visits⟩

/-! ## The other threads -/

/-- The array holds the open connections of clients, besides the listening socket; a request is
on its way to the queue, or none is. -/
structure Gate.Watches (busy : Bool) (fds : List Int) (g : Gate) : Prop where
  net : g.net.Sound
  pending : g.net.server.pending.isSome = busy
  nodup : fds.Nodup
  opened : ∀ fd, fd ∈ fds ↔ ∃ c, g.net.owner fd = some ⟨c, false⟩
  count : g.nfds = fds.length + 1

/-- Other threads build no requests and queue none. -/
theorem StepSpec.pending_of_other {net net' : Network} {e : NetworkEvent} (h : StepSpec net e net')
    (hother : e.atGate = false) (hpush : e ≠ .push) :
    net'.server.pending = net.server.pending := by
  cases h with
  | receive now fd addr clientId opId payload connection howner hpending hregistered hop =>
      cases hother
  | push r hpending => exact absurd rfl hpush
  | _ => rfl

/-- A step of another thread leaves the connections of clients as they are. -/
theorem Gate.Watches.of_other {busy : Bool} {fds : List Int} {g g' : Gate}
    {e : GateEvent} (h : g.Watches busy fds) (hother : e.ofInterface = false)
    (hstep : e.step g = some g') : g'.Watches busy fds := by
  have hnet := GateEvent.step_sound h.net hstep
  cases e with
  | accept fd ip => cases hother
  | message now fd clientId opId payload => cases hother
  | hangup fd => cases hother
  | hangupAdmin =>
      simp only [GateEvent.step] at hstep
      split at hstep
      · cases hstep
      · next fd hadmin =>
          obtain ⟨net, hclose, rfl⟩ := Option.map_eq_some_iff.mp hstep
          cases NetworkEvent.step_spec hclose with
          | hangupAdmin fd' hadmin' =>
              obtain rfl : fd = fd' := Option.some.inj (hadmin.symm.trans hadmin')
              obtain ⟨serial, howner⟩ := h.net.admin fd hadmin
              refine ⟨hnet, h.pending, h.nodup, fun other => ?_, h.count⟩
              rw [h.opened other]
              show _ ↔ ∃ c, Function.update g.net.owner fd none other = some ⟨c, false⟩
              by_cases heq : other = fd
              · -- the descriptor of the admin is none of a client
                rw [heq, Function.update_self, howner]
                simp
              · rw [Function.update_of_ne heq]
  | block payload =>
      obtain ⟨net, hnote, rfl⟩ := Option.map_eq_some_iff.mp hstep
      cases NetworkEvent.step_spec hnote with
      | adminBlock =>
          revert hnet
          split
          · intro hnet
            exact ⟨hnet, h.pending, h.nodup, h.opened, h.count⟩
          · exact fun _ => h
  | other e =>
      simp only [GateEvent.step] at hstep
      split at hstep
      · cases hstep
      · next hgate =>
          obtain ⟨net, hmore, rfl⟩ := Option.map_eq_some_iff.mp hstep
          have hspec := NetworkEvent.step_spec hmore
          have hpush : e ≠ .push := by
            rintro rfl
            cases hother
          have howner := (hspec.quiet_of_other (Bool.eq_false_iff.mpr hgate)).owner
          refine ⟨hnet, ?_, h.nodup, fun fd => ?_, h.count⟩
          · rw [← h.pending]
            exact congrArg Option.isSome
              (hspec.pending_of_other (Bool.eq_false_iff.mpr hgate) hpush)
          · rw [h.opened fd]
            exact exists_congr fun c => (howner fd c).symm

/-! ## The steps of the interface -/

/-- `next_client_id++` overflows at one of the steps. -/
def Overflows (start : Gate) (trace : List GateEvent) : Prop :=
  ∃ before after g now fd clientId payload,
    trace = before ++ GateEvent.message now fd clientId opConnect payload :: after ∧
      gateAfter start before = some g ∧ intMax ≤ g.net.server.shared.nextClientId

/-- A connection is taken, or not. -/
theorem Gate.Watches.accept {fds : List Int} {g : Gate} (h : g.Watches false fds) {fd : Int}
    {ip : Ipv4} (hpos : 0 < fd) (hfree : g.net.owner fd = none) :
    ∃ g', (GateEvent.accept fd ip).step g = some g' ∧
      if g.nfds ≥ maxFds ∨ addrBlocked g.blocked ip.text = true then
        g'.Watches false fds
      else
        g'.Watches false (fds ++ [fd]) := by
  have hidle : g.net.server.pending.isNone := by
    rw [Option.isNone_iff_eq_none, ← Option.not_isSome_iff_eq_none, h.pending]
    simp
  have hopen : NetworkEvent.step g.net (.accept fd) = some (g.net.openFd fd false) :=
    if_pos ⟨hidle, hpos, hfree⟩
  have hstep : (GateEvent.accept fd ip).step g = g.acceptClient fd ip := rfl
  unfold acceptClient at hstep
  rw [hopen, Option.map_some] at hstep
  refine ⟨_, hstep, ?_⟩
  have hnet := GateEvent.step_sound h.net hstep
  split
  · next hrefused =>
      split
      · exact h
      · next hroom =>
          rw [if_pos (hrefused.resolve_left hroom)] at hnet ⊢
          exact ⟨h.net, h.pending, h.nodup, h.opened, h.count⟩
  · next htaken =>
      obtain ⟨hroom, hallowed⟩ := not_or.mp htaken
      rw [if_neg hroom, if_neg hallowed] at hnet ⊢
      have hnew : fd ∉ fds := by
        rw [h.opened, hfree]
        rintro ⟨c, hc⟩
        cases hc
      refine ⟨hnet, h.pending, ?_, fun other => ?_, ?_⟩
      · exact h.nodup.append (List.nodup_singleton fd) (List.disjoint_singleton.mpr hnew)
      · show _ ↔ ∃ c, Function.update g.net.owner fd (some ⟨g.net.accepted, false⟩) other =
          some ⟨c, false⟩
        rw [List.mem_append, List.mem_singleton, Function.update_apply]
        split
        · next heq => exact iff_of_true (Or.inr heq) ⟨_, rfl⟩
        · next hother => rw [or_iff_left hother, h.opened]
      · show g.nfds + 1 = (fds ++ [fd]).length + 1
        rw [h.count, List.length_append, List.length_singleton]

theorem Gate.Watches.isNone_pending {fds : List Int} {g : Gate}
    (h : g.Watches false fds) : g.net.server.pending = none := by
  have hpending := h.pending
  rwa [← Bool.not_eq_true, Option.not_isSome_iff_eq_none] at hpending

/-- A connection is closed. -/
theorem Gate.Watches.closed {before after : List Int} {fd : Int} {g g' : Gate}
    (h : g.Watches false (before ++ fd :: after)) (hnet : g'.net.Sound)
    (hpending : g'.net.server.pending = g.net.server.pending)
    (howner : g'.net.owner = Function.update g.net.owner fd none) (hnfds : g'.nfds = g.nfds - 1) :
    g'.Watches false (before ++ after) := by
  have hsub : List.Sublist (before ++ after) (before ++ fd :: after) :=
    (List.sublist_cons_self fd after).append_left before
  have hgone : fd ∉ before ++ after := by
    have hnodup := List.nodup_middle.mp h.nodup
    exact (List.nodup_cons.mp hnodup).1
  refine ⟨hnet, ?_, h.nodup.sublist hsub, fun other => ?_, ?_⟩
  · rw [hpending]
    exact h.pending
  · rw [howner, Function.update_apply]
    split
    · next heq =>
        rw [heq]
        exact iff_of_false hgone (fun ⟨c, hc⟩ => by cases hc)
    · next hne =>
        rw [← h.opened other]
        simp [hne]
  · have hcount := h.count
    rw [List.length_append, List.length_cons] at hcount
    rw [hnfds, List.length_append]
    omega

/-- The interface can always close a connection. -/
theorem Gate.Watches.hangup {before after : List Int} {fd : Int} {g : Gate}
    (h : g.Watches false (before ++ fd :: after)) :
    ∃ g', (GateEvent.hangup fd).step g = some g' ∧
      g'.Watches false (before ++ after) := by
  obtain ⟨c, howner⟩ := (h.opened fd).mp (by simp)
  have hclose : NetworkEvent.step g.net (.hangup fd) = g.net.removePollfd fd := by
    simp only [NetworkEvent.step, howner, h.isNone_pending, Option.isNone_none, if_true]
  obtain ⟨net, hnet⟩ : ∃ net, g.net.removePollfd fd = some net := ⟨_, rfl⟩
  have hstep : (GateEvent.hangup fd).step g = some ({ g with net := net }.forget fd) := by
    show (NetworkEvent.step g.net (.hangup fd)).map _ = _
    rw [hclose, hnet]
    rfl
  have heq := Network.removePollfd_eq hnet
  refine ⟨_, hstep, h.closed (GateEvent.step_sound h.net hstep) ?_ ?_ rfl⟩
  · show net.server.pending = _
    rw [heq]
    rfl
  · show net.owner = _
    rw [heq]

/-- What a message leaves of the array. -/
def watchedAfter (opId : UInt32) (before : List Int) (fd : Int) (after : List Int) : List Int :=
  if opId = opBye then before ++ after else before ++ fd :: after

theorem mem_of_watchedAfter {opId : UInt32} {before after : List Int} {fd other : Int}
    (h : other ∈ watchedAfter opId before fd after) : other ∈ before ++ fd :: after := by
  unfold watchedAfter at h
  split at h
  · exact ((List.sublist_cons_self fd after).append_left before).subset h
  · exact h

/-- Is a message a request for the worker? -/
def Network.requests (net : Network) (clientId opId : UInt32) : Bool :=
  decide (opId ≠ opConnect ∧ opId ≠ opBye ∧ opId ≠ opJobStatus ∧ opId ≠ opJobResult) &&
    isRegisteredClient net.server.shared clientId

theorem Network.requests_bye (net : Network) (clientId : UInt32) :
    net.requests clientId opBye = false := by
  simp [requests]

/-- The network handles a message, unless the identifiers are used up. -/
theorem Network.message_isSome (net : Network) (now fd : Int) (addr : CString)
    (clientId opId : UInt32) (payload : List UInt8) (connection : Nat)
    (hpending : net.server.pending = none)
    (hids : opId = opConnect → net.server.shared.nextClientId < intMax) :
    ∃ net', net.message now fd addr clientId opId payload connection = some net' := by
  unfold message
  split
  · next hop =>
      rw [connect, if_pos (hids hop)]
      exact ⟨_, rfl⟩
  · split
    · exact ⟨_, rfl⟩
    · split
      · exact ⟨_, rfl⟩
      · next hknown =>
          split
          · exact ⟨_, rfl⟩
          · have hregistered : isRegisteredClient net.server.shared clientId = true := by
              simpa using hknown
            have hbuilt : ∃ server, InterfaceEvent.step net.server
                (.receive now fd clientId opId payload) = some server := by
              simp only [InterfaceEvent.step, hpending, hregistered, Option.isNone_none,
                Bool.and_self, if_true]
              exact ⟨_, rfl⟩
            obtain ⟨server, hserver⟩ := hbuilt
            obtain ⟨middle, hmiddle⟩ : ∃ middle, net.serverStep
                (.interface (.receive now fd clientId opId payload)) = some middle :=
              ⟨_, congrArg (Option.map _) hserver⟩
            exact ⟨_, congrArg (Option.map _) hmiddle⟩

/-- A request is built of a message, or none is. -/
theorem Network.message_pending {net net' : Network} {now fd : Int} {addr : CString}
    {clientId opId : UInt32} {payload : List UInt8} {connection : Nat}
    (hpending : net.server.pending = none)
    (h : net.message now fd addr clientId opId payload connection = some net') :
    net'.server.pending.isSome = net.requests clientId opId := by
  unfold message at h
  unfold requests
  split at h
  · next hop =>
      unfold connect at h
      split at h
      · obtain ⟨middle, hstep, rfl⟩ := Option.map_eq_some_iff.mp h
        obtain ⟨server, hserver, rfl⟩ := Network.serverStep_interface hstep
        obtain rfl := Option.some.inj hserver
        simp [reply, hpending, hop]
      · cases h
  · next hconnect =>
      split at h
      · next hop =>
          obtain rfl := Network.removePollfd_eq h
          simp [reply, withShared, hpending, hop]
      · next hbye =>
          split at h
          · next hunknown =>
              obtain rfl := Option.some.inj h
              simpa [reject, reply, hpending] using fun _ _ _ _ => by simpa using hunknown
          · next hknown =>
              split at h
              · next hop =>
                  obtain rfl := Option.some.inj h
                  simp only [query, reply, hpending, Option.isSome_none]
                  rcases hop with hop | hop
                  · simp [hop]
                  · simp [hop]
              · next hquery =>
                  obtain ⟨middle, hstep, rfl⟩ := Option.map_eq_some_iff.mp h
                  obtain ⟨server, hserver, rfl⟩ := Network.serverStep_interface hstep
                  have hregistered : isRegisteredClient net.server.shared clientId = true := by
                    simpa using hknown
                  simp only [InterfaceEvent.step, hpending, hregistered, Option.isNone_none,
                    Bool.and_self, if_true, Option.some.injEq] at hserver
                  obtain rfl := hserver
                  obtain ⟨hstatus, hresult⟩ := not_or.mp hquery
                  simp [hconnect, hbye, hstatus, hresult, hregistered]

/-- The interface can handle every message on a connection, unless the identifiers are used
up. -/
theorem Gate.Watches.message {before after : List Int} {fd : Int} {g : Gate}
    (h : g.Watches false (before ++ fd :: after)) (now : Int) (clientId opId : UInt32)
    (payload : List UInt8) (hids : opId = opConnect → g.net.server.shared.nextClientId < intMax) :
    ∃ g', (GateEvent.message now fd clientId opId payload).step g = some g' ∧
      g'.Watches (g.net.requests clientId opId) (watchedAfter opId before fd after) := by
  obtain ⟨c, howner⟩ := (h.opened fd).mp (by simp)
  have hidle := h.isNone_pending
  obtain ⟨net, hnet⟩ := Network.message_isSome g.net now fd (fdAddrGet fd g.addrs) clientId opId
    payload c hidle hids
  have hbusy := Network.message_pending hidle hnet
  have hspec := Network.message_spec howner hidle hnet
  have hmessage : NetworkEvent.step g.net (.message now fd (fdAddrGet fd g.addrs) clientId opId
      payload) = some net := by
    simp only [NetworkEvent.step, howner, hidle, Option.isNone_none, if_true]
    exact hnet
  have hstep : (GateEvent.message now fd clientId opId payload).step g =
      some (if opId = opBye then { g with net := net }.forget fd else { g with net := net }) := by
    show (NetworkEvent.step g.net _).map _ = _
    rw [hmessage]
    rfl
  have hsound := GateEvent.step_sound h.net hstep
  refine ⟨_, hstep, ?_⟩
  unfold watchedAfter
  by_cases hbye : opId = opBye
  · subst hbye
    rw [if_pos rfl] at hsound ⊢
    rw [if_pos rfl]
    rw [g.net.requests_bye] at hbusy ⊢
    cases hspec with
    | bye _ _ _ _ _ _ _ message => exact h.closed hsound rfl rfl rfl
    | reject _ _ _ _ _ _ _ _ hop hunknown => exact absurd rfl hop.2
    | query _ _ _ _ _ _ _ _ hregistered hop =>
        exact absurd hop (by decide)
    | receive _ _ _ _ _ _ _ _ hpending hregistered hop => exact absurd rfl hop.2
  · rw [if_neg hbye] at hsound ⊢
    rw [if_neg hbye]
    have howners : net.owner = g.net.owner := by
      cases hspec with
      | bye _ _ _ _ _ _ _ message => exact absurd rfl hbye
      | _ => rfl
    refine ⟨hsound, hbusy, h.nodup, fun other => ?_, h.count⟩
    show _ ↔ ∃ c, net.owner other = some ⟨c, false⟩
    rw [howners]
    exact h.opened other

/-- The interface can queue the request that it has built. -/
theorem Gate.Watches.push {fds : List Int} {g : Gate}
    (h : g.Watches true fds) :
    ∃ g', (GateEvent.other .push).step g = some g' ∧ g'.Watches false fds := by
  obtain ⟨r, hr⟩ := Option.isSome_iff_exists.mp h.pending
  obtain ⟨net, hnet⟩ : ∃ net, NetworkEvent.step g.net .push = some net := by
    simp only [NetworkEvent.step, Network.serverStep, Event.step, InterfaceEvent.step, hr,
      Option.map_some]
    exact ⟨_, rfl⟩
  have hstep : (GateEvent.other .push).step g = some { g with net := net } := by
    show (NetworkEvent.step g.net .push).map _ = _
    rw [hnet]
    rfl
  refine ⟨_, hstep, ?_⟩
  have hsound := GateEvent.step_sound h.net hstep
  cases NetworkEvent.step_spec hnet with
  | push _ _ => exact ⟨hsound, rfl, h.nodup, h.opened, h.count⟩

/-! ## The trace is a run of the gate -/

/-- The steps that the interface has taken. -/
def PollWorld.own (w : PollWorld) : List GateEvent := w.trace.filter GateEvent.ofInterface

/-- The trace is a run of the gate, and the descriptors are the open ones besides the listening
socket; there is no gate where the identifiers were used up. -/
structure PollWorld.Follows (start : Gate) (listenFd : Int) (busy : Bool) (fds : List Int)
    (w : PollWorld) : Prop where
  apart : listenFd ∉ fds
  traced : gateAfter start w.trace = w.gate
  watches : ∀ g, w.gate = some g → g.Watches busy fds
  defined : w.gate = none → Overflows start w.trace

section World

variable {start : Gate} {listenFd : Int} {busy busy' : Bool} {fds fds' : List Int} {w : PollWorld}
  {e : GateEvent}

theorem Overflows.append {trace : List GateEvent} (h : Overflows start trace)
    (more : List GateEvent) : Overflows start (trace ++ more) := by
  obtain ⟨before, after, g, now, fd, clientId, payload, rfl, hrun, hmax⟩ := h
  exact ⟨before, after ++ more, g, now, fd, clientId, payload, by simp, hrun, hmax⟩

/-- The trace with one more step. -/
theorem gateAfter_concat (start : Gate) (trace : List GateEvent) (e : GateEvent) :
    gateAfter start (trace ++ [e]) = (gateAfter start trace).bind e.step := by
  unfold gateAfter
  rw [runFrom_append]
  cases runFrom GateEvent.step start trace with
  | none => rfl
  | some g =>
      show runFrom GateEvent.step g [e] = e.step g
      cases hstep : e.step g with
      | none => simp [runFrom, hstep]
      | some g' => simp [runFrom, hstep]

theorem PollWorld.Follows.interleave (h : w.Follows start listenFd busy fds) (e : GateEvent) :
    (w.interleave e).Follows start listenFd busy fds := by
  unfold PollWorld.interleave
  split
  · exact h
  · next hother =>
      split
      · exact h
      · next g' hstep =>
          refine ⟨h.apart, ?_, fun g hg => ?_, fun hnone => by cases hnone⟩
          · rw [gateAfter_concat, h.traced]
            exact hstep
          · obtain rfl := Option.some.inj hg
            obtain ⟨g, hgate, hg'⟩ := Option.bind_eq_some_iff.mp hstep
            exact (h.watches g hgate).of_other (Bool.eq_false_iff.mpr hother) hg'

theorem PollWorld.Follows.foldl (h : w.Follows start listenFd busy fds)
    (events : List GateEvent) :
    (events.foldl PollWorld.interleave w).Follows start listenFd busy fds := by
  induction events generalizing w with
  | nil => exact h
  | cons e events ih => exact ih (h.interleave e)

/-- Whatever the other threads do. -/
theorem PollWorld.Follows.next (h : w.Follows start listenFd busy fds) :
    w.next.Follows start listenFd busy fds := by
  have hcall : ({ w with calls := w.calls + 1 } : PollWorld).Follows start listenFd busy fds :=
    ⟨h.apart, h.traced, h.watches, h.defined⟩
  exact hcall.foldl _

/-- A step of the interface that is always possible, or that uses up the identifiers. -/
theorem PollWorld.Follows.take (h : w.Follows start listenFd busy fds)
    (hapart : listenFd ∉ fds')
    (hstep : ∀ g, w.gate = some g → g.Watches busy fds →
      (∃ g', e.step g = some g' ∧ g'.Watches busy' fds') ∨
        ∃ now fd clientId payload, e = .message now fd clientId opConnect payload ∧
          intMax ≤ g.net.server.shared.nextClientId ∧ e.step g = none) :
    (w.take e).Follows start listenFd busy' fds' := by
  have htraced : gateAfter start (w.trace ++ [e]) = w.gate.bind e.step := by
    rw [gateAfter_concat, h.traced]
  cases hgate : w.gate with
  | none =>
      refine ⟨hapart, htraced, fun g hg => ?_, fun _ => (h.defined hgate).append [e]⟩
      have hnone : w.gate.bind e.step = some g := hg
      rw [hgate] at hnone
      cases hnone
  | some g =>
      have hafter : (w.take e).gate = e.step g := by
        show w.gate.bind e.step = _
        rw [hgate]
        rfl
      rcases hstep g hgate (h.watches g hgate) with
        ⟨g', hg', hwatches⟩ | ⟨now, fd, clientId, payload, he, hmax, hnone⟩
      · refine ⟨hapart, htraced, fun g'' hg'' => ?_, fun hnone => ?_⟩
        · rw [hafter, hg'] at hg''
          obtain rfl := Option.some.inj hg''
          exact hwatches
        · rw [hafter, hg'] at hnone
          cases hnone
      · refine ⟨hapart, htraced, fun g'' hg'' => ?_, fun _ => ?_⟩
        · rw [hafter, hnone] at hg''
          cases hg''
        · exact ⟨w.trace, [], g, now, fd, clientId, payload, by rw [← he]; rfl,
            h.traced.trans hgate, hmax⟩

/-! ### The steps, without the state -/

theorem PollWorld.own_take (w : PollWorld) (he : e.ofInterface = true) :
    (w.take e).own = w.own ++ [e] := by
  show (w.trace ++ [e]).filter _ = _
  rw [List.filter_append, List.filter_cons_of_pos he]
  rfl

theorem PollWorld.own_foldl (w : PollWorld) (events : List GateEvent) :
    (events.foldl interleave w).own = w.own := by
  induction events generalizing w with
  | nil => rfl
  | cons e events ih =>
      rw [List.foldl_cons, ih]
      unfold interleave
      split
      · rfl
      · next hother =>
          split
          · rfl
          · show (w.trace ++ [e]).filter _ = _
            rw [List.filter_append, List.filter_cons_of_neg hother]
            exact List.append_nil _

@[simp] theorem PollWorld.own_next (w : PollWorld) : w.next.own = w.own := by
  unfold next
  rw [own_foldl]
  rfl

/-! ## A visit -/

/-- The steps that the interface takes on a visit. -/
inductive VisitSteps (listenFd : Int) (entry : PollFd) : Visit PollFd → List GateEvent → Prop where
  /-- `accept` fails. -/
  | failed (hlisten : entry.fd = listenFd) : VisitSteps listenFd entry .keep []
  | refused (fd : Int) (ip : Ipv4) (hlisten : entry.fd = listenFd) :
      VisitSteps listenFd entry .keep [.accept fd ip]
  | accepted (fd : Int) (ip : Ipv4) (hlisten : entry.fd = listenFd) :
      VisitSteps listenFd entry (.append ⟨fd, false⟩) [.accept fd ip]
  | hangup (hclient : entry.fd ≠ listenFd) : VisitSteps listenFd entry .remove [.hangup entry.fd]
  | bye (now : Int) (clientId : UInt32) (payload : List UInt8) (hclient : entry.fd ≠ listenFd) :
      VisitSteps listenFd entry .remove [.message now entry.fd clientId opBye payload]
  | answered (now : Int) (clientId opId : UInt32) (payload : List UInt8)
      (hclient : entry.fd ≠ listenFd) (hbye : opId ≠ opBye) :
      VisitSteps listenFd entry .keep [.message now entry.fd clientId opId payload]
  | queued (now : Int) (clientId opId : UInt32) (payload : List UInt8)
      (hclient : entry.fd ≠ listenFd) (hbye : opId ≠ opBye) :
      VisitSteps listenFd entry .keep
        [.message now entry.fd clientId opId payload, .other .push]
  /-- There is no memory for the request. -/
  | outOfMemory (hclient : entry.fd ≠ listenFd) : VisitSteps listenFd entry .keep []

/-- What a visit leaves of the world. -/
structure Visited (start : Gate) (listenFd : Int) (fds : List Int) (w : PollWorld)
    (entry : PollFd) (visited : PollWorld × Visit PollFd) : Prop where
  follows : visited.1.Follows start listenFd false fds
  steps : ∃ events, VisitSteps listenFd entry visited.2 events ∧
    visited.1.own = w.own ++ events

theorem PollWorld.Follows.takeAccept {fd : Int} {ip : Ipv4}
    (h : w.Follows start listenFd false fds) (hturn : w.turn.accepted = some (fd, ip))
    (hne : fd ≠ listenFd) (hfree : ∀ g, w.gate = some g → 0 < fd ∧ g.net.owner fd = none)
    {refused : Prop} [Decidable refused]
    (hrefused : ∀ g, w.gate = some g →
      (refused ↔ g.nfds ≥ maxFds ∨ addrBlocked g.blocked ip.text = true)) :
    (w.takeAccept fd).Follows start listenFd false (if refused then fds else fds ++ [fd]) := by
  unfold PollWorld.takeAccept
  rw [hturn]
  have hapart : listenFd ∉ if refused then fds else fds ++ [fd] := by
    split
    · exact h.apart
    · rw [List.mem_append, List.mem_singleton, not_or]
      exact ⟨h.apart, hne.symm⟩
  refine h.take hapart fun g hgate hwatches => Or.inl ?_
  obtain ⟨hpos, hnone⟩ := hfree g hgate
  obtain ⟨g', hstep, hg'⟩ := @Gate.Watches.accept _ _ hwatches _ ip hpos hnone
  refine ⟨g', hstep, ?_⟩
  split
  · next hr => rwa [if_pos ((hrefused g hgate).mp hr)] at hg'
  · next hr => rwa [if_neg fun hg => hr ((hrefused g hgate).mpr hg)] at hg'

/-- The descriptor that `accept` returns is not open. -/
theorem PollWorld.of_acceptFd {fd : Int} (h : w.acceptFd listenFd = some fd) :
    ∃ g ip, w.gate = some g ∧ w.turn.accepted = some (fd, ip) ∧
      0 < fd ∧ fd ≠ listenFd ∧ g.net.owner fd = none := by
  unfold acceptFd at h
  split at h
  · next g other ip hgate haccepted =>
      split at h
      · next hfree =>
          obtain rfl := Option.some.inj h
          exact ⟨g, ip, hgate, haccepted, hfree⟩
      · cases h
  · cases h

theorem acceptClient_failed (h : w.next.acceptFd listenFd = none) (count : Nat) :
    acceptClient (gateEnv listenFd) w count = (w.next, .keep) := by
  simp only [acceptClient, gateEnv, h]

/-- `accept_client` with a connection, which is closed, refused or tracked. -/
theorem acceptClient_taken {fd : Int} {g : Gate} {ip : Ipv4}
    (h : w.next.acceptFd listenFd = some fd) (hgate : w.next.gate = some g)
    (hturn : w.next.turn.accepted = some (fd, ip)) (count : Nat) :
    acceptClient (gateEnv listenFd) w count = (w.next.takeAccept fd,
      if count ≥ maxFds ∨ addrBlocked g.blocked ip.text = true then .keep
      else .append ⟨fd, false⟩) := by
  simp only [acceptClient, gateEnv, h, hturn, hgate, Option.map_some, PollWorld.perform]
  by_cases hroom : count ≥ maxFds
  · rw [if_pos hroom, if_pos (Or.inl hroom)]
  · rw [if_neg hroom]
    by_cases hblocked : addrBlocked g.blocked ip.text = true
    · rw [if_pos hblocked, if_pos (Or.inr hblocked)]
    · rw [if_neg hblocked, if_neg (not_or.mpr ⟨hroom, hblocked⟩)]

/-- A visit of the listening socket. -/
theorem acceptClient_visited {entry : PollFd} {count : Nat}
    (h : w.Follows start listenFd false fds) (hcount : count = fds.length + 1)
    (hlisten : entry.fd = listenFd) :
    Visited start listenFd
      (fds ++ (acceptClient (gateEnv listenFd) w count).2.added.map PollFd.fd) w entry
      (acceptClient (gateEnv listenFd) w count) := by
  have hnext := h.next
  cases haccept : w.next.acceptFd listenFd with
  | none =>
      rw [acceptClient_failed haccept]
      refine ⟨?_, [], .failed hlisten, ?_⟩
      · simpa [Visit.added] using hnext
      · rw [List.append_nil]
        exact w.own_next
  | some fd =>
      obtain ⟨g, ip, hgate, hturn, hfree⟩ := PollWorld.of_acceptFd haccept
      rw [acceptClient_taken haccept hgate hturn]
      have hown : (w.next.takeAccept fd).own = w.own ++ [.accept fd ip] := by
        unfold PollWorld.takeAccept
        rw [hturn]
        show (w.next.take (.accept fd ip)).own = _
        rw [PollWorld.own_take _ rfl, PollWorld.own_next]
      have hfollows : (w.next.takeAccept fd).Follows start listenFd false
          (if count ≥ maxFds ∨ addrBlocked g.blocked ip.text = true then fds
            else fds ++ [fd]) := by
        refine hnext.takeAccept hturn hfree.2.1 (fun g' hgate' => ?_) fun g' hgate' => ?_
        · obtain rfl := Option.some.inj (hgate.symm.trans hgate')
          exact ⟨hfree.1, hfree.2.2⟩
        · obtain rfl := Option.some.inj (hgate.symm.trans hgate')
          rw [(hnext.watches g hgate).count, hcount]
      by_cases hrefused : count ≥ maxFds ∨ addrBlocked g.blocked ip.text = true
      · rw [if_pos hrefused] at hfollows ⊢
        refine ⟨?_, [.accept fd ip], .refused fd ip hlisten, hown⟩
        simpa [Visit.added] using hfollows
      · rw [if_neg hrefused] at hfollows ⊢
        exact ⟨hfollows, [.accept fd ip], .accepted fd ip hlisten, hown⟩

/-! ### A client's descriptor -/

theorem PollWorld.Follows.takeMessage {before after : List Int} {fd : Int} {m : WireMessage}
    (h : w.Follows start listenFd false (before ++ fd :: after))
    (hturn : w.turn.message = some m)
    (hbusy : ∀ g, w.gate = some g → g.net.requests m.clientId m.opId = busy') :
    (w.takeMessage fd).Follows start listenFd busy' (watchedAfter m.opId before fd after) := by
  unfold PollWorld.takeMessage
  rw [hturn]
  refine h.take (fun hmem => h.apart (mem_of_watchedAfter hmem)) fun g hgate hwatches => ?_
  by_cases hids : m.opId = opConnect → g.net.server.shared.nextClientId < intMax
  · obtain ⟨g', hstep, hg'⟩ :=
      hwatches.message w.turn.now m.clientId m.opId m.payload hids
    exact Or.inl ⟨g', hstep, hbusy g hgate ▸ hg'⟩
  · obtain ⟨hconnect, hmax⟩ := Classical.not_imp.mp hids
    have hnone : (GateEvent.message w.turn.now fd m.clientId m.opId m.payload).step g = none := by
      obtain ⟨c, howner⟩ := (hwatches.opened fd).mp (by simp)
      simp only [GateEvent.step, NetworkEvent.step, howner, hwatches.isNone_pending,
        Option.isNone_none, if_true, Network.message, if_pos hconnect, Network.connect, if_neg hmax,
        Option.map_none]
    refine Or.inr ⟨w.turn.now, fd, m.clientId, m.payload, ?_, Nat.le_of_not_lt hmax, hnone⟩
    rw [hconnect]

theorem PollWorld.own_takeMessage {fd : Int} {m : WireMessage} (hturn : w.turn.message = some m) :
    (w.takeMessage fd).own =
      w.own ++ [.message w.turn.now fd m.clientId m.opId m.payload] := by
  unfold takeMessage
  rw [hturn]
  exact own_take _ rfl

/-- A message that is answered at once. -/
def PollWorld.answers (w : PollWorld) (m : WireMessage) : Bool :=
  decide (m.opId = opConnect ∨ m.opId = opJobStatus ∨ m.opId = opJobResult) ||
    !w.knows m.clientId

/-- The body of the loop with a message. -/
theorem serveClient_message {m : WireMessage} (hturn : w.next.turn.message = some m) (fd : Int) :
    serveClient (gateEnv listenFd) w fd =
      if m.opId = opBye then (w.next.takeMessage fd, .remove)
      else if w.next.answers m then (w.next.takeMessage fd, .keep)
      else if w.next.turn.memory then ((w.next.takeMessage fd).next.take (.other .push), .keep)
      else (w.next.perform (.outOfMemory fd m.clientId), .keep) := by
  simp only [serveClient, gateEnv, hturn, Option.map_some, WireMessage.received,
    WireMessage.header, PollWorld.perform, PollWorld.answers]
  by_cases hconnect : m.opId = opConnect
  · rw [if_pos hconnect, if_neg (by rw [hconnect]; decide)]
    simp [hconnect]
  rw [if_neg hconnect]
  by_cases hbye : m.opId = opBye
  · rw [if_pos hbye, if_pos hbye]
  rw [if_neg hbye, if_neg hbye]
  by_cases hknown : w.next.knows m.clientId = true
  · by_cases hquery : m.opId = opJobStatus ∨ m.opId = opJobResult
    · simp [hknown, hquery]
    · by_cases hmemory : w.next.turn.memory = true
      · simp [hknown, hquery, hconnect, hmemory]
      · simp [hknown, hquery, hconnect, hmemory]
  · simp [hknown]

/-- What is answered at once is no request. -/
theorem PollWorld.requests_of_answers {m : WireMessage} {g : Gate} (hgate : w.gate = some g)
    (hbye : m.opId ≠ opBye) : g.net.requests m.clientId m.opId = !w.answers m := by
  unfold answers knows Network.requests
  rw [hgate]
  by_cases hconnect : m.opId = opConnect
  · simp [hconnect]
  by_cases hquery : m.opId = opJobStatus ∨ m.opId = opJobResult
  · rcases hquery with hquery | hquery
    · simp [hquery]
    · simp [hquery]
  obtain ⟨hstatus, hresult⟩ := not_or.mp hquery
  simp [hconnect, hbye, hstatus, hresult]

/-- A visit of a client's descriptor. -/
theorem serveClient_visited {before after : List Int} {entry : PollFd}
    (h : w.Follows start listenFd false (before ++ entry.fd :: after))
    (hclient : entry.fd ≠ listenFd) :
    Visited start listenFd
      (before ++ ((serveClient (gateEnv listenFd) w entry.fd).2.kept entry).map PollFd.fd ++ after)
      w entry (serveClient (gateEnv listenFd) w entry.fd) := by
  have hnext := h.next
  cases hturn : w.next.turn.message with
  | none =>
      have hserve : serveClient (gateEnv listenFd) w entry.fd =
          (w.next.take (.hangup entry.fd), .remove) := by
        simp only [serveClient, gateEnv, hturn, Option.map_none, PollWorld.perform,
          PollWorld.takeMessage]
      rw [hserve]
      refine ⟨?_, [.hangup entry.fd], .hangup hclient, ?_⟩
      · simp only [Visit.kept, List.map_nil, List.append_nil]
        refine hnext.take (fun hmem => hnext.apart ?_) fun g hgate hwatches =>
          Or.inl hwatches.hangup
        exact ((List.sublist_cons_self entry.fd after).append_left before).subset hmem
      · rw [PollWorld.own_take _ rfl, PollWorld.own_next]
  | some m =>
      have hown := @PollWorld.own_takeMessage _ entry.fd _ hturn
      rw [PollWorld.own_next] at hown
      rw [serveClient_message hturn]
      by_cases hbye : m.opId = opBye
      · rw [if_pos hbye]
        have hfollows := hnext.takeMessage hturn fun g hgate => by
          rw [hbye]
          exact g.net.requests_bye m.clientId
        rw [watchedAfter, if_pos hbye] at hfollows
        refine ⟨?_, _, ?_, hown⟩
        · simpa [Visit.kept] using hfollows
        · rw [hbye]
          exact .bye _ _ _ hclient
      rw [if_neg hbye]
      have hkept : before ++ List.map PollFd.fd (Visit.keep.kept entry) ++ after =
          before ++ entry.fd :: after := by
        simp [Visit.kept]
      have hfollows := hnext.takeMessage hturn fun g hgate =>
        PollWorld.requests_of_answers hgate hbye
      rw [watchedAfter, if_neg hbye] at hfollows
      cases hanswers : w.next.answers m with
      | true =>
          rw [if_pos rfl, hkept]
          rw [hanswers] at hfollows
          exact ⟨hfollows, _, .answered _ _ _ _ hclient hbye, hown⟩
      | false =>
          rw [if_neg Bool.false_ne_true]
          rw [hanswers] at hfollows
          cases hmemory : w.next.turn.memory with
          | true =>
              rw [if_pos rfl, hkept]
              refine ⟨?_, _, .queued w.next.turn.now m.clientId m.opId m.payload hclient hbye, ?_⟩
              · exact hfollows.next.take hfollows.apart fun g hgate hwatches =>
                  Or.inl hwatches.push
              · rw [PollWorld.own_take _ rfl, PollWorld.own_next, hown, List.append_assoc]
                rfl
          | false =>
              rw [if_neg Bool.false_ne_true, hkept]
              refine ⟨⟨hnext.apart, hnext.traced, hnext.watches, hnext.defined⟩, [],
                .outOfMemory hclient, ?_⟩
              rw [List.append_nil]
              exact w.own_next

/-! ## A round -/

/-- The own steps between two worlds are those of the visits. -/
def ServedBy (listenFd : Int) (visits : List (PollFd × Visit PollFd)) (w w' : PollWorld) : Prop :=
  ∃ steps, List.Forall₂ (fun visited events => VisitSteps listenFd visited.1 visited.2 events)
      visits steps ∧
    w'.own = w.own ++ steps.flatten

theorem servedBy_nil (listenFd : Int) (w : PollWorld) : ServedBy listenFd [] w w :=
  ⟨[], .nil, (List.append_nil _).symm⟩

theorem ServedBy.append {visits visits' : List (PollFd × Visit PollFd)} {w' w'' : PollWorld}
    (h : ServedBy listenFd visits w w') (h' : ServedBy listenFd visits' w' w'') :
    ServedBy listenFd (visits ++ visits') w w'' := by
  obtain ⟨steps, hsteps, hown⟩ := h
  obtain ⟨steps', hsteps', hown'⟩ := h'
  refine ⟨steps ++ steps', List.rel_append hsteps hsteps', ?_⟩
  rw [hown', hown, List.flatten_append, List.append_assoc]

theorem Visited.servedBy {entry : PollFd} {visited : PollWorld × Visit PollFd}
    (h : Visited start listenFd fds w entry visited) :
    ServedBy listenFd [(entry, visited.2)] w visited.1 := by
  obtain ⟨events, hsteps, hown⟩ := h.steps
  refine ⟨[events], .cons hsteps .nil, ?_⟩
  rw [List.flatten_singleton]
  exact hown

/-- The sweep over the descriptors of clients. -/
theorem sweep_ordinary (items : List PollFd) {before added : List Int} (count : Nat)
    (h : w.Follows start listenFd false (before ++ items.map PollFd.fd ++ added)) :
    let swept := sweep PollFd.ready (handleEntry (gateEnv listenFd) listenFd) count w items
    swept.world.Follows start listenFd false (before ++ swept.kept.map PollFd.fd ++ added) ∧
      ServedBy listenFd swept.visits w swept.world := by
  induction items generalizing w before count with
  | nil => exact ⟨h, servedBy_nil listenFd w⟩
  | cons entry items ih =>
      have hclient : entry.fd ≠ listenFd := by
        intro heq
        exact h.apart (by simp [heq])
      cases hready : entry.ready with
      | false =>
          rw [sweep_quiet hready]
          have hpassed : w.Follows start listenFd false
              ((before ++ [entry.fd]) ++ items.map PollFd.fd ++ added) := by
            simpa using h
          obtain ⟨hfollows, hserved⟩ := ih count hpassed
          exact ⟨by simpa using hfollows, hserved⟩
      | true =>
          rw [sweep_ready hready]
          have hhandle : handleEntry (gateEnv listenFd) listenFd w count entry =
              serveClient (gateEnv listenFd) w entry.fd := if_neg hclient
          rw [hhandle]
          have hvisited := @serveClient_visited _ _ _ _ (items.map PollFd.fd ++ added) _
            (by simpa using h) hclient
          have hrest := hvisited.follows
          rw [← List.append_assoc] at hrest
          obtain ⟨hfollows, hserved⟩ := ih (Visit.used count _) hrest
          refine ⟨?_, hvisited.servedBy.append hserved⟩
          simpa using hfollows

/-- The sweep over the array. -/
theorem sweep_array {first : PollFd} {rest : List PollFd} (hfirst : first.fd = listenFd)
    {count : Nat} (hcount : count = rest.length + 1)
    (h : w.Follows start listenFd false (rest.map PollFd.fd)) :
    let swept := sweep PollFd.ready (handleEntry (gateEnv listenFd) listenFd) count w
      (first :: rest)
    ∃ clients, swept.kept = first :: clients ∧
      swept.world.Follows start listenFd false ((clients ++ swept.appended).map PollFd.fd) ∧
      ServedBy listenFd swept.visits w swept.world := by
  have hclients : ∀ entry ∈ rest, entry.fd ≠ listenFd := by
    intro entry hentry heq
    exact h.apart (heq ▸ List.mem_map_of_mem hentry)
  cases hready : first.ready with
  | false =>
      obtain ⟨hfollows, hserved⟩ := @sweep_ordinary _ _ _ rest [] [] count (by simpa using h)
      have hnone := @appended_clients _ (gateEnv listenFd) _ _ hclients count w
      rw [sweep_quiet hready]
      generalize sweep PollFd.ready (handleEntry (gateEnv listenFd) listenFd) count w rest = later
        at hfollows hserved hnone
      refine ⟨later.kept, rfl, ?_, hserved⟩
      show later.world.Follows _ _ _ ((later.kept ++ later.appended).map PollFd.fd)
      rw [hnone]
      simpa using hfollows
  | true =>
      have hhandle : handleEntry (gateEnv listenFd) listenFd w count first =
          acceptClient (gateEnv listenFd) w count := if_pos hfirst
      have hlength : count = (rest.map PollFd.fd).length + 1 := by
        rw [List.length_map]
        exact hcount
      have hvisited := acceptClient_visited h hlength hfirst
      rw [sweep_ready hready, hhandle]
      -- the listening socket is not removed
      have hkept : (acceptClient (gateEnv listenFd) w count).2.kept first = [first] := by
        rcases acceptClient_spec (gateEnv listenFd) w count with hkeep | ⟨fd, happend, -⟩
        · rw [hkeep]
          rfl
        · rw [happend]
          rfl
      generalize acceptClient (gateEnv listenFd) w count = visited at hvisited hkept
      obtain ⟨hfollows, hserved⟩ := @sweep_ordinary _ _ _ rest [] _ (visited.2.used count)
        hvisited.follows
      have hnone := @appended_clients _ (gateEnv listenFd) _ _ hclients (visited.2.used count)
        visited.1
      generalize sweep PollFd.ready (handleEntry (gateEnv listenFd) listenFd)
        (visited.2.used count) visited.1 rest = later at hfollows hserved hnone
      refine ⟨later.kept, ?_, ?_, hvisited.servedBy.append hserved⟩
      · show visited.2.kept first ++ later.kept = _
        rw [hkept]
        rfl
      · show later.world.Follows _ _ _
          ((later.kept ++ (visited.2.added ++ later.appended)).map PollFd.fd)
        rw [hnone, List.append_nil, List.map_append]
        exact hfollows

/-! ## The thread -/

theorem PollArray.entries_poll (a : PollArray) (ready : Int → Bool) :
    (a.poll ready).entries = a.entries.map fun entry => ⟨entry.fd, ready entry.fd⟩ := by
  have hlength : ((a.cells.take a.nfds).map
      fun entry => (⟨entry.fd, ready entry.fd⟩ : PollFd)).length = a.nfds := by
    rw [List.length_map]
    exact a.length_entries
  exact List.take_left' hlength

/-- The thread between two rounds, on a run of the gate. -/
structure InterfaceThread.Follows (start : Gate) (listenFd : Int) (t : InterfaceThread) : Prop where
  array : ∃ first clients, t.array.entries = first :: clients ∧ first.fd = listenFd ∧
    t.world.Follows start listenFd false (clients.map PollFd.fd)
  due : t.served.map Prod.fst = t.due
  served : ∃ steps, List.Forall₂ (fun visited events => VisitSteps listenFd visited.1 visited.2
      events) t.served steps ∧ t.world.own = steps.flatten

/-- A round returns, and keeps to the run. -/
theorem InterfaceThread.Follows.round {t : InterfaceThread} (h : t.Follows start listenFd)
    (ready : Int → Bool) :
    ∃ s, pollRound (gateEnv listenFd) listenFd pollFuel (t.array.poll ready) t.world.next =
        .done s ∧
      InterfaceThread.Follows start listenFd ⟨s.array, s.world,
        t.due ++ (t.array.poll ready).entries.filter PollFd.ready, t.served ++ s.visits⟩ := by
  obtain ⟨first, clients, hentries, hfirst, hfollows⟩ := h.array
  obtain ⟨s, hround, hends⟩ := pollRound_eq_sweep (gateEnv listenFd) listenFd
    (t.array.poll ready) t.world.next (Nat.le_refl pollFuel)
  have hpolled : (t.array.poll ready).entries = ⟨first.fd, ready first.fd⟩ ::
      clients.map fun entry => ⟨entry.fd, ready entry.fd⟩ := by
    rw [PollArray.entries_poll, hentries]
    rfl
  have hfds : (clients.map fun entry => (⟨entry.fd, ready entry.fd⟩ : PollFd)).map PollFd.fd =
      clients.map PollFd.fd := by
    rw [List.map_map]
    rfl
  have hcount : (t.array.poll ready).nfds =
      (clients.map fun entry => (⟨entry.fd, ready entry.fd⟩ : PollFd)).length + 1 := by
    rw [← PollArray.length_entries, hpolled]
    rfl
  have hswept : PollLoop.swept (gateEnv listenFd) listenFd
      ⟨t.array.poll ready, 0, t.world.next, []⟩ =
      sweep PollFd.ready (handleEntry (gateEnv listenFd) listenFd) (t.array.poll ready).nfds
        t.world.next (t.array.poll ready).entries := rfl
  have hvisits := hends.visits
  have hleft := hends.entries
  have hworld := hends.world
  have honce : s.visits.map Prod.fst = (t.array.poll ready).entries.filter PollFd.ready := by
    rw [hvisits, hswept]
    exact map_fst_visits _ _ _
  have hnext := hfollows.next
  rw [← hfds] at hnext
  obtain ⟨clients', hkept, hfollows', hserved⟩ := @sweep_array _ _ _ ⟨first.fd, ready first.fd⟩
    _ hfirst _ hcount hnext
  rw [← hpolled, ← hswept] at hkept hfollows' hserved
  refine ⟨s, hround, ?_, ?_, ?_⟩
  · refine ⟨⟨first.fd, ready first.fd⟩, _, ?_, hfirst, hworld ▸ hfollows'⟩
    show s.array.entries = _
    rw [hleft, hkept]
    rfl
  · show (t.served ++ s.visits).map Prod.fst = _
    rw [List.map_append, h.due, honce]
  · obtain ⟨steps, hsteps, hown⟩ := h.served
    obtain ⟨steps', hsteps', hown'⟩ := hserved
    refine ⟨steps ++ steps', ?_, ?_⟩
    · rw [hvisits]
      exact List.rel_append hsteps hsteps'
    · show s.world.own = _
      rw [hworld, hown', PollWorld.own_next, hown, List.flatten_append]

/-- Every number of rounds keeps to the run. -/
theorem InterfaceThread.Follows.main {t : InterfaceThread} (h : t.Follows start listenFd)
    (rounds : List (Int → Bool)) :
    ∃ t', ordinaryInterfaceMain listenFd rounds t = .done t' ∧ t'.Follows start listenFd := by
  induction rounds generalizing t with
  | nil => exact ⟨t, rfl, h⟩
  | cons ready rounds ih =>
      obtain ⟨s, hround, hs⟩ := h.round ready
      obtain ⟨t', hmain, ht'⟩ := ih hs
      refine ⟨t', ?_, ht'⟩
      rw [ordinaryInterfaceMain, hround]
      exact hmain

end World

/-- Before the first round. -/
def InterfaceThread.start (a : PollArray) (now : Int) (turns : Nat → PollTurn) :
    InterfaceThread where
  array := a
  world := ⟨some (.init now), turns, 0, [], []⟩
  due := []
  served := []

/-- Whatever is ready, and whatever the other threads and the kernel do: after every number of
rounds the loop has returned without leaving the array, each ready entry was visited once and in
order, and the steps of the interface in the trace are those of the visits.  The trace is a run of
the gate, unless `next_client_id` overflows, and the array then holds the listening socket and the
open connections of clients, each once. -/
theorem interface_refines_gate {now : Int} {listenFd : Int} {listening : Bool} {a : PollArray}
    (harray : a.entries = [⟨listenFd, listening⟩]) (turns : Nat → PollTurn)
    (rounds : List (Int → Bool)) :
    ∃ t, ordinaryInterfaceMain listenFd rounds (.start a now turns) = .done t ∧
      t.served.map Prod.fst = t.due ∧
      (∃ steps, List.Forall₂ (fun visited events => VisitSteps listenFd visited.1 visited.2 events)
          t.served steps ∧
        t.world.trace.filter GateEvent.ofInterface = steps.flatten) ∧
      gateAfter (.init now) t.world.trace = t.world.gate ∧
      (t.world.gate = none → Overflows (.init now) t.world.trace) ∧
      ∀ g, t.world.gate = some g → ∃ fds, t.array.entries.map PollFd.fd = listenFd :: fds ∧
        (listenFd :: fds).Nodup ∧ (∀ fd, fd ∈ fds ↔ ∃ c, g.net.owner fd = some ⟨c, false⟩) ∧
        t.array.nfds = g.nfds ∧ g.nfds ≤ maxFds := by
  have hempty : (Gate.init now).Watches false [] :=
    ⟨sound_init now, rfl, List.nodup_nil, fun fd => by simp [Gate.init, Network.init], rfl⟩
  have hworld : PollWorld.Follows (.init now) listenFd false []
      ⟨some (.init now), turns, 0, [], []⟩ := by
    refine ⟨List.not_mem_nil, rfl, fun g hg => ?_, fun hnone => by cases hnone⟩
    obtain rfl := Option.some.inj hg
    exact hempty
  have hstart : (InterfaceThread.start a now turns).Follows (.init now) listenFd :=
    ⟨⟨⟨listenFd, listening⟩, [], harray, rfl, hworld⟩, rfl, [], .nil, rfl⟩
  obtain ⟨t, hmain, ht⟩ := hstart.main rounds
  obtain ⟨first, clients, hentries, hfirst, hfollows⟩ := ht.array
  refine ⟨t, hmain, ht.due, ht.served, hfollows.traced, hfollows.defined, fun g hg => ?_⟩
  have hwatches := hfollows.watches g hg
  have hfds : t.array.entries.map PollFd.fd = listenFd :: clients.map PollFd.fd := by
    rw [hentries, List.map_cons, hfirst]
  have hnfds : t.array.nfds = g.nfds := by
    rw [← t.array.length_entries, hwatches.count, hentries, List.length_cons, List.length_map]
  exact ⟨_, hfds, List.nodup_cons.mpr ⟨hfollows.apart, hwatches.nodup⟩, hwatches.opened, hnfds,
    hnfds ▸ t.array.inUse⟩

/-! ### A client comes, and leaves while the next one comes and an admin logs in -/

def sampleTurns : Nat → PollTurn
  | 2 => ⟨[], 0, some (7, ⟨10, 0, 0, 1⟩), none, true⟩
  | 4 => ⟨[], 1, none, some ⟨0, opConnect, []⟩, true⟩
  | 6 => ⟨[.other (.acceptAdmin 9)], 2, some (8, ⟨10, 0, 0, 2⟩), none, true⟩
  | 7 => ⟨[], 3, none, some ⟨1, opBye, []⟩, true⟩
  | _ => ⟨[], 0, none, none, true⟩

def sampleArray : PollArray where
  cells := ⟨3, false⟩ :: List.replicate 255 ⟨0, false⟩
  nfds := 1
  size_eq := by rw [List.length_cons, List.length_replicate]
  inUse := by decide

def sampleRounds : List (Int → Bool) := [fun _ => true, fun fd => fd = 7, fun _ => true]

theorem interface_refines_gate_sample :
    ∃ t, ordinaryInterfaceMain 3 sampleRounds (.start sampleArray 0 sampleTurns) = .done t ∧
      t.array.entries.map PollFd.fd = [3, 8] ∧ t.world.trace.length = 5 ∧
      gateAfter (.init 0) t.world.trace = t.world.gate := by
  obtain ⟨t, hmain, -, -, htraced, -⟩ :=
    @interface_refines_gate 0 3 false sampleArray rfl sampleTurns sampleRounds
  have hends : (match ordinaryInterfaceMain 3 sampleRounds (.start sampleArray 0 sampleTurns) with
      | .done t => some (t.array.entries.map PollFd.fd, t.world.trace.length)
      | _ => none) = some ([3, 8], 5) := by
    decide +kernel
  rw [hmain] at hends
  obtain ⟨hentries, hlength⟩ := Prod.mk.inj (Option.some.inj hends)
  exact ⟨t, hmain, hentries, hlength, htraced⟩

end SqlCodeGenerator
