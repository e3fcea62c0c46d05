import SqlCodeGenerator.AddressBlocks
import SqlCodeGenerator.Library.KeyedTables
import SqlCodeGenerator.Logging
import SqlCodeGenerator.Registrations

/-!
# The addresses of the clients

`accept_client` of `server.c` writes the address of a connection into `g_fd_addrs`, a table of
128 places, and `OP_CONNECT` reads it from there.  Up to 255 connections are open at a time, the
kernel gives out descriptors again, and the admin blocks addresses meanwhile.

* `GateStep`, `GateEvent.step_cases`: what a step does to the connections and their addresses;
* `client_addresses`: the address that a client is shown with is the one of its connection, or
  `client`, where 128 others were open;
* `blocked_stay_out`: a blocked address is not seen again on a new connection.
-/

namespace SqlCodeGenerator

open Library

/-! ## The table -/

/-- `MAX_ADDR_TRACK`. -/
abbrev maxAddrTrack : Nat := 128

/-- `FdAddress`. -/
structure FdAddress where
  fd : Int
  addr : CBuf 64

/-- A place after `memset`. -/
def FdAddress.zero : FdAddress := ⟨0, ⟨[], by decide⟩⟩

/-- `g_fd_addrs`. -/
abbrev FdAddrs := FixedArray FdAddress maxAddrTrack

/-- `fd_addr_set`. -/
def fdAddrSet (fd : Int) (addr : CString) (addrs : FdAddrs) : FdAddrs :=
  KeyedTable.store FdAddress.fd 0 addrs ⟨fd, snprintf addr⟩

/-- `fd_addr_get`. -/
def fdAddrGet (fd : Int) (addrs : FdAddrs) : CString :=
  match KeyedTable.lookup FdAddress.fd addrs fd with
  | none => lit "client"
  | some entry => entry.addr.chars

/-- `fd_addr_remove`. -/
def fdAddrRemove (fd : Int) (addrs : FdAddrs) : FdAddrs :=
  KeyedTable.erase FdAddress.fd FdAddress.zero addrs fd

theorem fdAddrGet_set_of_ne {fd other : Int} (hother : other ≠ 0) (hne : other ≠ fd)
    (addr : CString) (addrs : FdAddrs) :
    fdAddrGet other (fdAddrSet fd addr addrs) = fdAddrGet other addrs := by
  unfold fdAddrGet fdAddrSet
  rw [KeyedTable.lookup_store_of_ne hother hne]

theorem fdAddrGet_remove_of_ne {fd other : Int} (hother : other ≠ 0) (hne : other ≠ fd)
    (addrs : FdAddrs) : fdAddrGet other (fdAddrRemove fd addrs) = fdAddrGet other addrs := by
  have hzero : FdAddress.zero.fd = 0 := rfl
  unfold fdAddrGet fdAddrRemove
  rw [KeyedTable.lookup_erase_of_ne hzero hother hne]

/-- A new descriptor is found with its address, unless every place is taken. -/
theorem fdAddrGet_set {fd : Int} {addr : CString} {addrs : FdAddrs}
    (hnew : ¬ KeyedTable.Has FdAddress.fd addrs fd) (hfits : addr.length < 64) :
    fdAddrGet fd (fdAddrSet fd addr addrs) = addr ∨
      fdAddrGet fd (fdAddrSet fd addr addrs) = lit "client" ∧
        ∀ place, (addrs.get place).fd ≠ 0 := by
  let record : FdAddress := ⟨fd, snprintf addr⟩
  have hnew' : ¬ KeyedTable.Has FdAddress.fd addrs record.fd := hnew
  unfold fdAddrGet fdAddrSet
  rcases KeyedTable.lookup_store hnew' with hfound | ⟨hnone, hfull⟩
  · rw [hfound]
    exact Or.inl (chars_snprintf_of_fits hfits)
  · rw [hnone]
    exact Or.inr ⟨rfl, hfull⟩

/-! ## The server with the addresses -/

/-- Where a connection comes from, and how many others were open. -/
structure Peer where
  ip : Ipv4
  others : Nat

/-- The server with its connections, their addresses and the blocked ones.  `peers` and
`denied` are history. -/
structure Gate where
  net : Network
  addrs : FdAddrs
  blocked : Blocklist
  /-- `nfds` of the ordinary interface. -/
  nfds : Nat
  peers : Nat → Option Peer
  denied : List Message

/-- Before the first connection. -/
def Gate.init (now : Int) : Gate where
  net := .init now
  addrs := .replicate maxAddrTrack .zero
  blocked := .empty
  nfds := 1
  peers := fun _ => none
  denied := []

/-- `accept_client`, where `accept` returns a descriptor. -/
def Gate.acceptClient (g : Gate) (fd : Int) (ip : Ipv4) : Option Gate :=
  (NetworkEvent.step g.net (.accept fd)).map fun net =>
    if g.nfds ≥ maxFds then
      g
    else if addrBlocked g.blocked ip.text then
      { g with
        denied := g.denied ++ [respondText fd 0 opError (lit "access denied by admin blocklist")] }
    else
      { g with
        net := net
        addrs := fdAddrSet fd ip.text g.addrs
        nfds := g.nfds + 1
        peers := Function.update g.peers g.net.accepted (some ⟨ip, g.nfds - 1⟩) }

/-- What `remove_pollfd` of the ordinary interface does besides the network. -/
def Gate.forget (g : Gate) (fd : Int) : Gate :=
  { g with addrs := fdAddrRemove fd g.addrs, nfds := g.nfds - 1 }

/-- The steps that have a constructor of their own below. -/
def NetworkEvent.atGate : NetworkEvent → Bool
  | .accept _ | .message .. | .hangup _ | .hangupAdmin | .adminBlock => true
  | _ => false

/-- A step of the server with the addresses. -/
inductive GateEvent where
  | accept (fd : Int) (ip : Ipv4)
  | message (now fd : Int) (clientId opId : UInt32) (payload : List UInt8)
  | hangup (fd : Int)
  | hangupAdmin
  /-- `OP_ADMIN_BLOCK`. -/
  | block (payload : Option CString)
  /-- Any other step of the network. -/
  | other (e : NetworkEvent)

/-- A step, if the network makes it. -/
def GateEvent.step (g : Gate) : GateEvent → Option Gate
  | .accept fd ip => g.acceptClient fd ip
  | .message now fd clientId opId payload =>
      (NetworkEvent.step g.net
          (.message now fd (fdAddrGet fd g.addrs) clientId opId payload)).map fun net =>
        if opId = opBye then { g with net := net }.forget fd else { g with net := net }
  | .hangup fd =>
      (NetworkEvent.step g.net (.hangup fd)).map fun net => { g with net := net }.forget fd
  | .hangupAdmin =>
      match g.net.adminFd with
      | none => none
      | some fd =>
          (NetworkEvent.step g.net .hangupAdmin).map fun net =>
            { g with net := net, addrs := fdAddrRemove fd g.addrs }
  | .block payload =>
      (NetworkEvent.step g.net .adminBlock).map fun net =>
        match blockAddr g.blocked payload with
        | (blocked, .ok _) => { g with net := net, blocked := blocked }
        | (_, .error _) => g
  | .other e =>
      if e.atGate then
        none
      else
        (NetworkEvent.step g.net e).map fun net => { g with net := net }

/-- The state after a list of steps. -/
def gateAfter (g : Gate) (events : List GateEvent) : Option Gate :=
  runFrom GateEvent.step g events

/-! ## The addresses in the table of clients -/

/-- The address of a slot. -/
def slotAddr (state : SharedState) (slot : Fin maxClients) : CString :=
  (state.clients.get slot).addr.chars

/-- What is in use afterwards was there before. -/
def SlotsKept (state state' : SharedState) : Prop :=
  ∀ slot, 0 < slotFd state' slot →
    slotFd state slot = slotFd state' slot ∧ slotClient state slot = slotClient state' slot ∧
      slotAddr state slot = slotAddr state' slot

theorem slotAddr_clientTouch (now : Int) (clientId : UInt32) (state : SharedState)
    (slot : Fin maxClients) :
    slotAddr (clientTouch now clientId state) slot = slotAddr state slot := by
  unfold clientTouch slotAddr
  split
  · rfl
  · next found _ =>
      rw [FixedArray.get_set]
      split
      · next heq => rw [heq]
      · rfl

theorem slotAddr_updateJobOf (r : Request) (now : Int) (status : JobStatus) (result : CString)
    (state : SharedState) (slot : Fin maxClients) :
    slotAddr (updateJobOf r now status result state) slot = slotAddr state slot := by
  obtain ⟨jobs, hframe⟩ := updateJobOf_frame r now status result state
  rw [hframe]
  rfl

/-- Only `OP_CONNECT` writes an address. -/
theorem StepSpec.slotAddr_eq {net net' : Network} {e : NetworkEvent} (h : StepSpec net e net')
    (hconnect : e.connectFd = none) (slot : Fin maxClients) :
    slotAddr net'.server.shared slot = slotAddr net.server.shared slot := by
  have hremove : ∀ fd, slotAddr (clientRemoveFd fd net.server.shared) slot =
      slotAddr net.server.shared slot := by
    intro fd
    unfold clientRemoveFd slotAddr
    split
    · rfl
    · rw [FixedArray.get_set]
      split
      · next heq => rw [heq]
      · rfl
  cases h with
  | connect now fd addr clientId payload connection howner hmax message => cases hconnect
  | bye now fd addr clientId payload connection howner message => exact hremove fd
  | receive now fd addr clientId opId payload connection howner hpending hregistered hop =>
      show slotAddr (receiveRequest now fd clientId opId payload net.server.shared).2 slot = _
      unfold receiveRequest
      cases isProcessingOp opId with
      | true => rfl
      | false => rfl
  | hangup fd connection howner => exact hremove fd
  | hangupAdmin fd hadmin => exact hremove fd
  | adminCancel clientId =>
      obtain ⟨_, _, _, hframe⟩ := adminCancel_frame clientId net.server.shared
      show slotAddr (SqlCodeGenerator.adminCancel clientId net.server.shared) slot = _
      rw [hframe]
      rfl
  | begin now r hworker =>
      exact (slotAddr_updateJobOf r now _ _ _ slot).trans
        (slotAddr_clientTouch now r.clientId net.server.shared slot)
  | handle env r state h' hworker hhandle =>
      obtain ⟨_, _, _, _, _, _, rfl⟩ := handleRequest_effect hhandle
      rfl
  | finish now elapsed r h' hworker houtbox =>
      obtain ⟨_, _, _, _, _, _, _, hframe⟩ := finishRequest_frame now elapsed r h' net.server.shared
      show slotAddr (finishRequest now elapsed r h' net.server.shared).1 slot = _
      rw [hframe]
      rfl
  -- no other step touches the table of clients
  | _ => rfl

/-- Steps that keep the descriptors and identifiers. -/
theorem SlotsKept.of_sameClients {state state' : SharedState} (hclients : SameClients state state')
    (haddr : ∀ slot, slotAddr state' slot = slotAddr state slot) : SlotsKept state state' := by
  intro slot _
  exact ⟨(hclients.fd slot).symm, (hclients.clientId slot).symm, (haddr slot).symm⟩

/-- A descriptor is closed. -/
theorem SlotsKept.of_closed {state state' : SharedState} {fd : Int}
    (hclients : SameClients (clientRemoveFd fd state) state')
    (haddr : ∀ slot, slotAddr state' slot = slotAddr state slot) : SlotsKept state state' := by
  intro slot hpos
  have hfd : slotFd state' slot = slotFd (clientRemoveFd fd state) slot := hclients.fd slot
  have hclient : slotClient state' slot = slotClient (clientRemoveFd fd state) slot :=
    hclients.clientId slot
  rcases clientRemoveFd_slots fd state with ⟨hsame, -⟩ | ⟨used, -, hslots⟩
  · rw [hsame] at hfd hclient
    exact ⟨hfd.symm, hclient.symm, (haddr slot).symm⟩
  · rw [(hslots slot).1] at hfd
    rw [(hslots slot).2] at hclient
    split at hfd
    · omega
    · exact ⟨hfd.symm, hclient.symm, (haddr slot).symm⟩

/-- A slot is as before, or holds the client that is registered. -/
theorem registerClient_slot (now fd : Int) (addr : CString) (clientId : Int) (state : SharedState)
    (slot : Fin maxClients) :
    (slotFd (registerClient now fd addr clientId state) slot = slotFd state slot ∧
      slotClient (registerClient now fd addr clientId state) slot = slotClient state slot ∧
      slotAddr (registerClient now fd addr clientId state) slot = slotAddr state slot) ∨
    (slotClient (registerClient now fd addr clientId state) slot = clientId ∧
      slotAddr (registerClient now fd addr clientId state) slot =
        (snprintf addr : CBuf 64).chars) := by
  unfold registerClient slotFd slotClient slotAddr
  split
  · exact Or.inl ⟨rfl, rfl, rfl⟩
  · next free _ =>
      simp only [FixedArray.get_set]
      split
      · exact Or.inr ⟨rfl, rfl⟩
      · exact Or.inl ⟨rfl, rfl, rfl⟩

/-! ## What a step does -/

/-- A step as the addresses see it. -/
inductive GateStep (g g' : Gate) : Prop where
  /-- The connections of clients stay as they are. -/
  | quiet (howner : ∀ fd c, g'.net.owner fd = some ⟨c, false⟩ ↔ g.net.owner fd = some ⟨c, false⟩)
      (haccepted : g.net.accepted ≤ g'.net.accepted) (hassigned : g'.net.assigned = g.net.assigned)
      (hslots : SlotsKept g.net.server.shared g'.net.server.shared)
      (haddrs : g'.addrs = g.addrs) (hnfds : g'.nfds = g.nfds) (hpeers : g'.peers = g.peers)
      (hblocked : ∃ more, g'.blocked.items = g.blocked.items ++ more)
  /-- A connection is taken. -/
  | accepts (fd : Int) (ip : Ipv4) (hpos : 0 < fd) (hfree : g.net.owner fd = none)
      (hallowed : addrBlocked g.blocked ip.text = false)
      (hnet : g'.net = g.net.openFd fd false) (haddrs : g'.addrs = fdAddrSet fd ip.text g.addrs)
      (hnfds : g'.nfds = g.nfds + 1)
      (hpeers : g'.peers = Function.update g.peers g.net.accepted (some ⟨ip, g.nfds - 1⟩))
      (hblocked : g'.blocked = g.blocked)
  /-- A descriptor is closed. -/
  | closes (fd : Int)
      (hopen : (∃ c, g.net.owner fd = some ⟨c, false⟩) ∧ g'.nfds = g.nfds - 1 ∨
        (∃ c, g.net.owner fd = some ⟨c, true⟩) ∧ g'.nfds = g.nfds)
      (howner : g'.net.owner = Function.update g.net.owner fd none)
      (haccepted : g'.net.accepted = g.net.accepted)
      (hassigned : g'.net.assigned = g.net.assigned)
      (hslots : SlotsKept g.net.server.shared g'.net.server.shared)
      (haddrs : g'.addrs = fdAddrRemove fd g.addrs) (hpeers : g'.peers = g.peers)
      (hblocked : g'.blocked = g.blocked)
  /-- `OP_CONNECT`. -/
  | connects (now fd : Int) (c : Nat) (hopen : g.net.owner fd = some ⟨c, false⟩)
      (hmax : g.net.server.shared.nextClientId < intMax)
      (howner : g'.net.owner = g.net.owner) (haccepted : g'.net.accepted = g.net.accepted)
      (hassigned : g'.net.assigned =
        (UInt32.ofNat g.net.server.shared.nextClientId, c) :: g.net.assigned)
      (hshared : g'.net.server.shared =
        connectClient now fd (fdAddrGet fd g.addrs) g.net.server.shared)
      (haddrs : g'.addrs = g.addrs) (hnfds : g'.nfds = g.nfds) (hpeers : g'.peers = g.peers)
      (hblocked : g'.blocked = g.blocked)

/-- The network in a quiet step. -/
structure Network.Quiet (net net' : Network) : Prop where
  owner : ∀ fd c, net'.owner fd = some ⟨c, false⟩ ↔ net.owner fd = some ⟨c, false⟩
  accepted : net.accepted ≤ net'.accepted
  assigned : net'.assigned = net.assigned
  slots : SlotsKept net.server.shared net'.server.shared

/-- A step that leaves the open descriptors alone. -/
theorem Network.Quiet.of_owner {net net' : Network} (howner : net'.owner = net.owner)
    (haccepted : net'.accepted = net.accepted) (hassigned : net'.assigned = net.assigned)
    (hclients : SameClients net.server.shared net'.server.shared)
    (haddr : ∀ slot, slotAddr net'.server.shared slot = slotAddr net.server.shared slot) :
    net.Quiet net' where
  owner fd c := by rw [howner]
  accepted := haccepted.ge
  assigned := hassigned
  slots := .of_sameClients hclients haddr

theorem StepSpec.quiet_of_other {net net' : Network} {e : NetworkEvent} (h : StepSpec net e net')
    (hother : e.atGate = false) : net.Quiet net' := by
  have hconnect : e.connectFd = none := by
    cases e with
    | message now fd addr clientId opId payload => cases hother
    | _ => rfl
  have haddr := h.slotAddr_eq hconnect
  cases h with
  | accept fd hpos hfree => cases hother
  | connect now fd addr clientId payload connection howner hmax message => cases hother
  | bye now fd addr clientId payload connection howner message => cases hother
  | reject now fd addr clientId opId payload connection howner hop hunknown => cases hother
  | query now fd addr clientId opId payload connection howner hregistered hop => cases hother
  | receive now fd addr clientId opId payload connection howner hpending hregistered hop =>
      cases hother
  | hangup fd connection howner => cases hother
  | hangupAdmin fd hadmin => cases hother
  | adminBlock => cases hother
  | acceptAdmin fd hadmin hpos hfree =>
      refine ⟨fun other c => ?_, Nat.le_succ _, rfl, .of_sameClients (.of_eq rfl rfl) haddr⟩
      show Function.update net.owner fd (some ⟨net.accepted, true⟩) other = _ ↔ _
      rw [Function.update_apply]
      split
      · next heq =>
          rw [heq, hfree]
          simp
      · rfl
  | adminCancel clientId => exact .of_owner rfl rfl rfl (sameClients_adminCancel clientId _) haddr
  | begin now r hworker => exact .of_owner rfl rfl rfl (sameClients_beginRequest now r _) haddr
  | handle env r state h hworker hhandle =>
      exact .of_owner rfl rfl rfl (sameClients_handleRequest hhandle) haddr
  | finish now elapsed r h hworker houtbox =>
      exact .of_owner rfl rfl rfl (sameClients_finishRequest now elapsed r h _) haddr
  | _ => exact .of_owner rfl rfl rfl (.of_eq rfl rfl) haddr

theorem GateStep.of_quiet {g g' : Gate} (hnet : g.net.Quiet g'.net) (haddrs : g'.addrs = g.addrs)
    (hnfds : g'.nfds = g.nfds) (hpeers : g'.peers = g.peers)
    (hblocked : ∃ more, g'.blocked.items = g.blocked.items ++ more) : GateStep g g' :=
  .quiet hnet.owner hnet.accepted hnet.assigned hnet.slots haddrs hnfds hpeers hblocked

theorem Network.Quiet.refl (net : Network) : net.Quiet net :=
  .of_owner rfl rfl rfl (.of_eq rfl rfl) fun _ => rfl

theorem GateEvent.step_message {g g' : Gate} {now fd : Int} {clientId opId : UInt32}
    {payload : List UInt8} (h : (GateEvent.message now fd clientId opId payload).step g = some g') :
    GateStep g g' := by
  obtain ⟨net, hstep, rfl⟩ := Option.map_eq_some_iff.mp h
  have hspec := NetworkEvent.step_spec hstep
  have haddr := hspec.slotAddr_eq
  cases hspec with
  | connect _ _ _ _ _ c howner hmax message =>
      exact .connects now fd c howner hmax rfl rfl rfl rfl rfl rfl rfl rfl
  | bye _ _ _ _ _ c howner message =>
      exact .closes fd (Or.inl ⟨⟨c, howner⟩, rfl⟩) rfl rfl rfl
        (.of_closed (.of_eq rfl rfl) (haddr rfl)) rfl rfl rfl
  | reject _ _ _ _ _ _ c howner hop hunknown =>
      rw [if_neg hop.2]
      exact .of_quiet (.of_owner rfl rfl rfl (.of_eq rfl rfl) (haddr (connectFd_message hop.1)))
        rfl rfl rfl ⟨[], (List.append_nil _).symm⟩
  | query _ _ _ _ _ _ c howner hregistered hop =>
      have hother : opId ≠ opConnect ∧ opId ≠ opBye := by rcases hop with rfl | rfl <;> decide
      rw [if_neg hother.2]
      exact .of_quiet (.of_owner rfl rfl rfl (.of_eq rfl rfl) (haddr (connectFd_message hother.1)))
        rfl rfl rfl ⟨[], (List.append_nil _).symm⟩
  | receive _ _ _ _ _ _ c howner hpending hregistered hop =>
      rw [if_neg hop.2]
      exact .of_quiet (.of_owner rfl rfl rfl
          (sameClients_receiveRequest now fd clientId opId payload _)
          (haddr (connectFd_message hop.1)))
        rfl rfl rfl ⟨[], (List.append_nil _).symm⟩

/-- The list of blocked addresses only grows. -/
theorem blockAddr_append (blocked : Blocklist) (payload : Option CString) :
    ∃ more, (blockAddr blocked payload).1.items = blocked.items ++ more := by
  have hspec := blockAddr_spec blocked payload
  generalize blockAddr blocked payload = result at hspec
  cases hspec with
  | refused text hrefused => exact ⟨[], (List.append_nil _).symm⟩
  | known text hknown => exact ⟨[], (List.append_nil _).symm⟩
  | stored text hnew hroom hitems => exact ⟨_, hitems⟩

theorem GateEvent.step_cases {g g' : Gate} {e : GateEvent} (hs : g.net.Sound)
    (h : e.step g = some g') : GateStep g g' := by
  cases e with
  | accept fd ip =>
      obtain ⟨net, hstep, rfl⟩ := Option.map_eq_some_iff.mp h
      cases NetworkEvent.step_spec hstep with
      | accept _ hpos hfree =>
          split
          · exact .of_quiet (.refl g.net) rfl rfl rfl ⟨[], (List.append_nil _).symm⟩
          · split
            · exact .of_quiet (.refl g.net) rfl rfl rfl ⟨[], (List.append_nil _).symm⟩
            · next hallowed =>
                exact .accepts fd ip hpos hfree (Bool.eq_false_iff.mpr hallowed) rfl rfl rfl rfl rfl
  | message now fd clientId opId payload => exact step_message h
  | hangup fd =>
      obtain ⟨net, hstep, rfl⟩ := Option.map_eq_some_iff.mp h
      have hspec := NetworkEvent.step_spec hstep
      have haddr := hspec.slotAddr_eq rfl
      cases hspec with
      | hangup _ c howner =>
          exact .closes fd (Or.inl ⟨⟨c, howner⟩, rfl⟩) rfl rfl rfl
            (.of_closed (.of_eq rfl rfl) haddr) rfl rfl rfl
  | hangupAdmin =>
      simp only [step] at h
      split at h
      · cases h
      · next fd hadmin =>
          obtain ⟨net, hstep, rfl⟩ := Option.map_eq_some_iff.mp h
          have hspec := NetworkEvent.step_spec hstep
          have haddr := hspec.slotAddr_eq rfl
          cases hspec with
          | hangupAdmin fd' hadmin' =>
              obtain rfl : fd = fd' := Option.some.inj (hadmin.symm.trans hadmin')
              exact .closes fd (Or.inr ⟨hs.admin fd hadmin, rfl⟩) rfl rfl rfl
                (.of_closed (.of_eq rfl rfl) haddr) rfl rfl rfl
  | block payload =>
      obtain ⟨net, hstep, rfl⟩ := Option.map_eq_some_iff.mp h
      have hmore := blockAddr_append g.blocked payload
      cases NetworkEvent.step_spec hstep with
      | adminBlock =>
          split
          · next blocked text heq =>
              rw [heq] at hmore
              exact .of_quiet (.of_owner rfl rfl rfl (.of_eq rfl rfl) fun _ => rfl) rfl rfl rfl
                hmore
          · exact .of_quiet (.refl g.net) rfl rfl rfl ⟨[], (List.append_nil _).symm⟩
  | other e =>
      simp only [step] at h
      split at h
      · cases h
      · next hother =>
          obtain ⟨net, hstep, rfl⟩ := Option.map_eq_some_iff.mp h
          exact .of_quiet ((NetworkEvent.step_spec hstep).quiet_of_other
            (Bool.eq_false_iff.mpr hother)) rfl rfl rfl ⟨[], (List.append_nil _).symm⟩

/-- The network takes part in every step, or nothing happens to it. -/
theorem GateEvent.step_net {g g' : Gate} {e : GateEvent} (h : e.step g = some g') :
    g'.net = g.net ∨ ∃ e', NetworkEvent.step g.net e' = some g'.net := by
  cases e with
  | accept fd ip =>
      obtain ⟨net, hstep, rfl⟩ := Option.map_eq_some_iff.mp h
      split
      · exact Or.inl rfl
      · split
        · exact Or.inl rfl
        · exact Or.inr ⟨_, hstep⟩
  | message now fd clientId opId payload =>
      obtain ⟨net, hstep, rfl⟩ := Option.map_eq_some_iff.mp h
      split
      · exact Or.inr ⟨_, hstep⟩
      · exact Or.inr ⟨_, hstep⟩
  | hangup fd =>
      obtain ⟨net, hstep, rfl⟩ := Option.map_eq_some_iff.mp h
      exact Or.inr ⟨_, hstep⟩
  | hangupAdmin =>
      simp only [step] at h
      split at h
      · cases h
      · obtain ⟨net, hstep, rfl⟩ := Option.map_eq_some_iff.mp h
        exact Or.inr ⟨_, hstep⟩
  | block payload =>
      obtain ⟨net, hstep, rfl⟩ := Option.map_eq_some_iff.mp h
      split
      · exact Or.inr ⟨_, hstep⟩
      · exact Or.inl rfl
  | other e =>
      simp only [step] at h
      split at h
      · cases h
      · obtain ⟨net, hstep, rfl⟩ := Option.map_eq_some_iff.mp h
        exact Or.inr ⟨_, hstep⟩

theorem GateEvent.step_sound {g g' : Gate} {e : GateEvent} (hs : g.net.Sound)
    (h : e.step g = some g') : g'.net.Sound := by
  rcases step_net h with hsame | ⟨e', hstep⟩
  · rw [hsame]
    exact hs
  · exact hs.step hstep

/-! ## The addresses in every run -/

/-- The text is the address of the connection, or `client`, where as many other connections as
the table has places were open. -/
def Peer.ShownAs (peer : Peer) (text : CString) : Prop :=
  text = peer.ip.text ∨ text = lit "client" ∧ maxAddrTrack ≤ peer.others

/-- The places of the table in use belong to open connections, the table says of every open
connection what it is shown as, and so does the slot of every client. -/
structure Gate.Sound (g : Gate) : Prop where
  net : g.net.Sound
  distinct : KeyedTable.Distinct FdAddress.fd 0 g.addrs
  opened : ∀ fd, fd ≠ 0 → KeyedTable.Has FdAddress.fd g.addrs fd →
    ∃ c, g.net.owner fd = some ⟨c, false⟩
  known : ∀ fd c, g.net.owner fd = some ⟨c, false⟩ →
    ∃ peer, g.peers c = some peer ∧ peer.ShownAs (fdAddrGet fd g.addrs)
  counted : ∀ c peer, g.peers c = some peer → c < g.net.accepted
  watched : ∃ fds : Finset Int, (∀ fd, fd ∈ fds ↔ ∃ c, g.net.owner fd = some ⟨c, false⟩) ∧
    g.nfds = fds.card + 1
  slots : ∀ slot, 0 < slotFd g.net.server.shared slot → ∃ id c peer,
    (id, c) ∈ g.net.assigned ∧ toInt id = slotClient g.net.server.shared slot ∧
      g.peers c = some peer ∧ peer.ShownAs (slotAddr g.net.server.shared slot)

theorem gate_sound_init (now : Int) : (Gate.init now).Sound where
  net := sound_init now
  distinct place other hused := by
    have hzero : ((Gate.init now).addrs.get place).fd = 0 := by
      show ((FixedArray.replicate maxAddrTrack FdAddress.zero).get place).fd = 0
      rw [FixedArray.get_replicate]
      rfl
    exact absurd hzero hused
  opened fd hfd := by
    rintro ⟨place, hplace⟩
    have hzero : ((Gate.init now).addrs.get place).fd = 0 := by
      show ((FixedArray.replicate maxAddrTrack FdAddress.zero).get place).fd = 0
      rw [FixedArray.get_replicate]
      rfl
    exact absurd (hplace.symm.trans hzero) hfd
  known fd c h := by cases h
  counted c peer h := by cases h
  watched := ⟨∅, fun fd => by simp [Gate.init, Network.init], rfl⟩
  slots slot hpos := by
    have hzero : slotFd (Gate.init now).net.server.shared slot = 0 := slotFd_stateInit now slot
    omega

/-- The slots after a step, when no new one is taken. -/
theorem Gate.Sound.kept_slots {g g' : Gate} (h : g.Sound)
    (hslots : SlotsKept g.net.server.shared g'.net.server.shared)
    (hassigned : g'.net.assigned = g.net.assigned)
    (hpeers : ∀ c, c < g.net.accepted → g'.peers c = g.peers c) :
    ∀ slot, 0 < slotFd g'.net.server.shared slot → ∃ id c peer,
      (id, c) ∈ g'.net.assigned ∧ toInt id = slotClient g'.net.server.shared slot ∧
        g'.peers c = some peer ∧ peer.ShownAs (slotAddr g'.net.server.shared slot) := by
  intro slot hpos
  obtain ⟨hfd, hclient, haddr⟩ := hslots slot hpos
  rw [← hfd] at hpos
  obtain ⟨id, c, peer, hmem, hid, hpeer, hshown⟩ := h.slots slot hpos
  refine ⟨id, c, peer, hassigned ▸ hmem, hclient ▸ hid, ?_, haddr ▸ hshown⟩
  rw [hpeers c (h.net.ids id c hmem).1]
  exact hpeer

theorem Ipv4.length_text_lt (ip : Ipv4) : ip.text.length < 64 := by
  have ha := length_decimal_uint8 ip.a
  have hb := length_decimal_uint8 ip.b
  have hc := length_decimal_uint8 ip.c
  have hd := length_decimal_uint8 ip.d
  simp only [text, List.length_append, List.length_cons]
  omega

theorem length_fdAddrGet_lt (fd : Int) (addrs : FdAddrs) : (fdAddrGet fd addrs).length < 64 := by
  unfold fdAddrGet
  split
  · decide
  · next entry _ => exact entry.addr.fits

theorem Gate.Sound.quiet {g g' : Gate} (h : g.Sound) (hs' : g'.net.Sound)
    (haccepted : g.net.accepted ≤ g'.net.accepted)
    (howner : ∀ fd c, g'.net.owner fd = some ⟨c, false⟩ ↔ g.net.owner fd = some ⟨c, false⟩)
    (hassigned : g'.net.assigned = g.net.assigned)
    (hslots : SlotsKept g.net.server.shared g'.net.server.shared)
    (haddrs : g'.addrs = g.addrs) (hnfds : g'.nfds = g.nfds) (hpeers : g'.peers = g.peers) :
    g'.Sound where
  net := hs'
  distinct := haddrs ▸ h.distinct
  opened fd hfd hhas := by
    rw [haddrs] at hhas
    obtain ⟨c, hc⟩ := h.opened fd hfd hhas
    exact ⟨c, (howner fd c).mpr hc⟩
  known fd c hc := by
    rw [haddrs, hpeers]
    exact h.known fd c ((howner fd c).mp hc)
  counted c peer hpeer := by
    rw [hpeers] at hpeer
    exact Nat.lt_of_lt_of_le (h.counted c peer hpeer) haccepted
  watched := by
    obtain ⟨fds, hfds, hcard⟩ := h.watched
    refine ⟨fds, fun fd => (hfds fd).trans ?_, hnfds.trans hcard⟩
    exact exists_congr fun c => (howner fd c).symm
  slots := h.kept_slots hslots hassigned fun c _ => by rw [hpeers]

/-- Where every place is taken, that many connections are open. -/
theorem Gate.Sound.others_of_full {g : Gate} (h : g.Sound)
    (hfull : ∀ place, (g.addrs.get place).fd ≠ 0) : maxAddrTrack ≤ g.nfds - 1 := by
  obtain ⟨keys, hcard, hkeys⟩ := KeyedTable.keys_of_full h.distinct hfull
  obtain ⟨fds, hfds, hnfds⟩ := h.watched
  have hsub : keys ⊆ fds := by
    intro fd hmem
    obtain ⟨hfd, hhas⟩ := hkeys fd hmem
    exact (hfds fd).mpr (h.opened fd hfd hhas)
  have hle := Finset.card_le_card hsub
  omega

theorem Gate.Sound.accepts {g g' : Gate} (h : g.Sound) (hs' : g'.net.Sound) {fd : Int} {ip : Ipv4}
    (hpos : 0 < fd) (hfree : g.net.owner fd = none) (hnet : g'.net = g.net.openFd fd false)
    (haddrs : g'.addrs = fdAddrSet fd ip.text g.addrs) (hnfds : g'.nfds = g.nfds + 1)
    (hpeers : g'.peers = Function.update g.peers g.net.accepted (some ⟨ip, g.nfds - 1⟩)) :
    g'.Sound := by
  -- the descriptor was free, so the table does not have it
  have hnew : ¬ KeyedTable.Has FdAddress.fd g.addrs fd := by
    intro hhas
    obtain ⟨c, hc⟩ := h.opened fd (by omega) hhas
    rw [hfree] at hc
    cases hc
  have howner : g'.net.owner = Function.update g.net.owner fd (some ⟨g.net.accepted, false⟩) := by
    rw [hnet]
    rfl
  have hothers : ∀ c, c < g.net.accepted → g'.peers c = g.peers c := by
    intro c hc
    rw [hpeers, Function.update_of_ne (by omega)]
  refine ⟨hs', ?_, fun other hother hhas => ?_, fun other c hc => ?_, fun c peer hpeer => ?_,
    ?_, ?_⟩
  · rw [haddrs]
    exact h.distinct.store hnew
  · rw [haddrs] at hhas
    rw [howner, Function.update_apply]
    rcases KeyedTable.has_store hhas with heq | hhas
    · exact ⟨g.net.accepted, if_pos heq⟩
    · have hne : other ≠ fd := fun heq => hnew (heq ▸ hhas)
      rw [if_neg hne]
      exact h.opened other hother hhas
  · rw [howner, Function.update_apply] at hc
    split at hc
    · next heq =>
        obtain rfl : g.net.accepted = c := congrArg Connection.serial (Option.some.inj hc)
        refine ⟨⟨ip, g.nfds - 1⟩, by rw [hpeers, Function.update_self], ?_⟩
        rw [heq, haddrs]
        rcases fdAddrGet_set hnew ip.length_text_lt with hfound | ⟨hnone, hfull⟩
        · exact Or.inl hfound
        · exact Or.inr ⟨hnone, h.others_of_full hfull⟩
    · next hne =>
        obtain ⟨hother, hserial⟩ := h.net.serials other _ hc
        rw [hothers c hserial, haddrs, fdAddrGet_set_of_ne (by omega) hne]
        exact h.known other c hc
  · have hsucc : g'.net.accepted = g.net.accepted + 1 := by
      rw [hnet]
      rfl
    rw [hpeers, Function.update_apply] at hpeer
    split at hpeer
    · omega
    · have hlt := h.counted c peer hpeer
      omega
  · obtain ⟨fds, hfds, hcard⟩ := h.watched
    have hnotMem : fd ∉ fds := by
      rw [hfds, hfree]
      rintro ⟨c, hc⟩
      cases hc
    refine ⟨insert fd fds, fun other => ?_, ?_⟩
    · rw [Finset.mem_insert, hfds, howner, Function.update_apply]
      split
      · next heq => exact iff_of_true (Or.inl heq) ⟨_, rfl⟩
      · next hne => exact or_iff_right hne
    · rw [hnfds, hcard, Finset.card_insert_of_notMem hnotMem]
  · refine h.kept_slots ?_ ?_ hothers
    · rw [hnet]
      exact .of_sameClients (.of_eq rfl rfl) fun _ => rfl
    · rw [hnet]
      rfl

theorem Gate.Sound.closes {g g' : Gate} (h : g.Sound) (hs' : g'.net.Sound) {fd : Int}
    (hopen : (∃ c, g.net.owner fd = some ⟨c, false⟩) ∧ g'.nfds = g.nfds - 1 ∨
      (∃ c, g.net.owner fd = some ⟨c, true⟩) ∧ g'.nfds = g.nfds)
    (howner : g'.net.owner = Function.update g.net.owner fd none)
    (haccepted : g'.net.accepted = g.net.accepted)
    (hassigned : g'.net.assigned = g.net.assigned)
    (hslots : SlotsKept g.net.server.shared g'.net.server.shared)
    (haddrs : g'.addrs = fdAddrRemove fd g.addrs) (hpeers : g'.peers = g.peers) : g'.Sound := by
  refine ⟨hs', ?_, fun other hother hhas => ?_, fun other c hc => ?_, ?_, ?_, ?_⟩
  · rw [haddrs]
    exact h.distinct.erase rfl
  · rw [haddrs] at hhas
    obtain ⟨hne, hhas⟩ := KeyedTable.has_erase h.distinct rfl hother hhas
    rw [howner, Function.update_of_ne hne]
    exact h.opened other hother hhas
  · rw [howner, Function.update_apply] at hc
    split at hc
    · cases hc
    · next hne =>
        obtain ⟨hother, -⟩ := h.net.serials other _ hc
        rw [hpeers, haddrs, fdAddrGet_remove_of_ne (by omega) hne]
        exact h.known other c hc
  · rw [hpeers, haccepted]
    exact h.counted
  · obtain ⟨fds, hfds, hcard⟩ := h.watched
    refine ⟨fds.erase fd, fun other => ?_, ?_⟩
    · rw [Finset.mem_erase, hfds, howner, Function.update_apply]
      split
      · next heq => exact iff_of_false (fun hmem => hmem.1 heq) (by simp)
      · next hne => exact and_iff_right hne
    · -- only a connection of a client is one of those watched
      rcases hopen with ⟨⟨c, hc⟩, hnfds⟩ | ⟨⟨c, hc⟩, hnfds⟩
      · have hmem : fd ∈ fds := (hfds fd).mpr ⟨c, hc⟩
        have hpos := Finset.card_pos.mpr ⟨fd, hmem⟩
        rw [hnfds, hcard, Finset.card_erase_of_mem hmem]
        omega
      · have hnotMem : fd ∉ fds := by
          rw [hfds, hc]
          rintro ⟨c', hc'⟩
          cases hc'
        rw [hnfds, hcard, Finset.erase_eq_of_notMem hnotMem]
  · exact h.kept_slots hslots hassigned fun c _ => by rw [hpeers]

theorem Gate.Sound.connects {g g' : Gate} (h : g.Sound) (hs' : g'.net.Sound) {now fd : Int}
    {c : Nat} (hopen : g.net.owner fd = some ⟨c, false⟩) (howner : g'.net.owner = g.net.owner)
    (haccepted : g'.net.accepted = g.net.accepted)
    (hassigned : g'.net.assigned =
      (UInt32.ofNat g.net.server.shared.nextClientId, c) :: g.net.assigned)
    (hshared : g'.net.server.shared =
      connectClient now fd (fdAddrGet fd g.addrs) g.net.server.shared)
    (haddrs : g'.addrs = g.addrs) (hnfds : g'.nfds = g.nfds) (hpeers : g'.peers = g.peers) :
    g'.Sound := by
  refine ⟨hs', ?_, ?_, ?_, ?_, ?_, fun slot hpos => ?_⟩
  · rw [haddrs]
    exact h.distinct
  · rw [haddrs, howner]
    exact h.opened
  · rw [haddrs, howner, hpeers]
    exact h.known
  · rw [hpeers, haccepted]
    exact h.counted
  · rw [howner, hnfds]
    exact h.watched
  · rw [hshared] at hpos ⊢
    rw [hassigned, hpeers]
    rcases registerClient_slot now fd (fdAddrGet fd g.addrs)
        (toInt (UInt32.ofNat g.net.server.shared.nextClientId))
        { g.net.server.shared with nextClientId := g.net.server.shared.nextClientId + 1 } slot with
      ⟨hfd, hclient, haddr⟩ | ⟨hclient, haddr⟩
    · have hbefore : 0 < slotFd g.net.server.shared slot := by
        have hsame : slotFd (connectClient now fd (fdAddrGet fd g.addrs) g.net.server.shared) slot =
            slotFd g.net.server.shared slot := hfd
        omega
      obtain ⟨id, c', peer, hmem, hid, hpeer, hshown⟩ := h.slots slot hbefore
      exact ⟨id, c', peer, List.mem_cons_of_mem _ hmem, hid.trans hclient.symm, hpeer,
        haddr ▸ hshown⟩
    · obtain ⟨peer, hpeer, hshown⟩ := h.known fd c hopen
      refine ⟨_, c, peer, List.mem_cons_self, hclient.symm, hpeer, ?_⟩
      have hshows :
          slotAddr (connectClient now fd (fdAddrGet fd g.addrs) g.net.server.shared) slot =
            fdAddrGet fd g.addrs :=
        haddr.trans (chars_snprintf_of_fits (length_fdAddrGet_lt fd g.addrs))
      rw [hshows]
      exact hshown

theorem Gate.Sound.step {g g' : Gate} {e : GateEvent} (h : g.Sound) (hstep : e.step g = some g') :
    g'.Sound := by
  have hs' := GateEvent.step_sound h.net hstep
  cases GateEvent.step_cases h.net hstep with
  | quiet howner haccepted hassigned hslots haddrs hnfds hpeers hblocked =>
      exact h.quiet hs' haccepted howner hassigned hslots haddrs hnfds hpeers
  | accepts fd ip hpos hfree hallowed hnet haddrs hnfds hpeers hblocked =>
      exact h.accepts hs' hpos hfree hnet haddrs hnfds hpeers
  | closes fd hopen howner haccepted hassigned hslots haddrs hpeers hblocked =>
      exact h.closes hs' hopen howner haccepted hassigned hslots haddrs hpeers
  | connects now fd c hopen hmax howner haccepted hassigned hshared haddrs hnfds hpeers hblocked =>
      exact h.connects hs' hopen howner haccepted hassigned hshared haddrs hnfds hpeers

theorem gate_sound {now : Int} {events : List GateEvent} {g : Gate}
    (hrun : gateAfter (.init now) events = some g) : g.Sound :=
  runFrom_invariant (fun _ _ _ h hstep => Gate.Sound.step h hstep) (gate_sound_init now) hrun

/-- In every run, every client in the table is shown with the address of the connection that
its identifier was given to, or as `client`; that only where at least 128 other connections
were open when it was accepted.  What `remove_pollfd` does with a descriptor, of a client or of
the admin, is one step. -/
theorem client_addresses {now : Int} {events : List GateEvent} {g : Gate}
    (hrun : gateAfter (.init now) events = some g) {slot : Fin maxClients}
    (hused : 0 < slotFd g.net.server.shared slot) :
    ∃ id c peer, (id, c) ∈ g.net.assigned ∧ toInt id = slotClient g.net.server.shared slot ∧
      g.peers c = some peer ∧ peer.ShownAs (slotAddr g.net.server.shared slot) :=
  (gate_sound hrun).slots slot hused

/-- A client connects from an address, leaves, and its descriptor goes to another one. -/
def peerEvents : List GateEvent :=
  [.accept 7 ⟨10, 0, 0, 1⟩, .message 0 7 0 opConnect [], .hangup 7, .accept 7 ⟨10, 0, 0, 2⟩,
    .message 1 7 0 opConnect []]

theorem client_addresses_reused :
    ∃ g id c peer, gateAfter (.init 0) peerEvents = some g ∧ (id, c) ∈ g.net.assigned ∧
      toInt id = slotClient g.net.server.shared 0 ∧ g.peers c = some peer ∧
      peer.ShownAs (slotAddr g.net.server.shared 0) := by
  have hrun : ((gateAfter (.init 0) peerEvents).map fun g =>
      decide (0 < slotFd g.net.server.shared 0)) = some true := by decide +kernel
  obtain ⟨g, hg, hused⟩ := Option.map_eq_some_iff.mp hrun
  obtain ⟨id, c, peer, hclient⟩ := client_addresses hg (of_decide_eq_true hused)
  exact ⟨g, id, c, peer, hg, hclient⟩

/-! ## Blocked addresses -/

/-- The address is blocked, and the connections from it are among the first. -/
structure Gate.Excludes (ip : Ipv4) (first : Nat) (g : Gate) : Prop where
  sound : g.Sound
  blocked : addrBlocked g.blocked ip.text = true
  before : ∀ c peer, g.peers c = some peer → peer.ip = ip → c < first

theorem addrBlocked_mono {blocked blocked' : Blocklist} {addr : CString}
    (h : addrBlocked blocked addr = true)
    (hmore : ∃ more, blocked'.items = blocked.items ++ more) :
    addrBlocked blocked' addr = true := by
  obtain ⟨more, hitems⟩ := hmore
  rw [addrBlocked_iff] at h ⊢
  rw [hitems, List.map_append, List.mem_append]
  exact Or.inl h

theorem Gate.Excludes.step {ip : Ipv4} {first : Nat} {g g' : Gate} {e : GateEvent}
    (h : g.Excludes ip first) (hstep : e.step g = some g') : g'.Excludes ip first := by
  refine ⟨h.sound.step hstep, ?_, ?_⟩
  · cases GateEvent.step_cases h.sound.net hstep with
    | quiet howner haccepted hassigned hslots haddrs hnfds hpeers hblocked =>
        exact addrBlocked_mono h.blocked hblocked
    | accepts fd ip' hpos hfree hallowed hnet haddrs hnfds hpeers hblocked =>
        exact hblocked ▸ h.blocked
    | closes fd hopen howner haccepted hassigned hslots haddrs hpeers hblocked =>
        exact hblocked ▸ h.blocked
    | connects now fd c hopen hmax howner haccepted hassigned hshared haddrs hnfds hpeers
        hblocked =>
        exact hblocked ▸ h.blocked
  · cases GateEvent.step_cases h.sound.net hstep with
    | quiet howner haccepted hassigned hslots haddrs hnfds hpeers hblocked =>
        exact hpeers ▸ h.before
    | accepts fd ip' hpos hfree hallowed hnet haddrs hnfds hpeers hblocked =>
        intro c peer hpeer hip
        rw [hpeers, Function.update_apply] at hpeer
        split at hpeer
        · -- the one that is taken does not come from the address
          obtain rfl := Option.some.inj hpeer
          obtain rfl : ip' = ip := hip
          rw [h.blocked] at hallowed
          cases hallowed
        · exact h.before c peer hpeer hip
    | closes fd hopen howner haccepted hassigned hslots haddrs hpeers hblocked =>
        exact hpeers ▸ h.before
    | connects now fd c hopen hmax howner haccepted hassigned hshared haddrs hnfds hpeers
        hblocked =>
        exact hpeers ▸ h.before

theorem Ipv4.text_ne_client (ip : Ipv4) : ip.text ≠ lit "client" := by
  intro h
  have hmem : dot ∈ ip.text := by simp [text]
  rw [h] at hmem
  exact absurd hmem (by decide)

/-- What `block_addr` returns 0 for is blocked, if it fits an entry. -/
theorem addrBlocked_of_accepts {blocked : Blocklist} {addr : CString} (hfits : addr.length < 64)
    (h : Blocklist.accepts blocked (some addr) = true) :
    addrBlocked (blockAddr blocked (some addr)).1 addr = true := by
  have hspec := blockAddr_spec blocked (some addr)
  unfold Blocklist.accepts at h
  generalize blockAddr blocked (some addr) = result at hspec h
  cases hspec with
  | refused text hrefused => cases h
  | known text hknown => exact hknown
  | stored text hnew hroom hitems =>
      rw [addrBlocked_iff, hitems, List.map_append, List.mem_append]
      exact Or.inr (List.mem_singleton.mpr (chars_snprintf_of_fits hfits).symm)

/-- Once `block_addr` has returned 0 for an address, no connection from it is taken any more:
those that are known came before, and so did every client that is shown with it. -/
theorem blocked_stay_out {now : Int} {before after : List GateEvent} {ip : Ipv4}
    {g₁ g₂ g₃ : Gate} (hbefore : gateAfter (.init now) before = some g₁)
    (hblock : (GateEvent.block (some ip.text)).step g₁ = some g₂)
    (haccepts : Blocklist.accepts g₁.blocked (some ip.text) = true)
    (hafter : gateAfter g₂ after = some g₃) :
    (∀ c peer, g₃.peers c = some peer → peer.ip = ip → c < g₁.net.accepted) ∧
      ∀ slot, 0 < slotFd g₃.net.server.shared slot →
        slotAddr g₃.net.server.shared slot = ip.text →
        ∃ id c, (id, c) ∈ g₃.net.assigned ∧ toInt id = slotClient g₃.net.server.shared slot ∧
          c < g₁.net.accepted := by
  have hsound := gate_sound hbefore
  have hstart : g₂.Excludes ip g₁.net.accepted := by
    refine ⟨hsound.step hblock, ?_, ?_⟩
    · have hblocked := addrBlocked_of_accepts ip.length_text_lt haccepts
      unfold Blocklist.accepts at haccepts
      obtain ⟨net, hstep, rfl⟩ := Option.map_eq_some_iff.mp hblock
      generalize blockAddr g₁.blocked (some ip.text) = result at hblocked haccepts
      obtain ⟨blocked, outcome⟩ := result
      cases outcome with
      | error text => cases haccepts
      | ok text => exact hblocked
    · have hpeers : g₂.peers = g₁.peers := by
        obtain ⟨net, hstep, rfl⟩ := Option.map_eq_some_iff.mp hblock
        split
        · rfl
        · rfl
      intro c peer hpeer _
      exact hsound.counted c peer (hpeers ▸ hpeer)
  have hend : g₃.Excludes ip g₁.net.accepted :=
    runFrom_invariant (fun _ _ _ h hstep => Gate.Excludes.step h hstep) hstart hafter
  refine ⟨hend.before, fun slot hused haddr => ?_⟩
  obtain ⟨id, c, peer, hmem, hid, hpeer, hshown⟩ := hend.sound.slots slot hused
  refine ⟨id, c, hmem, hid, hend.before c peer hpeer ?_⟩
  rcases hshown with htext | ⟨hclient, -⟩
  · exact Ipv4.text_injective (htext.symm.trans haddr)
  · exact absurd (haddr.symm.trans hclient) ip.text_ne_client

/-- The admin blocks an address while a client is connected from it; another one comes. -/
theorem blocked_stay_out_later :
    ∃ g₁ g₃ : Gate, gateAfter (.init 0)
        [.accept 7 ⟨10, 0, 0, 1⟩, .message 0 7 0 opConnect [], .other (.acceptAdmin 9)] = some g₁ ∧
      gateAfter g₁ [.block (some (Ipv4.text ⟨10, 0, 0, 1⟩)), .accept 8 ⟨10, 0, 0, 1⟩,
        .accept 8 ⟨10, 0, 0, 2⟩, .message 1 8 0 opConnect []] = some g₃ ∧
      ∀ c peer, g₃.peers c = some peer → peer.ip = ⟨10, 0, 0, 1⟩ → c < g₁.net.accepted := by
  have hrun : ((gateAfter (.init 0) [.accept 7 ⟨10, 0, 0, 1⟩, .message 0 7 0 opConnect [],
        .other (.acceptAdmin 9)]).bind fun g₁ =>
      ((GateEvent.block (some (Ipv4.text ⟨10, 0, 0, 1⟩))).step g₁).bind fun g₂ =>
        (gateAfter g₂ [.accept 8 ⟨10, 0, 0, 1⟩, .accept 8 ⟨10, 0, 0, 2⟩,
          .message 1 8 0 opConnect []]).map fun _ =>
          Blocklist.accepts g₁.blocked (some (Ipv4.text ⟨10, 0, 0, 1⟩))) = some true := by
    decide +kernel
  obtain ⟨g₁, hbefore, hrun⟩ := Option.bind_eq_some_iff.mp hrun
  obtain ⟨g₂, hblock, hrun⟩ := Option.bind_eq_some_iff.mp hrun
  obtain ⟨g₃, hafter, haccepts⟩ := Option.map_eq_some_iff.mp hrun
  refine ⟨g₁, g₃, hbefore, ?_, (blocked_stay_out hbefore hblock haccepts hafter).1⟩
  exact runFrom_cons_eq_some_iff.mpr ⟨g₂, hblock, hafter⟩

end SqlCodeGenerator
