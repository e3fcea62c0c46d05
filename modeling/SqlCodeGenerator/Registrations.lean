import SqlCodeGenerator.Connections

/-!
# Registrations and their connections

A slot of the table of clients holds a descriptor from `OP_CONNECT` on until the
descriptor is closed.  The table is searched for the first match, both when a slot
is freed and when a client is looked up.

* `Network.Sound`: what holds of connections and identifiers in every run.
* `registrationsLive_iff`: every slot in use belongs to the open connection that it
  was registered on throughout a run exactly where no connection that has a slot
  gets another one.
-/

namespace SqlCodeGenerator

open Library

/-! ## Steps, said of the connections -/

/-- The same identifiers and descriptors in the table of clients. -/
structure SameClients (state state' : SharedState) : Prop where
  next : state'.nextClientId = state.nextClientId
  fd : ∀ slot, (state'.clients.get slot).fd = (state.clients.get slot).fd
  clientId : ∀ slot, (state'.clients.get slot).clientId = (state.clients.get slot).clientId

theorem SameClients.of_eq {state state' : SharedState}
    (hnext : state'.nextClientId = state.nextClientId)
    (hclients : state'.clients = state.clients) : SameClients state state' :=
  ⟨hnext, fun slot => by rw [hclients], fun slot => by rw [hclients]⟩

theorem SameClients.trans {first middle last : SharedState} (h : SameClients first middle)
    (h' : SameClients middle last) : SameClients first last where
  next := h'.next.trans h.next
  fd slot := (h'.fd slot).trans (h.fd slot)
  clientId slot := (h'.clientId slot).trans (h.clientId slot)

theorem sameClients_updateJobOf (r : Request) (now : Int) (status : JobStatus) (result : CString)
    (state : SharedState) : SameClients state (updateJobOf r now status result state) := by
  obtain ⟨jobs, hframe⟩ := updateJobOf_frame r now status result state
  rw [hframe]
  exact .of_eq rfl rfl

theorem sameClients_clientTouch (now : Int) (clientId : UInt32) (state : SharedState) :
    SameClients state (clientTouch now clientId state) := by
  unfold clientTouch
  split
  · exact .of_eq rfl rfl
  · next slot hslot =>
      refine ⟨rfl, fun other => ?_, fun other => ?_⟩
      · simp only [FixedArray.get_set]
        split
        · next hother => rw [hother]
        · rfl
      · simp only [FixedArray.get_set]
        split
        · next hother => rw [hother]
        · rfl

theorem sameClients_beginRequest (now : Int) (r : Request) (state : SharedState) :
    SameClients state (beginRequest now r state) := by
  have htouch := sameClients_clientTouch now r.clientId state
  have hactive : SameClients (clientTouch now r.clientId state)
      { clientTouch now r.clientId state with
        activeClientId := toInt r.clientId
        activeOpId := toInt r.opId
        activeStartedAt := now } := .of_eq rfl rfl
  exact (htouch.trans hactive).trans (sameClients_updateJobOf r now _ _ _)

theorem sameClients_finishRequest (now elapsed : Int) (r : Request) (h : Handled)
    (state : SharedState) : SameClients state (finishRequest now elapsed r h state).1 := by
  obtain ⟨_, _, _, _, _, _, _, hframe⟩ := finishRequest_frame now elapsed r h state
  rw [hframe]
  exact .of_eq rfl rfl

theorem sameClients_receiveRequest (now fd : Int) (clientId opId : UInt32) (payload : List UInt8)
    (state : SharedState) :
    SameClients state (receiveRequest now fd clientId opId payload state).2 := by
  unfold receiveRequest
  cases isProcessingOp opId with
  | true => exact .of_eq rfl rfl
  | false => exact .of_eq rfl rfl

theorem sameClients_adminCancel (clientId : Int) (state : SharedState) :
    SameClients state (adminCancel clientId state) := by
  obtain ⟨_, _, _, hframe⟩ := adminCancel_frame clientId state
  rw [hframe]
  exact .of_eq rfl rfl

theorem OperationEffect.sameClients {state state' : SharedState}
    (h : OperationEffect state state') : SameClients state state' := by
  obtain ⟨_, _, _, _, _, _, rfl⟩ := h
  exact .of_eq rfl rfl

theorem sameClients_handleRequest {env : RequestEnv} {r : Request} {state state' : SharedState}
    {h : Handled} (hhandle : handleRequest env r state = some (state', h)) :
    SameClients state state' :=
  (handleRequest_effect hhandle).sameClients

/-- A step as the connections see it. -/
inductive ConnectionStep (net net' : Network) (e : NetworkEvent) : Prop where
  /-- Nothing changes for them. -/
  | quiet (howner : net'.owner = net.owner) (haccepted : net'.accepted = net.accepted)
      (hadmin : net'.adminFd = net.adminFd) (hassigned : net'.assigned = net.assigned)
      (hnotices : net'.notices = net.notices)
      (hclients : SameClients net.server.shared net'.server.shared)
      (hconnect : e.connectFd = none)
  /-- A free descriptor is given out. -/
  | opens (fd : Int) (admin : Bool) (hpos : 0 < fd) (hfree : net.owner fd = none)
      (howner : net'.owner = Function.update net.owner fd (some ⟨net.accepted, admin⟩))
      (haccepted : net'.accepted = net.accepted + 1)
      (hadmin : net'.adminFd = if admin then some fd else net.adminFd)
      (hassigned : net'.assigned = net.assigned) (hnotices : net'.notices = net.notices)
      (hclients : SameClients net.server.shared net'.server.shared)
      (hconnect : e.connectFd = none)
  /-- A descriptor is closed. -/
  | closes (fd : Int)
      (hopen : (∃ c, net.owner fd = some ⟨c, false⟩ ∧ net'.adminFd = net.adminFd) ∨
        net.adminFd = some fd ∧ net'.adminFd = none)
      (howner : net'.owner = Function.update net.owner fd none)
      (haccepted : net'.accepted = net.accepted) (hassigned : net'.assigned = net.assigned)
      (hnotices : net'.notices = net.notices)
      (hclients : SameClients (clientRemoveFd fd net.server.shared) net'.server.shared)
      (hconnect : e.connectFd = none)
  /-- `OP_CONNECT` on an open connection. -/
  | connects (now fd : Int) (addr : CString) (c : Nat) (hopen : net.owner fd = some ⟨c, false⟩)
      (hmax : net.server.shared.nextClientId < intMax) (howner : net'.owner = net.owner)
      (haccepted : net'.accepted = net.accepted) (hadmin : net'.adminFd = net.adminFd)
      (hassigned : net'.assigned =
        (UInt32.ofNat net.server.shared.nextClientId, c) :: net.assigned)
      (hnotices : net'.notices = net.notices)
      (hclients : net'.server.shared = connectClient now fd addr net.server.shared)
      (hconnect : e.connectFd = some fd)
  /-- The admin disconnects a client. -/
  | disconnects (clientId : Int) (hfd : 0 ≤ clientFdById net.server.shared clientId)
      (howner : net'.owner = net.owner) (haccepted : net'.accepted = net.accepted)
      (hadmin : net'.adminFd = net.adminFd) (hassigned : net'.assigned = net.assigned)
      (hnotices : net'.notices =
        net.notices ++ [(clientId, net.owner (clientFdById net.server.shared clientId))])
      (hclients : SameClients net.server.shared net'.server.shared)
      (hconnect : e.connectFd = none)

theorem connectFd_message {now fd : Int} {addr : CString} {clientId opId : UInt32}
    {payload : List UInt8} (hop : opId ≠ opConnect) :
    (NetworkEvent.message now fd addr clientId opId payload).connectFd = none := if_neg hop

theorem StepSpec.connections {net net' : Network} {e : NetworkEvent} (h : StepSpec net e net') :
    ConnectionStep net net' e := by
  cases h with
  | accept fd hpos hfree =>
      exact .opens fd false hpos hfree rfl rfl rfl rfl rfl (.of_eq rfl rfl) rfl
  | connect now fd addr clientId payload connection howner hmax message =>
      exact .connects now fd addr connection howner hmax rfl rfl rfl rfl rfl rfl rfl
  | bye now fd addr clientId payload connection howner message =>
      exact .closes fd (Or.inl ⟨connection, howner, rfl⟩) rfl rfl rfl rfl (.of_eq rfl rfl) rfl
  | reject now fd addr clientId opId payload connection howner hop hunknown =>
      exact .quiet rfl rfl rfl rfl rfl (.of_eq rfl rfl) (connectFd_message hop.1)
  | query now fd addr clientId opId payload connection howner hregistered hop =>
      have hother : opId ≠ opConnect := by rcases hop with rfl | rfl <;> decide
      exact .quiet rfl rfl rfl rfl rfl (.of_eq rfl rfl) (connectFd_message hother)
  | receive now fd addr clientId opId payload connection howner hpending hregistered hop =>
      exact .quiet rfl rfl rfl rfl rfl (sameClients_receiveRequest now fd clientId opId payload _)
        (connectFd_message hop.1)
  | hangup fd connection howner =>
      exact .closes fd (Or.inl ⟨connection, howner, rfl⟩) rfl rfl rfl rfl (.of_eq rfl rfl) rfl
  | acceptAdmin fd hadmin hpos hfree =>
      exact .opens fd true hpos hfree rfl rfl rfl rfl rfl (.of_eq rfl rfl) rfl
  | hangupAdmin fd hadmin =>
      exact .closes fd (Or.inr ⟨hadmin, rfl⟩) rfl rfl rfl rfl (.of_eq rfl rfl) rfl
  | adminDisconnect clientId hfd =>
      exact .disconnects clientId hfd rfl rfl rfl rfl rfl (.of_eq rfl rfl) rfl
  | adminCancel clientId =>
      exact .quiet rfl rfl rfl rfl rfl (sameClients_adminCancel clientId _) rfl
  | begin now r hworker =>
      exact .quiet rfl rfl rfl rfl rfl (sameClients_beginRequest now r _) rfl
  | handle env r state h hworker hhandle =>
      exact .quiet rfl rfl rfl rfl rfl (sameClients_handleRequest hhandle) rfl
  | finish now elapsed r h hworker houtbox =>
      exact .quiet rfl rfl rfl rfl rfl (sameClients_finishRequest now elapsed r h _) rfl
  -- no other step touches the table of clients
  | _ => exact .quiet rfl rfl rfl rfl rfl (.of_eq rfl rfl) rfl

/-! ## Connections and identifiers -/

/-- What holds of connections and identifiers in every run: no two connections are
one, and every identifier was given out once. -/
structure Network.Sound (net : Network) : Prop where
  serials : ∀ fd c, net.owner fd = some c → 0 < fd ∧ c.serial < net.accepted
  distinct : ∀ fd fd' c c', net.owner fd = some c → net.owner fd' = some c' →
    c.serial = c'.serial → fd = fd'
  admin : ∀ fd, net.adminFd = some fd → ∃ c, net.owner fd = some ⟨c, true⟩
  ids : ∀ id c, (id, c) ∈ net.assigned →
    c < net.accepted ∧ 0 < id.toNat ∧ id.toNat < net.server.shared.nextClientId
  once : ∀ id c c', (id, c) ∈ net.assigned → (id, c') ∈ net.assigned → c = c'
  next : 0 < net.server.shared.nextClientId ∧ net.server.shared.nextClientId ≤ intMax

theorem sound_init (now : Int) : (Network.init now).Sound where
  serials fd c h := by cases h
  distinct fd fd' c c' h := by cases h
  admin fd h := by cases h
  ids id c h := by cases h
  once id c c' h := by cases h
  next := ⟨Nat.one_pos, show 1 ≤ intMax by decide⟩

/-- A step that keeps all of these keeps what holds of them. -/
theorem Network.Sound.congr {net net' : Network} (hs : net.Sound) (howner : net'.owner = net.owner)
    (haccepted : net'.accepted = net.accepted) (hadmin : net'.adminFd = net.adminFd)
    (hassigned : net'.assigned = net.assigned)
    (hnext : net'.server.shared.nextClientId = net.server.shared.nextClientId) : net'.Sound where
  serials := by rw [howner, haccepted]; exact hs.serials
  distinct := by rw [howner]; exact hs.distinct
  admin := by rw [hadmin, howner]; exact hs.admin
  ids := by rw [hassigned, haccepted, hnext]; exact hs.ids
  once := by rw [hassigned]; exact hs.once
  next := by rw [hnext]; exact hs.next

theorem Network.Sound.opens {net net' : Network} (hs : net.Sound) {fd : Int} {admin : Bool}
    (hpos : 0 < fd) (hfree : net.owner fd = none)
    (howner : net'.owner = Function.update net.owner fd (some ⟨net.accepted, admin⟩))
    (haccepted : net'.accepted = net.accepted + 1)
    (hadmin : net'.adminFd = if admin then some fd else net.adminFd)
    (hassigned : net'.assigned = net.assigned)
    (hnext : net'.server.shared.nextClientId = net.server.shared.nextClientId) : net'.Sound := by
  refine ⟨fun fd' c h => ?_, fun fd₁ fd₂ c₁ c₂ h₁ h₂ hsame => ?_, fun fd' h => ?_, ?_, ?_, ?_⟩
  · rw [howner, Function.update_apply] at h
    rw [haccepted]
    split at h
    · next heq =>
        obtain rfl := Option.some.inj h
        exact ⟨heq ▸ hpos, Nat.lt_succ_self _⟩
    · obtain ⟨hfd, hserial⟩ := hs.serials fd' c h
      exact ⟨hfd, Nat.lt_succ_of_lt hserial⟩
  · -- the new serial is larger than all others
    rw [howner, Function.update_apply] at h₁ h₂
    split at h₁ <;> split at h₂
    · next heq₁ heq₂ => rw [heq₁, heq₂]
    · obtain rfl := Option.some.inj h₁
      have hlt := (hs.serials fd₂ c₂ h₂).2
      simp only at hsame
      omega
    · obtain rfl := Option.some.inj h₂
      have hlt := (hs.serials fd₁ c₁ h₁).2
      simp only at hsame
      omega
    · exact hs.distinct fd₁ fd₂ c₁ c₂ h₁ h₂ hsame
  · rw [hadmin] at h
    rw [howner, Function.update_apply]
    cases admin with
    | true =>
        obtain rfl := Option.some.inj h
        exact ⟨net.accepted, if_pos rfl⟩
    | false =>
        obtain ⟨c, hc⟩ := hs.admin fd' h
        have hne : fd' ≠ fd := by
          intro heq
          rw [heq, hfree] at hc
          cases hc
        exact ⟨c, by rw [if_neg hne, hc]⟩
  · intro id c h
    rw [hassigned] at h
    obtain ⟨hc, hid⟩ := hs.ids id c h
    rw [haccepted, hnext]
    exact ⟨Nat.lt_succ_of_lt hc, hid⟩
  · rw [hassigned]
    exact hs.once
  · rw [hnext]
    exact hs.next

theorem Network.Sound.closes {net net' : Network} (hs : net.Sound) {fd : Int}
    (hopen : (∃ c, net.owner fd = some ⟨c, false⟩ ∧ net'.adminFd = net.adminFd) ∨
      net.adminFd = some fd ∧ net'.adminFd = none)
    (howner : net'.owner = Function.update net.owner fd none)
    (haccepted : net'.accepted = net.accepted) (hassigned : net'.assigned = net.assigned)
    (hnext : net'.server.shared.nextClientId = net.server.shared.nextClientId) : net'.Sound := by
  -- what is open afterwards was open before
  have hbefore : ∀ fd' c, net'.owner fd' = some c → net.owner fd' = some c := by
    intro fd' c h
    rw [howner, Function.update_apply] at h
    split at h
    · cases h
    · exact h
  refine ⟨fun fd' c h => ?_, fun fd₁ fd₂ c₁ c₂ h₁ h₂ hsame => ?_, fun fd' h => ?_, ?_, ?_, ?_⟩
  · rw [haccepted]
    exact hs.serials fd' c (hbefore fd' c h)
  · exact hs.distinct fd₁ fd₂ c₁ c₂ (hbefore fd₁ c₁ h₁) (hbefore fd₂ c₂ h₂) hsame
  · rcases hopen with ⟨c, hordinary, hadmin⟩ | ⟨-, hadmin⟩
    · rw [hadmin] at h
      obtain ⟨c', hc'⟩ := hs.admin fd' h
      have hne : fd' ≠ fd := by
        intro heq
        rw [heq, hordinary] at hc'
        cases hc'
      exact ⟨c', by rw [howner, Function.update_of_ne hne, hc']⟩
    · rw [hadmin] at h
      cases h
  · rw [hassigned, haccepted, hnext]
    exact hs.ids
  · rw [hassigned]
    exact hs.once
  · rw [hnext]
    exact hs.next

theorem Network.Sound.connects {net net' : Network} (hs : net.Sound) {c : Nat} {fd : Int}
    (hopen : net.owner fd = some ⟨c, false⟩) (hmax : net.server.shared.nextClientId < intMax)
    (howner : net'.owner = net.owner) (haccepted : net'.accepted = net.accepted)
    (hadmin : net'.adminFd = net.adminFd)
    (hassigned : net'.assigned = (UInt32.ofNat net.server.shared.nextClientId, c) :: net.assigned)
    (hnext : net'.server.shared.nextClientId = net.server.shared.nextClientId + 1) :
    net'.Sound := by
  obtain ⟨hpos, -⟩ := hs.next
  have hbelow : net.server.shared.nextClientId < 2147483647 := hmax
  have hid : (UInt32.ofNat net.server.shared.nextClientId).toNat =
      net.server.shared.nextClientId := by
    rw [UInt32.toNat_ofNat']
    exact Nat.mod_eq_of_lt (by omega)
  -- the identifier is larger than all given out before
  have hfresh : ∀ c', (UInt32.ofNat net.server.shared.nextClientId, c') ∉ net.assigned := by
    intro c' h
    have hlt := (hs.ids _ _ h).2.2
    omega
  refine ⟨?_, ?_, ?_, fun id c' h => ?_, fun id c₁ c₂ h₁ h₂ => ?_, ?_⟩
  · rw [howner, haccepted]
    exact hs.serials
  · rw [howner]
    exact hs.distinct
  · rw [hadmin, howner]
    exact hs.admin
  · rw [hassigned] at h
    rw [haccepted, hnext]
    rcases List.mem_cons.mp h with heq | h
    · obtain ⟨rfl, rfl⟩ := Prod.mk.inj heq
      have hserial := (hs.serials fd _ hopen).2
      exact ⟨hserial, by omega, by omega⟩
    · obtain ⟨hc', hlow, hhigh⟩ := hs.ids id c' h
      exact ⟨hc', hlow, by omega⟩
  · rw [hassigned] at h₁ h₂
    rcases List.mem_cons.mp h₁ with heq₁ | h₁ <;> rcases List.mem_cons.mp h₂ with heq₂ | h₂
    · rw [(Prod.mk.inj heq₁).2, (Prod.mk.inj heq₂).2]
    · rw [(Prod.mk.inj heq₁).1] at h₂
      exact absurd h₂ (hfresh c₂)
    · rw [(Prod.mk.inj heq₂).1] at h₁
      exact absurd h₁ (hfresh c₁)
    · exact hs.once id c₁ c₂ h₁ h₂
  · rw [hnext]
    omega

theorem connectClient_nextClientId (now fd : Int) (addr : CString) (state : SharedState) :
    (connectClient now fd addr state).nextClientId = state.nextClientId + 1 := by
  obtain ⟨_, _, _, hframe⟩ := connectClient_frame now fd addr state
  rw [hframe]

theorem clientRemoveFd_nextClientId (fd : Int) (state : SharedState) :
    (clientRemoveFd fd state).nextClientId = state.nextClientId := by
  obtain ⟨_, _, hframe⟩ := clientRemoveFd_frame fd state
  rw [hframe]

theorem Network.Sound.step {net net' : Network} {e : NetworkEvent} (hs : net.Sound)
    (h : e.step net = some net') : net'.Sound := by
  cases (NetworkEvent.step_spec h).connections with
  | quiet howner haccepted hadmin hassigned hnotices hclients hconnect =>
      exact hs.congr howner haccepted hadmin hassigned hclients.next
  | opens fd admin hpos hfree howner haccepted hadmin hassigned hnotices hclients hconnect =>
      exact hs.opens hpos hfree howner haccepted hadmin hassigned hclients.next
  | closes fd hopen howner haccepted hassigned hnotices hclients hconnect =>
      refine hs.closes hopen howner haccepted hassigned ?_
      rw [hclients.next, clientRemoveFd_nextClientId]
  | connects now fd addr c hopen hmax howner haccepted hadmin hassigned hnotices hclients
      hconnect =>
      refine hs.connects hopen hmax howner haccepted hadmin hassigned ?_
      rw [hclients, connectClient_nextClientId]
  | disconnects clientId hfd howner haccepted hadmin hassigned hnotices hclients hconnect =>
      exact hs.congr howner haccepted hadmin hassigned hclients.next

/-! ## Slots -/

/-- The descriptor and the client of a slot. -/
def slotFd (state : SharedState) (slot : Fin maxClients) : Int := (state.clients.get slot).fd
def slotClient (state : SharedState) (slot : Fin maxClients) : Int :=
  (state.clients.get slot).clientId

theorem slotFd_stateInit (now : Int) (slot : Fin maxClients) :
    slotFd (stateInit now) slot = 0 := by
  show ((FixedArray.replicate maxClients ClientInfo.zero).get slot).fd = 0
  rw [FixedArray.get_replicate]
  rfl

theorem toInt_inj {a b : UInt32} (h : toInt a = toInt b) : a = b := by
  unfold toInt at h
  exact UInt32.toBitVec_inj.mp (BitVec.toInt_inj.mp h)

/-- An identifier that a positive `int` holds is registered as it is. -/
theorem toInt_ofNat {n : Nat} (h : n < 2 ^ 31) : toInt (UInt32.ofNat n) = n := by
  unfold toInt
  rw [UInt32.toBitVec_ofNat', BitVec.toInt_eq_toNat_of_lt]
  · rw [BitVec.toNat_ofNat, Nat.mod_eq_of_lt (by omega)]
  · rw [BitVec.toNat_ofNat, Nat.mod_eq_of_lt (by omega)]
    omega

theorem clientFind_eq_some {state : SharedState} {clientId : Int} {slot : Fin maxClients}
    (h : clientFind state clientId = some slot) :
    slotClient state slot = clientId ∧ 0 < slotFd state slot := by
  have hslot := List.find?_some h
  exact of_decide_eq_true hslot

/-- `register_client` takes a free slot, or there is none. -/
theorem registerClient_slots (now fd : Int) (addr : CString) (clientId : Int)
    (state : SharedState) :
    (registerClient now fd addr clientId state = state ∧ ∀ slot, slotFd state slot ≠ 0) ∨
      ∃ free, slotFd state free = 0 ∧ ∀ slot,
        (slotFd (registerClient now fd addr clientId state) slot =
          if slot = free then fd else slotFd state slot) ∧
        slotClient (registerClient now fd addr clientId state) slot =
          if slot = free then clientId else slotClient state slot := by
  unfold registerClient
  split
  · next hnone =>
      exact Or.inl ⟨rfl, FixedArray.not_of_find?_eq_none hnone⟩
  · next free hfree =>
      refine Or.inr ⟨free, FixedArray.of_find?_eq_some hfree, fun slot => ?_⟩
      unfold slotFd slotClient
      rw [FixedArray.get_set]
      split
      · exact ⟨rfl, rfl⟩
      · exact ⟨rfl, rfl⟩

/-- `OP_CONNECT` takes a free slot for the next identifier, or changes no slot. -/
theorem connectClient_slots (now fd : Int) (addr : CString) (state : SharedState) :
    (∀ slot, slotFd state slot ≠ 0 ∧
        slotFd (connectClient now fd addr state) slot = slotFd state slot ∧
        slotClient (connectClient now fd addr state) slot = slotClient state slot) ∨
      ∃ free, slotFd state free = 0 ∧ ∀ slot,
        (slotFd (connectClient now fd addr state) slot =
          if slot = free then fd else slotFd state slot) ∧
        slotClient (connectClient now fd addr state) slot =
          if slot = free then toInt (UInt32.ofNat state.nextClientId)
          else slotClient state slot := by
  rcases registerClient_slots now fd addr (toInt (UInt32.ofNat state.nextClientId))
      { state with nextClientId := state.nextClientId + 1 } with ⟨hsame, hfull⟩ | hslots
  · refine Or.inl fun slot => ⟨hfull slot, ?_⟩
    unfold connectClient slotFd slotClient
    simp only [hsame]
    exact ⟨rfl, rfl⟩
  · exact Or.inr hslots

/-- `client_remove_fd` frees one slot of the descriptor, or there is none. -/
theorem clientRemoveFd_slots (fd : Int) (state : SharedState) :
    (clientRemoveFd fd state = state ∧ ∀ slot, slotFd state slot ≠ fd) ∨
      ∃ used, slotFd state used = fd ∧ ∀ slot,
        (slotFd (clientRemoveFd fd state) slot =
          if slot = used then 0 else slotFd state slot) ∧
        slotClient (clientRemoveFd fd state) slot = slotClient state slot := by
  unfold clientRemoveFd
  split
  · next hnone =>
      exact Or.inl ⟨rfl, FixedArray.not_of_find?_eq_none hnone⟩
  · next used hused =>
      refine Or.inr ⟨used, FixedArray.of_find?_eq_some hused, fun slot => ?_⟩
      unfold slotFd slotClient
      rw [FixedArray.get_set]
      split
      · next hslot =>
          rw [hslot]
          exact ⟨rfl, rfl⟩
      · exact ⟨rfl, rfl⟩

/-- The connection of an open descriptor that an identifier was given to. -/
def RegisteredOn (net : Network) (clientId : Int) (receiver : Option Connection) : Prop :=
  ∃ id c, receiver = some ⟨c, false⟩ ∧ (id, c) ∈ net.assigned ∧ toInt id = clientId

/-- Registrations live as long as their connections: every slot in use belongs to
the open ordinary connection that its client was registered on, and no connection
has two; so the identifiers of a connection that is gone are unknown, and a client
that is looked up, or was disconnected by the admin, is the one meant. -/
structure RegistrationsLive (net : Network) : Prop where
  live : ∀ slot, 0 < slotFd net.server.shared slot →
    RegisteredOn net (slotClient net.server.shared slot)
      (net.owner (slotFd net.server.shared slot))
  one : ∀ slot slot', 0 < slotFd net.server.shared slot →
    slotFd net.server.shared slot = slotFd net.server.shared slot' → slot = slot'
  gone : ∀ id c, (id, c) ∈ net.assigned → (∀ fd, net.owner fd ≠ some ⟨c, false⟩) →
    isRegisteredClient net.server.shared id = false
  found : ∀ clientId, 0 ≤ clientFdById net.server.shared clientId →
    RegisteredOn net clientId (net.owner (clientFdById net.server.shared clientId))
  notices : ∀ clientId receiver, (clientId, receiver) ∈ net.notices →
    RegisteredOn net clientId receiver

/-- The first two and the notices are enough. -/
theorem RegistrationsLive.of_slots {net : Network} (hs : net.Sound)
    (hlive : ∀ slot, 0 < slotFd net.server.shared slot →
      RegisteredOn net (slotClient net.server.shared slot)
        (net.owner (slotFd net.server.shared slot)))
    (hone : ∀ slot slot', 0 < slotFd net.server.shared slot →
      slotFd net.server.shared slot = slotFd net.server.shared slot' → slot = slot')
    (hnotices : ∀ clientId receiver, (clientId, receiver) ∈ net.notices →
      RegisteredOn net clientId receiver) : RegistrationsLive net := by
  refine ⟨hlive, hone, fun id c hassigned hgone => ?_, fun clientId hfd => ?_, hnotices⟩
  · unfold isRegisteredClient
    cases hfind : clientFind net.server.shared (toInt id) with
    | none => rfl
    | some slot =>
        obtain ⟨hclient, hpos⟩ := clientFind_eq_some hfind
        obtain ⟨id', c', howner, hassigned', hid⟩ := hlive slot hpos
        obtain rfl : id' = id := toInt_inj (hid.trans hclient)
        obtain rfl := hs.once id' c c' hassigned hassigned'
        exact absurd howner (hgone _)
  · unfold clientFdById at hfd ⊢
    cases hfind : clientFind net.server.shared clientId with
    | none => simp [hfind] at hfd
    | some slot =>
        obtain ⟨hclient, hpos⟩ := clientFind_eq_some hfind
        have hregistered := hlive slot hpos
        rw [hclient] at hregistered
        exact hregistered

/-- What a connection was given stays given. -/
theorem RegisteredOn.mono {net net' : Network} {clientId : Int} {receiver : Option Connection}
    (h : RegisteredOn net clientId receiver)
    (hassigned : ∀ entry ∈ net.assigned, entry ∈ net'.assigned) :
    RegisteredOn net' clientId receiver := by
  obtain ⟨id, c, hreceiver, hmem, hid⟩ := h
  exact ⟨id, c, hreceiver, hassigned _ hmem, hid⟩

/-- A connection that sends `OP_CONNECT` has no slot yet, or there is no free slot for
it to take. -/
def ConnectsOnce (net : Network) (e : NetworkEvent) : Prop :=
  ∀ fd, e.connectFd = some fd → (∃ slot, slotFd net.server.shared slot = fd) →
    ∀ slot, slotFd net.server.shared slot ≠ 0

theorem connectsOnce_of_none {net : Network} {e : NetworkEvent} (h : e.connectFd = none) :
    ConnectsOnce net e := by
  intro fd hfd
  rw [h] at hfd
  cases hfd

/-! ## What a step does to the registrations -/

/-- A step that keeps the slots, and closes none of their descriptors. -/
theorem RegistrationsLive.keeps {net net' : Network} (h : RegistrationsLive net)
    (hs' : net'.Sound) (hclients : SameClients net.server.shared net'.server.shared)
    (howner : ∀ slot, 0 < slotFd net.server.shared slot →
      net'.owner (slotFd net.server.shared slot) = net.owner (slotFd net.server.shared slot))
    (hassigned : net'.assigned = net.assigned)
    (hnotices : ∀ clientId receiver, (clientId, receiver) ∈ net'.notices →
      RegisteredOn net clientId receiver) : RegistrationsLive net' := by
  have hmono : ∀ entry ∈ net.assigned, entry ∈ net'.assigned := fun _ hmem => hassigned ▸ hmem
  have hfd : ∀ slot, slotFd net'.server.shared slot = slotFd net.server.shared slot := hclients.fd
  have hclient : ∀ slot, slotClient net'.server.shared slot = slotClient net.server.shared slot :=
    hclients.clientId
  refine .of_slots hs' (fun slot hpos => ?_) (fun slot slot' hpos hsame => ?_)
    fun clientId receiver hmem => (hnotices clientId receiver hmem).mono hmono
  · rw [hfd] at hpos
    rw [hfd, hclient, howner slot hpos]
    exact (h.live slot hpos).mono hmono
  · rw [hfd] at hpos
    rw [hfd, hfd] at hsame
    exact h.one slot slot' hpos hsame

/-- The descriptor of a slot in use is open. -/
theorem RegistrationsLive.owner_slot {net : Network} (h : RegistrationsLive net)
    {slot : Fin maxClients} (hpos : 0 < slotFd net.server.shared slot) :
    ∃ c, net.owner (slotFd net.server.shared slot) = some ⟨c, false⟩ := by
  obtain ⟨id, c, howner, -, -⟩ := h.live slot hpos
  exact ⟨c, howner⟩

/-- A descriptor that is closed takes its slot with it, if it has one. -/
theorem RegistrationsLive.closes {net net' : Network} (h : RegistrationsLive net)
    (hs' : net'.Sound) {fd : Int} (howner : net'.owner = Function.update net.owner fd none)
    (hassigned : net'.assigned = net.assigned) (hnotices : net'.notices = net.notices)
    (hclients : SameClients (clientRemoveFd fd net.server.shared) net'.server.shared) :
    RegistrationsLive net' := by
  have hmono : ∀ entry ∈ net.assigned, entry ∈ net'.assigned := fun _ hmem => hassigned ▸ hmem
  have hnotices' : ∀ clientId receiver, (clientId, receiver) ∈ net'.notices →
      RegisteredOn net clientId receiver := by
    rw [hnotices]
    exact h.notices
  rcases clientRemoveFd_slots fd net.server.shared with ⟨hsame, hnone⟩ | ⟨used, hused, hslots⟩
  · -- the descriptor has no slot
    rw [hsame] at hclients
    refine h.keeps hs' hclients (fun slot _ => ?_) hassigned hnotices'
    rw [howner, Function.update_of_ne (hnone slot)]
  · have hfd : ∀ slot, slotFd net'.server.shared slot =
        if slot = used then 0 else slotFd net.server.shared slot := by
      intro slot
      rw [← (hslots slot).1]
      exact hclients.fd slot
    have hclient : ∀ slot, slotClient net'.server.shared slot =
        slotClient net.server.shared slot := by
      intro slot
      rw [← (hslots slot).2]
      exact hclients.clientId slot
    refine .of_slots hs' (fun slot hin => ?_) (fun slot slot' hin heq => ?_)
      fun clientId receiver hmem => (hnotices' clientId receiver hmem).mono hmono
    · rw [hfd] at hin
      rw [hfd, hclient]
      split at hin
      · omega
      · next hslot =>
          -- no second slot has the descriptor that is closed
          have hne : slotFd net.server.shared slot ≠ fd := by
            intro heq
            exact hslot (h.one slot used hin (heq.trans hused.symm))
          rw [if_neg hslot, howner, Function.update_of_ne hne]
          exact (h.live slot hin).mono hmono
    · rw [hfd] at hin
      rw [hfd, hfd] at heq
      split at hin
      · omega
      · next hslot =>
          rw [if_neg hslot] at heq
          split at heq
          · omega
          · exact h.one slot slot' hin heq

/-- A connection that has no slot may take a free one. -/
theorem RegistrationsLive.takes {net net' : Network} (h : RegistrationsLive net) (hs' : net'.Sound)
    {fd : Int} {id : UInt32} {c : Nat} {free : Fin maxClients}
    (hopen : net.owner fd = some ⟨c, false⟩) (howner : net'.owner = net.owner)
    (hassigned : net'.assigned = (id, c) :: net.assigned) (hnotices : net'.notices = net.notices)
    (hnone : ∀ slot, slotFd net.server.shared slot ≠ fd)
    (hfd : ∀ slot, slotFd net'.server.shared slot =
      if slot = free then fd else slotFd net.server.shared slot)
    (hclient : ∀ slot, slotClient net'.server.shared slot =
      if slot = free then toInt id else slotClient net.server.shared slot) :
    RegistrationsLive net' := by
  have hmono : ∀ entry ∈ net.assigned, entry ∈ net'.assigned := by
    intro entry hmem
    rw [hassigned]
    exact List.mem_cons_of_mem _ hmem
  refine .of_slots hs' (fun slot hin => ?_) (fun slot slot' hin heq => ?_)
    fun clientId receiver hmem => (h.notices clientId receiver (hnotices ▸ hmem)).mono hmono
  · rw [hfd] at hin
    rw [hfd, hclient, howner]
    split at hin
    · next hslot =>
        rw [if_pos hslot, if_pos hslot]
        exact ⟨id, c, hopen, hassigned ▸ List.mem_cons_self, rfl⟩
    · next hslot =>
        rw [if_neg hslot, if_neg hslot]
        exact (h.live slot hin).mono hmono
  · rw [hfd] at hin
    rw [hfd, hfd] at heq
    split at hin
    · next hslot =>
        rw [if_pos hslot] at heq
        split at heq
        · next hslot' => rw [hslot, hslot']
        · exact absurd heq.symm (hnone slot')
    · next hslot =>
        rw [if_neg hslot] at heq
        split at heq
        · exact absurd heq (hnone slot)
        · exact h.one slot slot' hin heq

/-- `OP_CONNECT` keeps the registrations exactly where the connection has no slot
yet, or gets none. -/
theorem RegistrationsLive.connects_iff {net net' : Network} {e : NetworkEvent}
    (h : RegistrationsLive net) (hs : net.Sound) (hs' : net'.Sound) {now fd : Int}
    {addr : CString} {c : Nat} (hopen : net.owner fd = some ⟨c, false⟩)
    (howner : net'.owner = net.owner)
    (hassigned : net'.assigned = (UInt32.ofNat net.server.shared.nextClientId, c) :: net.assigned)
    (hnotices : net'.notices = net.notices)
    (hclients : net'.server.shared = connectClient now fd addr net.server.shared)
    (hconnect : e.connectFd = some fd) : RegistrationsLive net' ↔ ConnectsOnce net e := by
  have hpos : 0 < fd := (hs.serials fd _ hopen).1
  rcases connectClient_slots now fd addr net.server.shared with hfull | ⟨free, hfree, hslots⟩
  · -- the table is full, and stays as it is
    have hmono : ∀ entry ∈ net.assigned, entry ∈ net'.assigned := by
      intro entry hmem
      rw [hassigned]
      exact List.mem_cons_of_mem _ hmem
    rw [← hclients] at hfull
    refine iff_of_true ?_ fun _ _ _ slot => (hfull slot).1
    refine .of_slots hs' (fun slot hin => ?_) (fun slot slot' hin heq => ?_)
      fun clientId receiver hmem => (h.notices clientId receiver (hnotices ▸ hmem)).mono hmono
    · rw [(hfull slot).2.1] at hin
      rw [(hfull slot).2.1, (hfull slot).2.2, howner]
      exact (h.live slot hin).mono hmono
    · rw [(hfull slot).2.1] at hin
      rw [(hfull slot).2.1, (hfull slot').2.1] at heq
      exact h.one slot slot' hin heq
  · rw [← hclients] at hslots
    have hfd := fun slot => (hslots slot).1
    constructor
    · -- a second slot of the connection would be another one
      rintro hlive fd' hfd' ⟨slot, hslot⟩
      obtain rfl : fd = fd' := Option.some.inj (hconnect.symm.trans hfd')
      have hne : slot ≠ free := by
        rintro rfl
        omega
      refine absurd (hlive.one slot free ?_ ?_) hne
      · rw [hfd, if_neg hne]
        omega
      · rw [hfd, hfd, if_neg hne, if_pos rfl, hslot]
    · intro honce
      have hnone : ∀ slot, slotFd net.server.shared slot ≠ fd := by
        intro slot hslot
        exact honce fd hconnect ⟨slot, hslot⟩ free hfree
      exact h.takes hs' hopen howner hassigned hnotices hnone hfd fun slot => (hslots slot).2

/-- A step from a network whose registrations live keeps them alive exactly where it
registers no connection twice. -/
theorem NetworkEvent.step_registrations {net net' : Network} {e : NetworkEvent} (hs : net.Sound)
    (h : RegistrationsLive net) (hstep : e.step net = some net') :
    RegistrationsLive net' ↔ ConnectsOnce net e := by
  have hs' : net'.Sound := hs.step hstep
  cases (NetworkEvent.step_spec hstep).connections with
  | quiet howner haccepted hadmin hassigned hnotices hclients hconnect =>
      refine iff_of_true (h.keeps hs' hclients (fun slot _ => by rw [howner]) hassigned ?_)
        (connectsOnce_of_none hconnect)
      rw [hnotices]
      exact h.notices
  | opens fd admin hpos hfree howner haccepted hadmin hassigned hnotices hclients hconnect =>
      refine iff_of_true (h.keeps hs' hclients (fun slot hin => ?_) hassigned ?_)
        (connectsOnce_of_none hconnect)
      · -- the descriptor of a slot is not free
        have hne : slotFd net.server.shared slot ≠ fd := by
          intro heq
          obtain ⟨c, hc⟩ := h.owner_slot hin
          rw [heq, hfree] at hc
          cases hc
        rw [howner, Function.update_of_ne hne]
      · rw [hnotices]
        exact h.notices
  | closes fd hopen howner haccepted hassigned hnotices hclients hconnect =>
      exact iff_of_true (h.closes hs' howner hassigned hnotices hclients)
        (connectsOnce_of_none hconnect)
  | connects now fd addr c hopen hmax howner haccepted hadmin hassigned hnotices hclients
      hconnect =>
      exact h.connects_iff hs hs' hopen howner hassigned hnotices hclients hconnect
  | disconnects clientId hfd howner haccepted hadmin hassigned hnotices hclients hconnect =>
      refine iff_of_true (h.keeps hs' hclients (fun slot _ => by rw [howner]) hassigned ?_)
        (connectsOnce_of_none hconnect)
      -- the notice goes to the client that was looked up
      intro other receiver hmem
      rw [hnotices] at hmem
      rcases List.mem_append.mp hmem with hmem | hmem
      · exact h.notices other receiver hmem
      · obtain ⟨rfl, rfl⟩ := Prod.mk.inj (List.mem_singleton.mp hmem)
        exact h.found other hfd

theorem registrationsLive_init (now : Int) : RegistrationsLive (Network.init now) := by
  have hzero : ∀ slot, slotFd (Network.init now).server.shared slot = 0 := slotFd_stateInit now
  refine .of_slots (sound_init now) (fun slot hin => ?_) (fun slot slot' hin _ => ?_)
    fun clientId receiver hmem => (by cases hmem)
  · rw [hzero] at hin
    omega
  · rw [hzero] at hin
    omega

/-- In every run: registrations live as long as their connections in every state
reached exactly where every `OP_CONNECT` of a connection that has a slot already
meets a full table. -/
theorem registrationsLive_iff {now : Int} {events : List NetworkEvent} {net : Network}
    (hrun : network (Network.init now) events = some net) :
    Throughout NetworkEvent.step RegistrationsLive (Network.init now) events ↔
      EveryStep NetworkEvent.step ConnectsOnce (Network.init now) events := by
  have hsound : ∀ (net : Network) e net', net.Sound → NetworkEvent.step net e = some net' →
      net'.Sound := fun _ _ _ hs hstep => hs.step hstep
  have hkept : ∀ (net : Network) e net', net.Sound → RegistrationsLive net →
      NetworkEvent.step net e = some net' → (RegistrationsLive net' ↔ ConnectsOnce net e) :=
    fun _ _ _ hs h hstep => NetworkEvent.step_registrations hs h hstep
  exact throughout_iff hsound hkept (sound_init now) (registrationsLive_init now) hrun

/-! ### Two clients, and one connection with two registrations -/

/-- Two clients connect, the first leaves, and its descriptor is given out again. -/
def politeEvents : List NetworkEvent :=
  [.accept 7, .message 0 7 (lit "10.0.0.1") 0 opConnect [], .accept 8,
    .message 1 8 (lit "10.0.0.2") 0 opConnect [], .message 2 7 (lit "10.0.0.1") 1 opBye [],
    .accept 7, .message 3 7 (lit "10.0.0.3") 0 opConnect []]

theorem politeEvents_live :
    ∃ net, network (Network.init 0) politeEvents = some net ∧
      (Throughout NetworkEvent.step RegistrationsLive (Network.init 0) politeEvents ↔
        EveryStep NetworkEvent.step ConnectsOnce (Network.init 0) politeEvents) := by
  have hsome : (network (Network.init 0) politeEvents).isSome = true := by decide +kernel
  obtain ⟨net, hrun⟩ := Option.isSome_iff_exists.mp hsome
  exact ⟨net, hrun, registrationsLive_iff hrun⟩

/-- A client connects twice on one connection and hangs up; its descriptor is given
to another connection, and the admin disconnects client 2. -/
def doubleConnect : List NetworkEvent :=
  [.accept 7, .message 0 7 (lit "10.0.0.1") 0 opConnect [],
    .message 1 7 (lit "10.0.0.1") 0 opConnect [], .hangup 7]

def doubleConnectLater : List NetworkEvent :=
  [.accept 7, .acceptAdmin 9, .adminDisconnect 2]

/-- Client 2 stays registered when its connection is gone, and the admin hits the
connection that got the descriptor. -/
theorem doubleConnect_outlives :
    ∃ net net', network (Network.init 0) doubleConnect = some net ∧
      isRegisteredClient net.server.shared 2 = true ∧ net.owner 7 = none ∧
      ¬ RegistrationsLive net ∧ network net doubleConnectLater = some net' ∧
      net'.assigned = [(2, 0), (1, 0)] ∧ net'.notices = [(2, some ⟨1, false⟩)] := by
  have hboth : ((network (Network.init 0) doubleConnect).bind fun net =>
      (network net doubleConnectLater).map fun net' =>
        decide (isRegisteredClient net.server.shared 2 = true ∧ net.owner 7 = none ∧
          clientFdById net.server.shared 2 = 7 ∧ net'.assigned = [(2, 0), (1, 0)] ∧
          net'.notices = [(2, some ⟨1, false⟩)])) = some true := by
    decide +kernel
  obtain ⟨net, hrun, hlater⟩ := Option.bind_eq_some_iff.mp hboth
  obtain ⟨net', hrun', hfacts⟩ := Option.map_eq_some_iff.mp hlater
  obtain ⟨hregistered, howner, hfd, hassigned, hnotices⟩ := of_decide_eq_true hfacts
  refine ⟨net, net', hrun, hregistered, howner, fun hlive => ?_, hrun', hassigned, hnotices⟩
  obtain ⟨id, c, hopen, -, -⟩ := hlive.found 2 (by rw [hfd]; decide)
  rw [hfd, howner] at hopen
  cases hopen

end SqlCodeGenerator
