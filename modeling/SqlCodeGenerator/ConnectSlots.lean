import SqlCodeGenerator.Registrations

/-!
# Clients without a slot

`poll` watches up to 255 connections, and the table of clients has 128 slots.
`register_client` returns nothing, so `OP_CONNECT` is answered `OP_OK` with an identifier
whether or not there was a slot for it.

* `SlotIds`: the identifiers in the slots have been given out before.
* `NetworkEvent.step_usable`: a step keeps every identifier usable exactly if it finds a
  slot for the one it gives out.
* `connectsUsable_iff`: the same, said of all runs.
-/

namespace SqlCodeGenerator

open Library

/-! ## The law -/

/-- The identifier is registered on the descriptor. -/
def HasSlot (state : SharedState) (id : UInt32) (fd : Int) : Prop :=
  ∃ slot, slotFd state slot = fd ∧ slotClient state slot = toInt id

/-- Every identifier that `OP_CONNECT` has answered with is registered on its connection
as long as that is open, so `ordinary_interface_main` does not refuse it. -/
structure Usable (net : Network) : Prop where
  registered : ∀ id c fd, (id, c) ∈ net.assigned → net.owner fd = some ⟨c, false⟩ →
    HasSlot net.server.shared id fd
  known : ∀ id c fd, (id, c) ∈ net.assigned → net.owner fd = some ⟨c, false⟩ →
    isRegisteredClient net.server.shared id = true

/-- `OP_CONNECT` finds a free slot. -/
def FindsSlot (net : Network) (e : NetworkEvent) : Prop :=
  ∀ fd, e.connectFd = some fd → ∃ slot, slotFd net.server.shared slot = 0

/-- The identifiers in the slots have been given out. -/
def SlotIds (net : Network) : Prop :=
  ∀ slot, 0 < slotFd net.server.shared slot →
    ∃ id c, (id, c) ∈ net.assigned ∧ toInt id = slotClient net.server.shared slot

theorem findsSlot_of_none {net : Network} {e : NetworkEvent} (h : e.connectFd = none) :
    FindsSlot net e := by
  intro fd hfd
  rw [h] at hfd
  cases hfd

/-- A registration on a positive descriptor is found. -/
theorem HasSlot.isRegisteredClient {state : SharedState} {id : UInt32} {fd : Int}
    (h : HasSlot state id fd) (hpos : 0 < fd) : isRegisteredClient state id = true := by
  obtain ⟨slot, hfd, hclient⟩ := h
  unfold SqlCodeGenerator.isRegisteredClient clientFind
  rw [List.find?_isSome]
  have hin : 0 < slotFd state slot := by omega
  exact ⟨slot, List.mem_finRange slot, decide_eq_true ⟨hclient, hin⟩⟩

/-- The registrations are enough. -/
theorem Usable.of_registered {net : Network} (hs : net.Sound)
    (h : ∀ id c fd, (id, c) ∈ net.assigned → net.owner fd = some ⟨c, false⟩ →
      HasSlot net.server.shared id fd) : Usable net :=
  ⟨h, fun id c fd hassigned hopen =>
    (h id c fd hassigned hopen).isRegisteredClient (hs.serials fd _ hopen).1⟩

/-! ## Slots and identifiers -/

theorem SlotIds.keeps {net net' : Network} (h : SlotIds net)
    (hfd : ∀ slot, 0 < slotFd net'.server.shared slot → 0 < slotFd net.server.shared slot)
    (hclient : ∀ slot, slotClient net'.server.shared slot = slotClient net.server.shared slot)
    (hassigned : ∀ entry ∈ net.assigned, entry ∈ net'.assigned) : SlotIds net' := by
  intro slot hpos
  obtain ⟨id, c, hmem, hid⟩ := h slot (hfd slot hpos)
  exact ⟨id, c, hassigned _ hmem, hid.trans (hclient slot).symm⟩

theorem SlotIds.step {net net' : Network} {e : NetworkEvent} (h : SlotIds net)
    (hstep : e.step net = some net') : SlotIds net' := by
  have hsame : SameClients net.server.shared net'.server.shared → net'.assigned = net.assigned →
      SlotIds net' := by
    intro hclients hassigned
    refine h.keeps (fun slot hpos => ?_) hclients.clientId fun entry hmem => hassigned ▸ hmem
    rwa [slotFd, hclients.fd slot] at hpos
  cases (NetworkEvent.step_spec hstep).connections with
  | quiet howner haccepted hadmin hassigned hnotices hclients hconnect =>
      exact hsame hclients hassigned
  | opens fd admin hpos hfree howner haccepted hadmin hassigned hnotices hclients hconnect =>
      exact hsame hclients hassigned
  | closes fd hopen howner haccepted hassigned hnotices hclients hconnect =>
      rcases clientRemoveFd_slots fd net.server.shared with ⟨heq, -⟩ | ⟨used, -, hslots⟩
      · rw [heq] at hclients
        exact hsame hclients hassigned
      -- the slot that is freed keeps its identifier, and is not used
      · refine h.keeps (fun slot hpos => ?_) (fun slot => ?_) fun entry hmem => hassigned ▸ hmem
        · have hslot := (hclients.fd slot).trans (hslots slot).1
          rw [slotFd, hslot] at hpos
          split at hpos
          · omega
          · exact hpos
        · exact (hclients.clientId slot).trans (hslots slot).2
  | connects now fd addr c hopen hmax howner haccepted hadmin hassigned hnotices hclients
      hconnect =>
      have hmono : ∀ entry ∈ net.assigned, entry ∈ net'.assigned := by
        intro entry hmem
        rw [hassigned]
        exact List.mem_cons_of_mem _ hmem
      rcases connectClient_slots now fd addr net.server.shared with hfull | ⟨free, -, hslots⟩
      · rw [← hclients] at hfull
        refine h.keeps (fun slot hpos => ?_) (fun slot => (hfull slot).2.2) hmono
        rwa [(hfull slot).2.1] at hpos
      · rw [← hclients] at hslots
        intro slot hpos
        rw [(hslots slot).1] at hpos
        rw [(hslots slot).2]
        split
        · exact ⟨_, c, hassigned ▸ List.mem_cons_self, rfl⟩
        · next hslot =>
            rw [if_neg hslot] at hpos
            obtain ⟨id, c', hmem, hid⟩ := h slot hpos
            exact ⟨id, c', hmono _ hmem, hid⟩
  | disconnects clientId hfd howner haccepted hadmin hassigned hnotices hclients hconnect =>
      exact hsame hclients hassigned

/-! ## What a step does to the law -/

theorem HasSlot.congr {state state' : SharedState} {id : UInt32} {fd : Int}
    (h : HasSlot state id fd) (hclients : SameClients state state') : HasSlot state' id fd := by
  obtain ⟨slot, hfd, hclient⟩ := h
  exact ⟨slot, (hclients.fd slot).trans hfd, (hclients.clientId slot).trans hclient⟩

/-- Another descriptor is closed. -/
theorem HasSlot.clientRemoveFd {state : SharedState} {id : UInt32} {fd other : Int}
    (h : HasSlot state id fd) (hne : fd ≠ other) : HasSlot (clientRemoveFd other state) id fd := by
  obtain ⟨slot, hfd, hclient⟩ := h
  rcases clientRemoveFd_slots other state with ⟨hsame, -⟩ | ⟨used, hused, hslots⟩
  · rw [hsame]
    exact ⟨slot, hfd, hclient⟩
  · have hslot : slot ≠ used := by
      rintro rfl
      exact hne (hfd.symm.trans hused)
    refine ⟨slot, ?_, (hslots slot).2.trans hclient⟩
    rw [(hslots slot).1, if_neg hslot, hfd]

/-- `OP_CONNECT` leaves the other registrations alone. -/
theorem HasSlot.connectClient {state : SharedState} {id : UInt32} {fd now fd' : Int}
    {addr : CString} (h : HasSlot state id fd) (hpos : 0 < fd) :
    HasSlot (connectClient now fd' addr state) id fd := by
  obtain ⟨slot, hfd, hclient⟩ := h
  rcases connectClient_slots now fd' addr state with hfull | ⟨free, hfree, hslots⟩
  · exact ⟨slot, (hfull slot).2.1.trans hfd, (hfull slot).2.2.trans hclient⟩
  · have hslot : slot ≠ free := by
      rintro rfl
      omega
    refine ⟨slot, ?_, ?_⟩
    · rw [(hslots slot).1, if_neg hslot, hfd]
    · rw [(hslots slot).2, if_neg hslot, hclient]

/-- `OP_CONNECT` answers with an identifier that can be used exactly if there is a slot. -/
theorem Usable.connects_iff {net net' : Network} {e : NetworkEvent} (h : Usable net)
    (hs : net.Sound) (hs' : net'.Sound) (hids : SlotIds net) {now fd : Int} {addr : CString}
    {c : Nat} (hopen : net.owner fd = some ⟨c, false⟩) (howner : net'.owner = net.owner)
    (hmax : net.server.shared.nextClientId < intMax)
    (hassigned : net'.assigned = (UInt32.ofNat net.server.shared.nextClientId, c) :: net.assigned)
    (hclients : net'.server.shared = connectClient now fd addr net.server.shared)
    (hconnect : e.connectFd = some fd) : Usable net' ↔ FindsSlot net e := by
  constructor
  · intro h' fd' hfd'
    have hslot := h'.registered _ c fd (hassigned ▸ List.mem_cons_self) (howner ▸ hopen)
    rcases connectClient_slots now fd addr net.server.shared with hfull | ⟨free, hfree, -⟩
    · -- the identifier is new, so no slot has it
      exfalso
      obtain ⟨slot, hfd, hclient⟩ := hslot
      rw [hclients, (hfull slot).2.1] at hfd
      rw [hclients, (hfull slot).2.2] at hclient
      have hpos : 0 < slotFd net.server.shared slot := hfd ▸ (hs.serials fd _ hopen).1
      obtain ⟨id, c', hmem, hid⟩ := hids slot hpos
      obtain rfl := toInt_inj (hid.trans hclient)
      have hlt := (hs.ids _ _ hmem).2.2
      have hbelow : net.server.shared.nextClientId < 2147483647 := hmax
      rw [UInt32.toNat_ofNat', Nat.mod_eq_of_lt (by omega)] at hlt
      exact absurd hlt (Nat.lt_irrefl _)
    · exact ⟨free, hfree⟩
  · intro hfinds
    obtain ⟨room, hroom⟩ := hfinds fd hconnect
    refine .of_registered hs' fun id c' fd' hmem hopen' => ?_
    rw [howner] at hopen'
    rw [hassigned] at hmem
    rw [hclients]
    -- the new identifier is in the slot that was free, the others are where they were
    rcases List.mem_cons.mp hmem with heq | hmem
    · obtain ⟨rfl, rfl⟩ := Prod.mk.inj heq
      obtain rfl := hs.distinct fd fd' _ _ hopen hopen' rfl
      rcases connectClient_slots now fd addr net.server.shared with hfull | ⟨free, -, hslots⟩
      · exact absurd hroom (hfull room).1
      · refine ⟨free, ?_, ?_⟩
        · rw [(hslots free).1, if_pos rfl]
        · rw [(hslots free).2, if_pos rfl]
    · exact (h.registered id c' fd' hmem hopen').connectClient (hs.serials fd' _ hopen').1

/-- A step keeps all identifiers usable exactly if it finds a slot where it needs one. -/
theorem NetworkEvent.step_usable {net net' : Network} {e : NetworkEvent} (hs : net.Sound)
    (hids : SlotIds net) (h : Usable net) (hstep : e.step net = some net') :
    Usable net' ↔ FindsSlot net e := by
  have hs' : net'.Sound := hs.step hstep
  have hsame : SameClients net.server.shared net'.server.shared → net'.assigned = net.assigned →
      net'.owner = net.owner → Usable net' := by
    intro hclients hassigned howner
    refine .of_registered hs' fun id c fd hmem hopen => ?_
    rw [hassigned] at hmem
    rw [howner] at hopen
    exact (h.registered id c fd hmem hopen).congr hclients
  cases (NetworkEvent.step_spec hstep).connections with
  | quiet howner haccepted hadmin hassigned hnotices hclients hconnect =>
      exact iff_of_true (hsame hclients hassigned howner) (findsSlot_of_none hconnect)
  | opens fd admin hpos hfree howner haccepted hadmin hassigned hnotices hclients hconnect =>
      refine iff_of_true (.of_registered hs' fun id c fd' hmem hopen => ?_)
        (findsSlot_of_none hconnect)
      rw [hassigned] at hmem
      rw [howner, Function.update_apply] at hopen
      split at hopen
      · -- no identifier was given to the new connection yet
        obtain ⟨rfl, -⟩ := Connection.mk.inj (Option.some.inj hopen)
        exact absurd (hs.ids id _ hmem).1 (Nat.lt_irrefl _)
      · exact (h.registered id c fd' hmem hopen).congr hclients
  | closes fd hopen howner haccepted hassigned hnotices hclients hconnect =>
      refine iff_of_true (.of_registered hs' fun id c fd' hmem hopen' => ?_)
        (findsSlot_of_none hconnect)
      rw [hassigned] at hmem
      rw [howner, Function.update_apply] at hopen'
      split at hopen'
      · cases hopen'
      · next hne => exact ((h.registered id c fd' hmem hopen').clientRemoveFd hne).congr hclients
  | connects now fd addr c hopen hmax howner haccepted hadmin hassigned hnotices hclients
      hconnect =>
      exact h.connects_iff hs hs' hids hopen howner hmax hassigned hclients hconnect
  | disconnects clientId hfd howner haccepted hadmin hassigned hnotices hclients hconnect =>
      exact iff_of_true (hsame hclients hassigned howner) (findsSlot_of_none hconnect)

/-- What holds of identifiers and slots in every run. -/
theorem sound_slotIds_step {net net' : Network} {e : NetworkEvent} (hs : net.Sound ∧ SlotIds net)
    (hstep : e.step net = some net') : net'.Sound ∧ SlotIds net' :=
  ⟨hs.1.step hstep, hs.2.step hstep⟩

theorem slotFd_init (now : Int) (slot : Fin maxClients) :
    slotFd (Network.init now).server.shared slot = 0 :=
  slotFd_stateInit now slot

theorem sound_slotIds_init (now : Int) :
    (Network.init now).Sound ∧ SlotIds (Network.init now) := by
  refine ⟨sound_init now, fun slot hpos => ?_⟩
  rw [slotFd_init] at hpos
  exact absurd hpos (Int.lt_irrefl 0)

/-- In every run: every identifier answered with can be used while its connection is open,
in every state reached, exactly if every `OP_CONNECT` finds a free slot. -/
theorem connectsUsable_iff (now : Int) (events : List NetworkEvent) :
    Throughout NetworkEvent.step Usable (Network.init now) events ↔
      EveryStep NetworkEvent.step (fun net e => (e.step net).isSome → FindsSlot net e)
        (Network.init now) events := by
  have haux : ∀ (net : Network) e net', net.Sound ∧ SlotIds net →
      NetworkEvent.step net e = some net' → net'.Sound ∧ SlotIds net' :=
    fun _ _ _ hs hstep => sound_slotIds_step hs hstep
  have hkept : ∀ (net : Network) e net', net.Sound ∧ SlotIds net → Usable net →
      NetworkEvent.step net e = some net' → (Usable net' ↔ FindsSlot net e) :=
    fun _ _ _ hs h hstep => NetworkEvent.step_usable hs.1 hs.2 h hstep
  refine throughout_iff_everyStep haux hkept (sound_slotIds_init now) ?_
  exact .of_registered (sound_init now) fun id c fd hmem => (by cases hmem)

/-! ### One client too many -/

/-- The slots that are free. -/
def freeSlots (state : SharedState) : Finset (Fin maxClients) :=
  Finset.univ.filter fun slot => slotFd state slot = 0

/-- `OP_CONNECT` takes one of the free slots. -/
theorem card_freeSlots_connectClient {now fd : Int} (addr : CString) (state : SharedState)
    (hfd : fd ≠ 0) :
    (freeSlots (connectClient now fd addr state)).card = (freeSlots state).card - 1 := by
  rcases connectClient_slots now fd addr state with hfull | ⟨free, hfree, hslots⟩
  · have hnone : freeSlots state = ∅ :=
      Finset.filter_eq_empty_iff.mpr fun slot _ => (hfull slot).1
    have hnone' : freeSlots (connectClient now fd addr state) = ∅ :=
      Finset.filter_eq_empty_iff.mpr fun slot _ => (hfull slot).2.1 ▸ (hfull slot).1
    rw [hnone, hnone']
    rfl
  · have htaken : freeSlots (connectClient now fd addr state) = (freeSlots state).erase free := by
      ext slot
      simp only [freeSlots, Finset.mem_filter, Finset.mem_univ, true_and, Finset.mem_erase,
        (hslots slot).1]
      by_cases hslot : slot = free
      · simp [hslot, hfd]
      · simp [hslot]
    have hmem : free ∈ freeSlots state :=
      Finset.mem_filter.mpr ⟨Finset.mem_univ free, hfree⟩
    rw [htaken, Finset.card_erase_of_mem hmem]

/-- The first `k` clients, each accepted on a descriptor of its own and connected. -/
def arrivals (k : Nat) : List NetworkEvent :=
  (List.range k).flatMap fun j =>
    [.accept ((j : Int) + 5), .message 0 ((j : Int) + 5) (lit "10.0.0.1") 0 opConnect []]

/-- What the first `k` clients leave. -/
structure Crowd (k : Nat) (net : Network) : Prop where
  accepted : net.accepted = k
  next : net.server.shared.nextClientId = k + 1
  pending : net.server.pending = none
  fresh : ∀ j : Nat, k ≤ j → net.owner ((j : Int) + 5) = none
  free : (freeSlots net.server.shared).card = maxClients - k

/-- The network after one more client. -/
def Network.withClient (net : Network) (k : Nat) : Network :=
  { (net.openFd ((k : Int) + 5) false).withShared
      (connectClient 0 ((k : Int) + 5) (lit "10.0.0.1") net.server.shared) with
    assigned := (UInt32.ofNat (k + 1), k) :: net.assigned
    replied := net.replied ++ [(k, respondText ((k : Int) + 5) (UInt32.ofNat (k + 1)) opOk
      (decimal (UInt32.ofNat (k + 1)).toNat))] }

theorem Crowd.withClient_eq {k : Nat} {net : Network} (h : Crowd k net) (hk : k + 1 < intMax) :
    runFrom NetworkEvent.step net
        [.accept ((k : Int) + 5), .message 0 ((k : Int) + 5) (lit "10.0.0.1") 0 opConnect []] =
      some (net.withClient k) := by
  have haccept : NetworkEvent.step net (.accept ((k : Int) + 5)) =
      some (net.openFd ((k : Int) + 5) false) :=
    if_pos ⟨by rw [h.pending]; rfl, by omega, h.fresh k (Nat.le_refl k)⟩
  rw [runFrom_cons, haccept, Option.bind_some, runFrom_cons]
  have howner : (net.openFd ((k : Int) + 5) false).owner ((k : Int) + 5) = some ⟨k, false⟩ := by
    simp [Network.openFd, h.accepted]
  have hpending : (net.openFd ((k : Int) + 5) false).server.pending = none := h.pending
  have hnext : (net.openFd ((k : Int) + 5) false).server.shared.nextClientId = k + 1 := h.next
  have hmessage : NetworkEvent.step (net.openFd ((k : Int) + 5) false)
      (.message 0 ((k : Int) + 5) (lit "10.0.0.1") 0 opConnect []) = some (net.withClient k) := by
    simp only [NetworkEvent.step, howner, hpending, Option.isNone_none, if_true, Network.message,
      Network.connect, hnext, if_pos hk]
    simp [Network.serverStep, Event.step, InterfaceEvent.step, Network.reply, Network.withClient,
      Network.withShared, Network.openFd]
  rw [hmessage]
  rfl

theorem Crowd.withClient {k : Nat} {net : Network} (h : Crowd k net) :
    Crowd (k + 1) (net.withClient k) where
  accepted := congrArg Nat.succ h.accepted
  next := by
    show (connectClient 0 ((k : Int) + 5) _ net.server.shared).nextClientId = _
    rw [connectClient_nextClientId, h.next]
  pending := h.pending
  fresh j hj := by
    show Function.update net.owner ((k : Int) + 5) _ ((j : Int) + 5) = none
    rw [Function.update_of_ne (by omega)]
    exact h.fresh j (Nat.le_of_succ_le hj)
  free := by
    show (freeSlots (connectClient 0 ((k : Int) + 5) _ net.server.shared)).card = _
    rw [card_freeSlots_connectClient _ _ (by omega), h.free, Nat.sub_sub]

theorem arrivals_crowd {k : Nat} (hk : k < intMax) :
    ∃ net, network (Network.init 0) (arrivals k) = some net ∧ Crowd k net := by
  induction k with
  | zero =>
      refine ⟨Network.init 0, rfl, rfl, rfl, rfl, fun _ _ => rfl, ?_⟩
      have hall : freeSlots (Network.init 0).server.shared = Finset.univ :=
        Finset.filter_true_of_mem fun slot _ => slotFd_init 0 slot
      rw [hall, Finset.card_univ, Fintype.card_fin]
      rfl
  | succ k ih =>
      obtain ⟨net, hrun, hcrowd⟩ := ih (Nat.lt_of_succ_lt hk)
      refine ⟨net.withClient k, ?_, hcrowd.withClient⟩
      have hlater : arrivals (k + 1) = arrivals k ++
          [.accept ((k : Int) + 5),
            .message 0 ((k : Int) + 5) (lit "10.0.0.1") 0 opConnect []] := by
        simp [arrivals, List.range_succ]
      rw [network, hlater, runFrom_append]
      rw [network] at hrun
      rw [hrun, Option.bind_some, hcrowd.withClient_eq hk]

/-- The table is full when the client after the 128th one connects, so that its
identifier is unknown. -/
theorem Crowd.unknown {net : Network} (h : Crowd maxClients net) (hs : net.Sound)
    (hids : SlotIds net) :
    isRegisteredClient (net.withClient maxClients).server.shared 129 = false := by
  have hnone : ∀ slot, slotFd net.server.shared slot ≠ 0 := by
    have hempty : freeSlots net.server.shared = ∅ := by
      rw [← Finset.card_eq_zero, h.free, Nat.sub_self]
    exact fun slot => Finset.filter_eq_empty_iff.mp hempty (Finset.mem_univ slot)
  have hshared : (net.withClient maxClients).server.shared =
      connectClient 0 133 (lit "10.0.0.1") net.server.shared := rfl
  rw [hshared]
  rcases connectClient_slots 0 133 (lit "10.0.0.1") net.server.shared with hfull | ⟨free, hfree, -⟩
  · unfold isRegisteredClient
    cases hfind : clientFind (connectClient 0 133 (lit "10.0.0.1") net.server.shared)
        (toInt 129) with
    | none => rfl
    | some slot =>
        obtain ⟨hclient, hpos⟩ := clientFind_eq_some hfind
        rw [(hfull slot).2.2] at hclient
        rw [(hfull slot).2.1] at hpos
        obtain ⟨id, c, hmem, hid⟩ := hids slot hpos
        obtain rfl := toInt_inj (hid.trans hclient)
        have hlt := (hs.ids _ _ hmem).2.2
        rw [h.next] at hlt
        exact absurd hlt (by decide)
  · exact absurd hfree (hnone free)

/-- 129 clients connect.  The last one is answered with the identifier 129, and its next
operation under it is refused. -/
theorem arrivals_refused :
    ∃ net, network (Network.init 0) (arrivals 129) = some net ∧
      net.owner 133 = some ⟨128, false⟩ ∧ (129, 128) ∈ net.assigned ∧
      (128, respondText 133 129 opOk (decimal 129)) ∈ net.replied ∧
      NetworkEvent.step net (.message 1 133 (lit "10.0.0.1") 129 opGenerateSql []) =
        some (net.reject 133 129 128) ∧
      ¬ Throughout NetworkEvent.step Usable (Network.init 0) (arrivals 129) := by
  obtain ⟨net, hrun, hcrowd⟩ := arrivals_crowd (by decide : maxClients < intMax)
  obtain ⟨hs, hids⟩ : net.Sound ∧ SlotIds net :=
    runFrom_invariant (fun _ _ _ hs hstep => sound_slotIds_step hs hstep) (sound_slotIds_init 0)
      hrun
  have hunknown := hcrowd.unknown hs hids
  have hlast : network (Network.init 0) (arrivals 129) = some (net.withClient maxClients) := by
    have hlater : arrivals 129 = arrivals 128 ++
        [.accept (((128 : Nat) : Int) + 5),
          .message 0 (((128 : Nat) : Int) + 5) (lit "10.0.0.1") 0 opConnect []] := by
      simp [arrivals, List.range_succ (n := 128)]
    rw [network, hlater, runFrom_append]
    rw [network] at hrun
    rw [hrun, Option.bind_some, hcrowd.withClient_eq (by decide)]
  have howner : (net.withClient maxClients).owner 133 = some ⟨128, false⟩ := by
    show Function.update net.owner 133 (some ⟨net.accepted, false⟩) 133 = some ⟨128, false⟩
    rw [Function.update_self, hcrowd.accepted]
  have hassigned : ((129 : UInt32), 128) ∈ (net.withClient maxClients).assigned :=
    List.mem_cons_self
  refine ⟨_, hlast, howner, hassigned, List.mem_append_right _ (List.mem_singleton_self _), ?_,
    fun h => ?_⟩
  · have hpending : (net.withClient maxClients).server.pending = none := hcrowd.pending
    simp only [NetworkEvent.step, howner, hpending, Option.isNone_none, if_true, Network.message]
    rw [if_neg (by decide), if_neg (by decide), hunknown]
    rfl
  · have husable := h (arrivals 129) [] _ (List.append_nil _).symm hlast
    have hknown := husable.known 129 128 133 hassigned howner
    rw [hunknown] at hknown
    cases hknown

end SqlCodeGenerator
