import SqlCodeGenerator.PollRound
import SqlCodeGenerator.Registrations

/-!
# The number of clients

`register_client` and `client_remove_fd` count the clients beside the table of their slots,
and `next_client_id` goes on whether a slot was free or not.  A slot that is freed keeps the
identifier of its last client.

* `ClientRun.Accounted`: the count is that of the slots in use, whose identifiers are
  different ones of those given out;
* `clients_accounted`: after any `OP_CONNECT` and `remove_pollfd`;
* `pollRound_clients`: a round of the ordinary interface is a sequence of these.
-/

namespace SqlCodeGenerator

open Library

/-- What the interface threads do with the table of clients. -/
inductive ClientOp where
  /-- `OP_CONNECT` on a descriptor with the address tracked for it. -/
  | connect (now fd : Int) (addr : CString)
  /-- `client_remove_fd`, in `remove_pollfd` of either thread. -/
  | remove (fd : Int)

/-- The shared state, and the identifiers that `OP_CONNECT` has given out. -/
structure ClientRun where
  shared : SharedState
  handedOut : List UInt32

namespace ClientOp

def fd : ClientOp → Int
  | connect _ fd _ => fd
  | remove fd => fd

def isConnect : ClientOp → Bool
  | connect _ _ _ => true
  | remove _ => false

def perform (run : ClientRun) : ClientOp → ClientRun
  | connect now fd addr =>
      ⟨connectClient now fd addr run.shared,
        run.handedOut ++ [UInt32.ofNat run.shared.nextClientId]⟩
  | remove fd => { run with shared := clientRemoveFd fd run.shared }

end ClientOp

/-- A sequence of operations from `state_init` on. -/
def clientsAfter (now : Int) (ops : List ClientOp) : ClientRun :=
  ops.foldl ClientOp.perform ⟨stateInit now, []⟩

/-- The slots of `ClientInfo` with `fd > 0`. -/
def usedSlots (state : SharedState) : Finset (Fin maxClients) :=
  Finset.univ.filter fun slot => 0 < slotFd state slot

theorem mem_usedSlots {state : SharedState} {slot : Fin maxClients} :
    slot ∈ usedSlots state ↔ 0 < slotFd state slot := by
  rw [usedSlots, Finset.mem_filter]
  exact and_iff_right (Finset.mem_univ slot)

/-! ## What an operation keeps -/

/-- The clients are counted, and the slots in use have different identifiers of those that
were given out. -/
structure ClientRun.Accounted (run : ClientRun) : Prop where
  count : run.shared.clientCount = (usedSlots run.shared).card
  free : ∀ slot, 0 ≤ slotFd run.shared slot
  ids : ∀ slot ∈ usedSlots run.shared, 0 < slotClient run.shared slot ∧
    slotClient run.shared slot < run.shared.nextClientId
  distinct : ∀ slot ∈ usedSlots run.shared, ∀ slot' ∈ usedSlots run.shared,
    slotClient run.shared slot = slotClient run.shared slot' → slot = slot'
  next : run.shared.nextClientId = run.handedOut.length + 1
  handedOut : run.handedOut = (List.range' 1 run.handedOut.length).map UInt32.ofNat

theorem accounted_init (now : Int) : (⟨stateInit now, []⟩ : ClientRun).Accounted := by
  have hzero := slotFd_stateInit now
  have hnone : usedSlots (stateInit now) = ∅ := by
    refine Finset.filter_eq_empty_iff.mpr fun slot _ => ?_
    rw [hzero slot]
    exact lt_irrefl 0
  refine ⟨?_, fun slot => le_of_eq (hzero slot).symm, ?_, ?_, rfl, rfl⟩
  · rw [hnone]
    rfl
  · intro slot hslot
    rw [hnone] at hslot
    cases hslot
  · intro slot hslot
    rw [hnone] at hslot
    cases hslot

theorem usedSlots_congr {state state' : SharedState}
    (hfds : ∀ slot, slotFd state' slot = slotFd state slot) :
    usedSlots state' = usedSlots state := by
  ext slot
  rw [mem_usedSlots, mem_usedSlots, hfds]

/-- A free slot is taken: it is one more in use. -/
theorem usedSlots_take {state state' : SharedState} {slot : Fin maxClients} {fd : Int}
    (hfd : 0 < fd)
    (hfds : ∀ other, slotFd state' other = if other = slot then fd else slotFd state other) :
    usedSlots state' = insert slot (usedSlots state) := by
  ext other
  rw [Finset.mem_insert, mem_usedSlots, mem_usedSlots, hfds]
  by_cases hother : other = slot
  · rw [if_pos hother]
    exact iff_of_true hfd (Or.inl hother)
  · rw [if_neg hother]
    exact (or_iff_right hother).symm

/-- A slot is freed: it is one less in use. -/
theorem usedSlots_free {state state' : SharedState} {slot : Fin maxClients}
    (hfds : ∀ other, slotFd state' other = if other = slot then 0 else slotFd state other) :
    usedSlots state' = (usedSlots state).erase slot := by
  ext other
  rw [Finset.mem_erase, mem_usedSlots, mem_usedSlots, hfds]
  by_cases hother : other = slot
  · rw [if_pos hother]
    exact iff_of_false (lt_irrefl 0) fun h => h.1 hother
  · rw [if_neg hother]
    exact (and_iff_right hother).symm

/-- `OP_CONNECT` counts the client where a slot is free. -/
theorem clientCount_connectClient (now fd : Int) (addr : CString) (state : SharedState) :
    (connectClient now fd addr state).clientCount =
      if ∃ slot, slotFd state slot = 0 then state.clientCount + 1 else state.clientCount := by
  show (registerClient now fd addr _ _).clientCount = _
  unfold registerClient
  split
  · next hnone =>
      rw [if_neg]
      rintro ⟨slot, hslot⟩
      exact FixedArray.not_of_find?_eq_none hnone slot hslot
  · next slot hfound => rw [if_pos ⟨slot, FixedArray.of_find?_eq_some hfound⟩]

/-- `client_remove_fd` counts down where a slot has the descriptor. -/
theorem clientCount_clientRemoveFd (fd : Int) (state : SharedState) :
    (clientRemoveFd fd state).clientCount =
      if ∃ slot, slotFd state slot = fd then state.clientCount - 1 else state.clientCount := by
  unfold clientRemoveFd
  split
  · next hnone =>
      rw [if_neg]
      rintro ⟨slot, hslot⟩
      exact FixedArray.not_of_find?_eq_none hnone slot hslot
  · next slot hfound => rw [if_pos ⟨slot, FixedArray.of_find?_eq_some hfound⟩]

namespace ClientRun.Accounted

variable {run : ClientRun} {shared : SharedState} {slot : Fin maxClients}

/-- The identifier is given out whether a slot is free or not. -/
theorem handsOut (h : run.Accounted) :
    run.shared.nextClientId + 1 =
        (run.handedOut ++ [UInt32.ofNat run.shared.nextClientId]).length + 1 ∧
      run.handedOut ++ [UInt32.ofNat run.shared.nextClientId] =
        (List.range' 1 (run.handedOut ++ [UInt32.ofNat run.shared.nextClientId]).length).map
          UInt32.ofNat := by
  have hnext : 1 + 1 * run.handedOut.length = run.shared.nextClientId := by
    rw [h.next]
    omega
  rw [List.length_append, List.length_singleton]
  refine ⟨by rw [h.next], ?_⟩
  rw [List.range'_concat, List.map_append, hnext, ← h.handedOut]
  rfl

/-- Without a free slot only the next identifier is another one. -/
theorem refuse (h : run.Accounted)
    (hfds : ∀ other, slotFd shared other = slotFd run.shared other)
    (hclients : ∀ other, slotClient shared other = slotClient run.shared other)
    (hcount : shared.clientCount = run.shared.clientCount)
    (hnext : shared.nextClientId = run.shared.nextClientId + 1) :
    (⟨shared, run.handedOut ++ [UInt32.ofNat run.shared.nextClientId]⟩ : ClientRun).Accounted := by
  have hused := usedSlots_congr hfds
  refine ⟨?_, fun other => ?_, fun other hother => ?_, fun other hother other' hother' heq => ?_,
    hnext.trans h.handsOut.1, h.handsOut.2⟩
  · rw [hused, hcount, h.count]
  · rw [hfds]
    exact h.free other
  · rw [hused] at hother
    have hbounds := h.ids other hother
    rw [hclients, hnext]
    omega
  · rw [hused] at hother hother'
    rw [hclients, hclients] at heq
    exact h.distinct other hother other' hother' heq

/-- The slot that is taken has the largest identifier. -/
theorem take (h : run.Accounted) {fd : Int} (hfd : 0 < fd) (hfree : slotFd run.shared slot = 0)
    (hfds : ∀ other, slotFd shared other = if other = slot then fd else slotFd run.shared other)
    (hclients : ∀ other, slotClient shared other =
      if other = slot then (run.shared.nextClientId : Int) else slotClient run.shared other)
    (hcount : shared.clientCount = run.shared.clientCount + 1)
    (hnext : shared.nextClientId = run.shared.nextClientId + 1) :
    (⟨shared, run.handedOut ++ [UInt32.ofNat run.shared.nextClientId]⟩ : ClientRun).Accounted := by
  have hunused : slot ∉ usedSlots run.shared := by
    rw [mem_usedSlots]
    omega
  have hused := usedSlots_take hfd hfds
  have hnew : slotClient shared slot = run.shared.nextClientId := by
    rw [hclients, if_pos rfl]
  -- a slot in use is another one, and all identifiers in use are below the new one
  have hold : ∀ other ∈ usedSlots run.shared,
      slotClient shared other = slotClient run.shared other ∧
        0 < slotClient run.shared other ∧
        slotClient run.shared other < run.shared.nextClientId := by
    intro other hother
    rw [hclients, if_neg (ne_of_mem_of_not_mem hother hunused)]
    exact ⟨rfl, h.ids other hother⟩
  refine ⟨?_, fun other => ?_, fun other hother => ?_, fun other hother other' hother' heq => ?_,
    hnext.trans h.handsOut.1, h.handsOut.2⟩
  · rw [hused, Finset.card_insert_of_notMem hunused, hcount, h.count]
  · rw [hfds]
    by_cases hother : other = slot
    · rw [if_pos hother]
      exact le_of_lt hfd
    · rw [if_neg hother]
      exact h.free other
  · rw [hused, Finset.mem_insert] at hother
    have hpos : 0 < run.shared.nextClientId := by
      rw [h.next]
      exact Nat.succ_pos _
    rw [hnext]
    rcases hother with rfl | hbefore
    · rw [hnew]
      omega
    · obtain ⟨hsame, hbounds⟩ := hold other hbefore
      rw [hsame]
      omega
  · rw [hused, Finset.mem_insert] at hother hother'
    rcases hother with rfl | hbefore
    · rcases hother' with rfl | hbefore'
      · rfl
      · obtain ⟨hsame', hbounds'⟩ := hold other' hbefore'
        rw [hnew, hsame'] at heq
        omega
    · obtain ⟨hsame, hbounds⟩ := hold other hbefore
      rcases hother' with rfl | hbefore'
      · rw [hnew, hsame] at heq
        omega
      · rw [hsame, (hold other' hbefore').1] at heq
        exact h.distinct other hbefore other' hbefore' heq

/-- The slot that is freed keeps its identifier. -/
theorem release (h : run.Accounted) (hmem : slot ∈ usedSlots run.shared)
    (hfds : ∀ other, slotFd shared other = if other = slot then 0 else slotFd run.shared other)
    (hclients : ∀ other, slotClient shared other = slotClient run.shared other)
    (hcount : shared.clientCount = run.shared.clientCount - 1)
    (hnext : shared.nextClientId = run.shared.nextClientId) :
    ({ run with shared := shared } : ClientRun).Accounted := by
  have hused := usedSlots_free hfds
  refine ⟨?_, fun other => ?_, fun other hother => ?_, fun other hother other' hother' heq => ?_,
    hnext.trans h.next, h.handedOut⟩
  · rw [hused, Finset.card_erase_of_mem hmem, hcount, h.count]
  · rw [hfds]
    by_cases hother : other = slot
    · rw [if_pos hother]
    · rw [if_neg hother]
      exact h.free other
  · rw [hused] at hother
    rw [hclients, hnext]
    exact h.ids other (Finset.mem_of_mem_erase hother)
  · rw [hused] at hother hother'
    rw [hclients, hclients] at heq
    exact h.distinct other (Finset.mem_of_mem_erase hother) other'
      (Finset.mem_of_mem_erase hother') heq

/-- A client connects. -/
theorem connect (h : run.Accounted) (now : Int) {fd : Int} (hfd : 0 < fd) (addr : CString)
    (hmax : run.shared.nextClientId < 2 ^ 31) :
    ((ClientOp.connect now fd addr).perform run).Accounted := by
  have hnext := connectClient_nextClientId now fd addr run.shared
  have hcount := clientCount_connectClient now fd addr run.shared
  rcases connectClient_slots now fd addr run.shared with hfull | ⟨slot, hfree, hslots⟩
  · have hnone : ¬ ∃ slot, slotFd run.shared slot = 0 := fun ⟨slot, hslot⟩ => (hfull slot).1 hslot
    rw [if_neg hnone] at hcount
    exact h.refuse (fun other => (hfull other).2.1) (fun other => (hfull other).2.2) hcount hnext
  · rw [if_pos ⟨slot, hfree⟩] at hcount
    refine h.take hfd hfree (fun other => (hslots other).1) (fun other => ?_) hcount hnext
    rw [(hslots other).2, toInt_ofNat hmax]

/-- A descriptor is closed. -/
theorem remove (h : run.Accounted) {fd : Int} (hfd : 0 < fd) :
    ((ClientOp.remove fd).perform run).Accounted := by
  have hnext := clientRemoveFd_nextClientId fd run.shared
  have hcount := clientCount_clientRemoveFd fd run.shared
  rcases clientRemoveFd_slots fd run.shared with ⟨hsame, -⟩ | ⟨slot, hheld, hslots⟩
  · have hrun : (ClientOp.remove fd).perform run = run := by
      show { run with shared := clientRemoveFd fd run.shared } = run
      rw [hsame]
    rw [hrun]
    exact h
  · have hmem : slot ∈ usedSlots run.shared := by
      rw [mem_usedSlots, hheld]
      exact hfd
    rw [if_pos ⟨slot, hheld⟩] at hcount
    exact h.release hmem (fun other => (hslots other).1) (fun other => (hslots other).2)
      hcount hnext

/-- A sequence of operations, with identifiers left for its clients. -/
theorem foldl (h : run.Accounted) {ops : List ClientOp} (hfds : ∀ op ∈ ops, 0 < op.fd)
    (hfew : run.shared.nextClientId + ops.countP ClientOp.isConnect ≤ 2 ^ 31) :
    (ops.foldl ClientOp.perform run).Accounted ∧
      (ops.foldl ClientOp.perform run).handedOut.length =
        run.handedOut.length + ops.countP ClientOp.isConnect := by
  induction ops generalizing run with
  | nil => exact ⟨h, rfl⟩
  | cons op ops ih =>
      have hrest : ∀ op ∈ ops, 0 < op.fd := fun op' hop' => hfds op' (List.mem_cons_of_mem op hop')
      cases op with
      | connect now fd addr =>
          have hone : (ClientOp.connect now fd addr :: ops).countP ClientOp.isConnect =
              ops.countP ClientOp.isConnect + 1 := List.countP_cons_of_pos rfl
          rw [hone] at hfew ⊢
          have hfd : 0 < fd := hfds _ List.mem_cons_self
          have hstep := h.connect now hfd addr (by omega)
          have hnext : ((ClientOp.connect now fd addr).perform run).shared.nextClientId =
              run.shared.nextClientId + 1 := connectClient_nextClientId now fd addr run.shared
          obtain ⟨hends, hlength⟩ := ih hstep hrest (by omega)
          refine ⟨hends, hlength.trans ?_⟩
          show (run.handedOut ++ [_]).length + _ = _
          rw [List.length_append, List.length_singleton]
          omega
      | remove fd =>
          have hnone : (ClientOp.remove fd :: ops).countP ClientOp.isConnect =
              ops.countP ClientOp.isConnect := List.countP_cons_of_neg Bool.false_ne_true
          rw [hnone] at hfew ⊢
          have hnext : ((ClientOp.remove fd).perform run).shared.nextClientId =
              run.shared.nextClientId := clientRemoveFd_nextClientId fd run.shared
          -- only `OP_CONNECT` needs an identifier
          have hfd : 0 < fd := hfds _ List.mem_cons_self
          exact ih (h.remove hfd) hrest (by omega)

/-- No identifier is given out twice. -/
theorem nodup_handedOut (h : run.Accounted) (hfew : run.shared.nextClientId ≤ 2 ^ 31) :
    run.handedOut.Nodup := by
  rw [h.handedOut]
  refine List.Nodup.map_on ?_ List.nodup_range'
  intro n hn n' hn' heq
  rw [List.mem_range'_1] at hn hn'
  have hnext := h.next
  have hnat := congrArg UInt32.toNat heq
  rw [UInt32.toNat_ofNat', UInt32.toNat_ofNat', Nat.mod_eq_of_lt (by omega),
    Nat.mod_eq_of_lt (by omega)] at hnat
  exact hnat

end ClientRun.Accounted

/-! ## Every sequence of operations -/

/-- After every sequence of `OP_CONNECT`, fewer than 2^31 of them, and `remove_pollfd` on
positive descriptors: `client_count` is the number of slots in use, their identifiers are
positive, below `next_client_id` and different from one another, and every `OP_CONNECT` has
given out an identifier of its own. -/
theorem clients_accounted (now : Int) {ops : List ClientOp} (hfds : ∀ op ∈ ops, 0 < op.fd)
    (hfew : ops.countP ClientOp.isConnect < 2 ^ 31) :
    (clientsAfter now ops).shared.clientCount =
        (Finset.univ.filter fun slot =>
          ((clientsAfter now ops).shared.clients.get slot).fd > 0).card ∧
      (∀ slot, ((clientsAfter now ops).shared.clients.get slot).fd > 0 →
        0 < ((clientsAfter now ops).shared.clients.get slot).clientId ∧
        ((clientsAfter now ops).shared.clients.get slot).clientId <
          (clientsAfter now ops).shared.nextClientId) ∧
      (∀ slot slot', ((clientsAfter now ops).shared.clients.get slot).fd > 0 →
        ((clientsAfter now ops).shared.clients.get slot').fd > 0 →
        ((clientsAfter now ops).shared.clients.get slot).clientId =
          ((clientsAfter now ops).shared.clients.get slot').clientId → slot = slot') ∧
      (clientsAfter now ops).handedOut.Nodup ∧
      (clientsAfter now ops).handedOut.length = ops.countP ClientOp.isConnect := by
  have hinit : (⟨stateInit now, []⟩ : ClientRun).shared.nextClientId = 1 := rfl
  obtain ⟨h, hlength⟩ := (accounted_init now).foldl hfds (by omega)
  have hcount : (clientsAfter now ops).handedOut.length = ops.countP ClientOp.isConnect :=
    hlength.trans (Nat.zero_add _)
  have hnext : (clientsAfter now ops).shared.nextClientId =
      (clientsAfter now ops).handedOut.length + 1 := h.next
  refine ⟨h.count, fun slot hslot => h.ids slot (mem_usedSlots.mpr hslot),
    fun slot slot' hslot hslot' heq =>
      h.distinct slot (mem_usedSlots.mpr hslot) slot' (mem_usedSlots.mpr hslot') heq,
    h.nodup_handedOut ?_, hcount⟩
  show (clientsAfter now ops).shared.nextClientId ≤ 2 ^ 31
  omega

/-! ### A connection that registers twice -/

/-- Descriptor 5 registers twice and is closed, 6 registers, and 9 never did. -/
def twiceRegistered : List ClientOp :=
  [.connect 0 5 (lit "10.0.0.1"), .connect 1 5 (lit "10.0.0.1"), .remove 5,
    .connect 2 6 (lit "10.0.0.2"), .remove 9]

/-- The second slot of descriptor 5 stays in use, and is counted. -/
theorem clients_accounted_twice :
    (Finset.univ.filter fun slot =>
        ((clientsAfter 0 twiceRegistered).shared.clients.get slot).fd > 0).card = 2 ∧
      (clientsAfter 0 twiceRegistered).handedOut.Nodup := by
  have hfds : ∀ op ∈ twiceRegistered, 0 < op.fd := by decide
  obtain ⟨hcount, -, -, honce, -⟩ := clients_accounted 0 hfds (by decide)
  refine ⟨hcount.symm.trans ?_, honce⟩
  decide +kernel

/-! ## Rounds of the ordinary interface -/

/-- What an action of the loop does with the table of clients. -/
def PollAction.onClients (now : Int) (fdAddr : Int → CString) (run : ClientRun) :
    PollAction → ClientRun
  | .connect fd => (ClientOp.connect now fd (fdAddr fd)).perform run
  | .remove fd => (ClientOp.remove fd).perform run
  | _ => run

/-- The world of the loop, with the shared state in it: `fdAddr` is `fd_addr_get`. -/
def clientEnv {τ : Type} (env : PollEnv τ) (now : τ → Int) (fdAddr : τ → Int → CString) :
    PollEnv (τ × ClientRun) where
  accept world := ((env.accept world.1).1, (env.accept world.1).2, world.2)
  inetNtop world := env.inetNtop world.1
  addrBlocked world ip := env.addrBlocked world.1 ip
  recvMessage world fd :=
    ((env.recvMessage world.1 fd).1, (env.recvMessage world.1 fd).2, world.2)
  isRegisteredClient world clientId := isRegisteredClient world.2.shared clientId
  calloc world := ((env.calloc world.1).1, (env.calloc world.1).2, world.2)
  perform world action :=
    (env.perform world.1 action, action.onClients (now world.1) (fdAddr world.1) world.2)

section Rounds

variable {τ : Type} {env : PollEnv τ} {now : τ → Int} {fdAddr : τ → Int → CString}

/-- `accept_client` changes no client. -/
theorem acceptClient_clients (world : τ × ClientRun) (nfds : Nat) :
    (acceptClient (clientEnv env now fdAddr) world nfds).1.2 = world.2 := by
  unfold acceptClient
  split
  · next world' haccept => exact (congrArg (fun answer => answer.2.2) haccept).symm
  · next fd world' haccept =>
      have hworld : world'.2 = world.2 := (congrArg (fun answer => answer.2.2) haccept).symm
      split
      · exact hworld
      · split
        · exact hworld
        · split
          · exact hworld
          · exact hworld

/-- What a client sends is one operation on the clients, or none. -/
theorem serveClient_clients (world : τ × ClientRun) (fd : Int) :
    (serveClient (clientEnv env now fdAddr) world fd).1.2 = world.2 ∨
      ∃ op : ClientOp, op.fd = fd ∧
        (serveClient (clientEnv env now fdAddr) world fd).1.2 = op.perform world.2 := by
  unfold serveClient
  split
  · next world' hrecv =>
      have hworld : world'.2 = world.2 := (congrArg (fun answer => answer.2.2) hrecv).symm
      exact Or.inr ⟨.remove fd, rfl, congrArg (fun run => (ClientOp.remove fd).perform run) hworld⟩
  · next h payload world' hrecv =>
      have hworld : world'.2 = world.2 := (congrArg (fun answer => answer.2.2) hrecv).symm
      split
      · refine Or.inr ⟨.connect (now world'.1) fd (fdAddr world'.1 fd), rfl, ?_⟩
        exact congrArg (fun run => (ClientOp.connect _ fd _).perform run) hworld
      · split
        · refine Or.inr ⟨.remove fd, rfl, ?_⟩
          exact congrArg (fun run => (ClientOp.remove fd).perform run) hworld
        · split
          · exact Or.inl hworld
          · split
            · exact Or.inl hworld
            · split
              · next world'' hcalloc =>
                  exact Or.inl ((congrArg (fun answer => answer.2.2) hcalloc).symm.trans hworld)
              · next world'' hcalloc =>
                  exact Or.inl ((congrArg (fun answer => answer.2.2) hcalloc).symm.trans hworld)

/-- So is a ready entry. -/
theorem handleEntry_clients (env : PollEnv τ) (now : τ → Int) (fdAddr : τ → Int → CString)
    (listenFd : Int) (world : τ × ClientRun) (nfds : Nat) (entry : PollFd) :
    (handleEntry (clientEnv env now fdAddr) listenFd world nfds entry).1.2 = world.2 ∨
      ∃ op : ClientOp, op.fd = entry.fd ∧
        (handleEntry (clientEnv env now fdAddr) listenFd world nfds entry).1.2 =
          op.perform world.2 := by
  unfold handleEntry
  by_cases hlisten : entry.fd = listenFd
  · rw [if_pos hlisten]
    exact Or.inl (acceptClient_clients world nfds)
  · rw [if_neg hlisten]
    exact serveClient_clients world entry.fd

/-- The sweep over the entries is a sequence of operations, at most one for each. -/
theorem sweep_clients (env : PollEnv τ) (now : τ → Int) (fdAddr : τ → Int → CString)
    (listenFd : Int) (count : Nat) (world : τ × ClientRun) (entries : List PollFd) :
    ∃ ops : List ClientOp, (∀ op ∈ ops, ∃ entry ∈ entries, op.fd = entry.fd) ∧
      ops.length ≤ entries.length ∧
      (sweep PollFd.ready (handleEntry (clientEnv env now fdAddr) listenFd) count world
        entries).world.2 = ops.foldl ClientOp.perform world.2 := by
  induction entries generalizing count world with
  | nil => exact ⟨[], fun op hop => (by cases hop), Nat.le_refl 0, rfl⟩
  | cons entry entries ih =>
      have hlater : ∀ {ops : List ClientOp}, (∀ op ∈ ops, ∃ entry ∈ entries, op.fd = entry.fd) →
          ∀ op ∈ ops, ∃ other ∈ entry :: entries, op.fd = other.fd := by
        intro ops hops op hop
        obtain ⟨other, hother, hfd⟩ := hops op hop
        exact ⟨other, List.mem_cons_of_mem entry hother, hfd⟩
      -- an entry that is not ready is passed over
      cases hready : entry.ready with
      | false =>
          obtain ⟨ops, hops, hlength, hworld⟩ := ih count world
          refine ⟨ops, hlater hops, Nat.le_succ_of_le hlength, ?_⟩
          rw [sweep_quiet hready]
          exact hworld
      | true =>
          rw [sweep_ready hready]
          obtain ⟨ops, hops, hlength, hworld⟩ := ih _
            (handleEntry (clientEnv env now fdAddr) listenFd world count entry).1
          rcases handleEntry_clients env now fdAddr listenFd world count entry with
            hsame | ⟨op, hfd, hone⟩
          · rw [hsame] at hworld
            exact ⟨ops, hlater hops, Nat.le_succ_of_le hlength, hworld⟩
          · rw [hone] at hworld
            refine ⟨op :: ops, fun op' hop' => ?_, Nat.succ_le_succ hlength, hworld⟩
            rcases List.mem_cons.mp hop' with rfl | hrest
            · exact ⟨entry, List.mem_cons_self, hfd⟩
            · exact hlater hops op' hrest

/-- A round over positive descriptors leaves the clients accounted for, as long as there
are identifiers for all of them. -/
theorem pollRound_clients (env : PollEnv τ) (now : τ → Int) (fdAddr : τ → Int → CString)
    (listenFd : Int) (a : PollArray) {world : τ × ClientRun} (h : world.2.Accounted)
    (hfds : ∀ entry ∈ a.entries, 0 < entry.fd)
    (hfew : world.2.shared.nextClientId + a.nfds ≤ 2 ^ 31)
    {fuel : Nat} (hfuel : (maxFds + 1) * (maxFds + 1) ≤ fuel) :
    ∃ s', pollRound (clientEnv env now fdAddr) listenFd fuel a world = .done s' ∧
      s'.world.2.Accounted := by
  obtain ⟨s', hrun, hends⟩ := pollRound_eq_sweep (clientEnv env now fdAddr) listenFd a world hfuel
  obtain ⟨ops, hops, hlength, hworld⟩ := sweep_clients env now fdAddr listenFd a.nfds
    world a.entries
  refine ⟨s', hrun, ?_⟩
  have hend : s'.world.2 = ops.foldl ClientOp.perform world.2 := by
    rw [hends.world]
    exact hworld
  rw [hend]
  rw [a.length_entries] at hlength
  have hconnects := List.countP_le_length (p := ClientOp.isConnect) (l := ops)
  refine (h.foldl (fun op hop => ?_) (by omega)).1
  obtain ⟨entry, hentry, hfd⟩ := hops op hop
  rw [hfd]
  exact hfds entry hentry

end Rounds

end SqlCodeGenerator
