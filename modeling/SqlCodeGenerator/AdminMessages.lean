import SqlCodeGenerator.AdminReport
import SqlCodeGenerator.Connections

/-!
# Messages of the admin

`handle_admin_message` of `server.c` with `block_addr` and
`parse_client_id_payload`.  It keeps no record of a login: `OP_ADMIN_LOGIN` compares
the token and answers, and every other operation is carried out for whoever asks.
-/

namespace SqlCodeGenerator

open Library

def opAdminLogin : UInt32 := 100
def opAdminReport : UInt32 := 101
def opAdminDisconnect : UInt32 := 102
def opAdminCancel : UInt32 := 103
def opAdminBlock : UInt32 := 104
def opAdminBye : UInt32 := 105

/-! ## The blocklist -/

abbrev maxBlockedAddr : Nat := 32

/-- `g_blocked_addrs` and `g_blocked_count`. -/
abbrev Blocklist := CountedArray (CBuf 64) maxBlockedAddr

/-- `addr_blocked`. -/
def addrBlocked (blocked : Blocklist) (addr : CString) : Bool :=
  blocked.items.any fun entry => decide (entry.chars = addr)

/-- The size of the buffer `result` for the text of `block_addr`. -/
abbrev blockResultSize : Nat := 256

/-- `block_addr`: the list, and the text with the return value 0 (`ok`) or -1
(`error`). -/
def blockAddr (blocked : Blocklist) (addr : Option CString) : Blocklist × Except CString CString :=
  match addr with
  | none => (blocked, .error (lit "missing address"))
  | some [] => (blocked, .error (lit "missing address"))
  | some addr =>
      if addrBlocked blocked addr then
        (blocked, .ok (cut blockResultSize (lit "address already blocked: " ++ addr)))
      else
        match blocked.push? (snprintf addr) with
        | none => (blocked, .error (lit "blocked address list is full"))
        | some blocked => (blocked, .ok (cut blockResultSize (lit "blocked address: " ++ addr)))

/-! ## One message -/

/-- `parse_client_id_payload`.  A number outside `long` is outside the bounds too. -/
def parseClientIdPayload : Option (List UInt8) → Option Int
  | none => none
  | some payload =>
      match strtol (cstr payload) with
      | none => none
      | some (value, rest) =>
          if rest ≠ [] ∨ value ≤ 0 ∨ value > 1000000 then none else some value

/-- What a message reads and changes. -/
structure AdminState where
  shared : SharedState
  blocked : Blocklist
  adminFd : Int
  adminLast : Int

/-- What a message sends, and the descriptor that it shuts down. -/
structure AdminAnswer where
  messages : List Message
  shutdown : Option Int

/-- An answer to the admin only. -/
def AdminAnswer.text (fd : Int) (opId : UInt32) (text : CString) : AdminAnswer :=
  ⟨[respondText fd 0 opId text], none⟩

/-- The size of the buffer `report`. -/
abbrev reportSize : Nat := 65536

/-- `OP_ADMIN_BYE`. -/
def adminBye (fd : Int) (a : AdminState) : AdminState × AdminAnswer :=
  ({ a with adminFd := -1, shared := { a.shared with adminConnected := false } },
    .text fd opOk (lit "admin disconnected"))

/-- Is it the right token? -/
def isAdminToken : Option (List UInt8) → Bool
  | none => false
  | some payload => cstr payload = lit "admin"

/-- `OP_ADMIN_LOGIN`. -/
def adminLogin (fd : Int) (payload : Option (List UInt8)) (a : AdminState) :
    AdminState × AdminAnswer :=
  (a, if isAdminToken payload then .text fd opOk (lit "OK: admin logged in")
    else .text fd opError (lit "invalid admin token"))

/-- The text that a request for a report is answered with. -/
def reportText (now : Int) (state : SharedState) (payload : Option (List UInt8)) : CString :=
  adminReport now state (cstr (payload.getD [])) reportSize

/-- `OP_ADMIN_DISCONNECT`. -/
def adminDisconnect (fd : Int) (payload : Option (List UInt8)) (a : AdminState) :
    AdminState × AdminAnswer :=
  match parseClientIdPayload payload with
  | none => (a, .text fd opError (lit "invalid client id"))
  | some clientId =>
      let clientFd := clientFdById a.shared clientId
      if clientFd < 0 then
        (a, .text fd opError (lit "client not connected"))
      else
        ({ a with shared := historyAdd a.shared (lit "admin disconnected client") },
          ⟨[respondText clientFd (UInt32.ofNat clientId.toNat) opError
              (lit "disconnected by admin"),
            respondText fd 0 opOk (lit "client disconnected")], some clientFd⟩)

/-- The client that a cancellation is accepted for. -/
def cancelAccepted (state : SharedState) (payload : Option (List UInt8)) : Option Int :=
  (parseClientIdPayload payload).filter fun clientId =>
    decide (state.activeClientId = clientId) || hasClientFd state clientId

/-- `OP_ADMIN_CANCEL`. -/
def adminCancelMessage (fd : Int) (payload : Option (List UInt8)) (a : AdminState) :
    AdminState × AdminAnswer :=
  match parseClientIdPayload payload with
  | none => (a, .text fd opError (lit "invalid client id"))
  | some clientId =>
      ({ a with shared := adminCancel clientId a.shared },
        if a.shared.activeClientId = clientId ∨ hasClientFd a.shared clientId then
          .text fd opOk (lit "cancel requested")
        else
          .text fd opError (lit "client not connected"))

/-- `OP_ADMIN_BLOCK`. -/
def adminBlock (fd : Int) (payload : Option (List UInt8)) (a : AdminState) :
    AdminState × AdminAnswer :=
  match blockAddr a.blocked (payload.map cstr) with
  | (blocked, .ok text) =>
      ({ a with blocked := blocked, shared := historyAdd a.shared (lit "admin blocked address") },
        .text fd opOk text)
  | (blocked, .error text) => ({ a with blocked := blocked }, .text fd opError text)

/-- The operation of a message. -/
def adminOperation (now fd : Int) (opId : UInt32) (payload : Option (List UInt8))
    (a : AdminState) : AdminState × AdminAnswer :=
  if opId = opAdminBye then
    adminBye fd a
  else if opId = opAdminLogin then
    adminLogin fd payload a
  else if opId = opAdminReport then
    (a, .text fd opOk (reportText now a.shared payload))
  else if opId = opAdminDisconnect then
    adminDisconnect fd payload a
  else if opId = opAdminCancel then
    adminCancelMessage fd payload a
  else if opId = opAdminBlock then
    adminBlock fd payload a
  else
    (a, .text fd opError (lit "unknown admin operation"))

/-- `handle_admin_message`. -/
def handleAdminMessage (now fd : Int) (opId : UInt32) (payload : Option (List UInt8))
    (a : AdminState) : AdminState × AdminAnswer :=
  adminOperation now fd opId payload { a with adminLast := now }

/-! ## What a message does -/

/-- No address is given, or it is listed already, or the list is full. -/
def NothingToBlock (blocked : Blocklist) (addr : Option CString) : Prop :=
  addr.getD [] = [] ∨ (∃ listed ∈ addr, addrBlocked blocked listed = true) ∨
    maxBlockedAddr ≤ blocked.count

/-- A message is none of the operations that need a login, or names no client that is
connected or active, or there is nothing to block. -/
def Unprivileged (state : SharedState) (blocked : Blocklist) (opId : UInt32)
    (payload : Option (List UInt8)) : Prop :=
  opId ≠ opAdminReport ∧
    (opId = opAdminDisconnect → ∀ clientId, parseClientIdPayload payload = some clientId →
      clientFdById state clientId < 0) ∧
    (opId = opAdminCancel → ∀ clientId, parseClientIdPayload payload = some clientId →
      state.activeClientId ≠ clientId ∧ hasClientFd state clientId = false) ∧
    (opId = opAdminBlock → NothingToBlock blocked (payload.map cstr))

/-- The results that a message can have. -/
inductive MessageSpec (now fd : Int) (opId : UInt32) (payload : Option (List UInt8))
    (a : AdminState) : AdminState × AdminAnswer → Prop where
  | bye (hop : opId = opAdminBye) : MessageSpec now fd opId payload a (adminBye fd a)
  | login (hop : opId = opAdminLogin) (htoken : isAdminToken payload = true) :
      MessageSpec now fd opId payload a (a, .text fd opOk (lit "OK: admin logged in"))
  | report (hop : opId = opAdminReport) :
      MessageSpec now fd opId payload a (a, .text fd opOk (reportText now a.shared payload))
  | disconnect (clientId : Int) (hop : opId = opAdminDisconnect)
      (hparse : parseClientIdPayload payload = some clientId)
      (hconnected : 0 ≤ clientFdById a.shared clientId) :
      MessageSpec now fd opId payload a
        ({ a with shared := historyAdd a.shared (lit "admin disconnected client") },
          ⟨[respondText (clientFdById a.shared clientId) (UInt32.ofNat clientId.toNat) opError
              (lit "disconnected by admin"),
            respondText fd 0 opOk (lit "client disconnected")],
            some (clientFdById a.shared clientId)⟩)
  | cancel (clientId : Int) (hop : opId = opAdminCancel)
      (haccepted : cancelAccepted a.shared payload = some clientId) :
      MessageSpec now fd opId payload a
        ({ a with
            shared := historyAdd { a.shared with cancelClientId := clientId }
              (lit "admin requested command cancel") },
          .text fd opOk (lit "cancel requested"))
  | block (blocked : Blocklist) (text : CString) (hop : opId = opAdminBlock)
      (hblock : blockAddr a.blocked (payload.map cstr) = (blocked, .ok text)) :
      MessageSpec now fd opId payload a
        ({ a with
            blocked := blocked
            shared := historyAdd a.shared (lit "admin blocked address") },
          .text fd opOk text)
  | refuse (text : CString) (hop : opId ≠ opAdminBye)
      (hunprivileged : Unprivileged a.shared a.blocked opId payload)
      (hlogin : opId = opAdminLogin → isAdminToken payload = false) :
      MessageSpec now fd opId payload a (a, .text fd opError text)

/-- The list stays as it is exactly if there is nothing to block. -/
theorem blockAddr_fst_eq_iff {blocked : Blocklist} {addr : Option CString} :
    (blockAddr blocked addr).1 = blocked ↔ NothingToBlock blocked addr := by
  unfold NothingToBlock
  cases addr with
  | none => exact iff_of_true rfl (Or.inl rfl)
  | some addr =>
      cases addr with
      | nil => exact iff_of_true rfl (Or.inl rfl)
      | cons c rest =>
          have hsome : (some (c :: rest)).getD [] ≠ [] := List.cons_ne_nil _ _
          rw [or_iff_right hsome]
          unfold blockAddr
          dsimp only
          by_cases hlisted : addrBlocked blocked (c :: rest) = true
          · rw [if_pos hlisted]
            exact iff_of_true rfl (Or.inl ⟨_, rfl, hlisted⟩)
          · have hnot : ¬ ∃ listed ∈ some (c :: rest), addrBlocked blocked listed = true := by
              rintro ⟨listed, hmem, h⟩
              obtain rfl := Option.some.inj hmem
              exact hlisted h
            rw [if_neg hlisted, or_iff_right hnot, ← CountedArray.push?_eq_none_iff]
            cases hpush : blocked.push? (snprintf (c :: rest)) with
            | none => exact iff_of_true rfl rfl
            | some longer =>
                refine iff_of_false (fun hsame => ?_) (by simp)
                have hitems := (CountedArray.push?_eq_some_iff.mp hpush).2
                have hlength := congrArg (fun a : Blocklist => a.items.length) hsame
                simp [hitems] at hlength

/-- An address that is refused leaves the list as it is. -/
theorem blockAddr_error {blocked blocked' : Blocklist} {addr : Option CString} {text : CString}
    (h : blockAddr blocked addr = (blocked', .error text)) : blocked' = blocked := by
  unfold blockAddr at h
  split at h
  · exact (congrArg Prod.fst h).symm
  · exact (congrArg Prod.fst h).symm
  · split at h
    · cases congrArg Prod.snd h
    · split at h
      · exact (congrArg Prod.fst h).symm
      · cases congrArg Prod.snd h

/-- The client of an accepted cancellation. -/
theorem cancelAccepted_eq_some_iff {state : SharedState} {payload : Option (List UInt8)}
    {clientId : Int} :
    cancelAccepted state payload = some clientId ↔
      parseClientIdPayload payload = some clientId ∧
        (state.activeClientId = clientId ∨ hasClientFd state clientId = true) := by
  unfold cancelAccepted
  rw [Option.filter_eq_some_iff, Bool.or_eq_true, decide_eq_true_eq]

theorem cancelAccepted_eq_none_iff {state : SharedState} {payload : Option (List UInt8)} :
    cancelAccepted state payload = none ↔
      ∀ clientId, parseClientIdPayload payload = some clientId →
        state.activeClientId ≠ clientId ∧ hasClientFd state clientId = false := by
  unfold cancelAccepted
  simp only [Option.filter_eq_none_iff, Bool.or_eq_true, decide_eq_true_eq, not_or,
    Bool.not_eq_true]

/-- A message that is none of the operations. -/
theorem unprivileged_of_ne {state : SharedState} {blocked : Blocklist} {opId : UInt32}
    {payload : Option (List UInt8)} (hreport : opId ≠ opAdminReport)
    (hdisconnect : opId ≠ opAdminDisconnect) (hcancel : opId ≠ opAdminCancel)
    (hblock : opId ≠ opAdminBlock) : Unprivileged state blocked opId payload :=
  ⟨hreport, fun h => absurd h hdisconnect, fun h => absurd h hcancel, fun h => absurd h hblock⟩

theorem adminDisconnect_spec (now fd : Int) (payload : Option (List UInt8)) (a : AdminState) :
    MessageSpec now fd opAdminDisconnect payload a (adminDisconnect fd payload a) := by
  have hrefuse : (∀ clientId, parseClientIdPayload payload = some clientId →
      clientFdById a.shared clientId < 0) → ∀ text,
      MessageSpec now fd opAdminDisconnect payload a (a, .text fd opError text) := by
    intro hnone text
    have hunprivileged : Unprivileged a.shared a.blocked opAdminDisconnect payload :=
      ⟨by decide, fun _ => hnone, fun h => absurd h (by decide), fun h => absurd h (by decide)⟩
    exact .refuse text (by decide) hunprivileged fun h => absurd h (by decide)
  unfold adminDisconnect
  split
  · next hparse => exact hrefuse (fun _ h => by rw [hparse] at h; cases h) _
  · next clientId hparse =>
      by_cases hconnected : clientFdById a.shared clientId < 0
      · simp only [if_pos hconnected]
        refine hrefuse (fun other h => ?_) _
        obtain rfl := Option.some.inj (hparse.symm.trans h)
        exact hconnected
      · simp only [if_neg hconnected]
        exact .disconnect clientId rfl hparse (Int.not_lt.mp hconnected)

theorem adminCancel_spec (now fd : Int) (payload : Option (List UInt8)) (a : AdminState) :
    MessageSpec now fd opAdminCancel payload a (adminCancelMessage fd payload a) := by
  have hrefuse : (∀ clientId, parseClientIdPayload payload = some clientId →
      a.shared.activeClientId ≠ clientId ∧ hasClientFd a.shared clientId = false) → ∀ text,
      MessageSpec now fd opAdminCancel payload a (a, .text fd opError text) := by
    intro hnone text
    have hunprivileged : Unprivileged a.shared a.blocked opAdminCancel payload :=
      ⟨by decide, fun h => absurd h (by decide), fun _ => hnone, fun h => absurd h (by decide)⟩
    exact .refuse text (by decide) hunprivileged fun h => absurd h (by decide)
  unfold adminCancelMessage
  split
  · next hparse => exact hrefuse (fun _ h => by rw [hparse] at h; cases h) _
  · next clientId hparse =>
      by_cases haccept : a.shared.activeClientId = clientId ∨ hasClientFd a.shared clientId = true
      · rw [if_pos haccept, adminCancel, if_pos haccept]
        exact .cancel clientId rfl (cancelAccepted_eq_some_iff.mpr ⟨hparse, haccept⟩)
      · rw [if_neg haccept, adminCancel, if_neg haccept]
        refine hrefuse (fun other h => ?_) _
        obtain rfl := Option.some.inj (hparse.symm.trans h)
        obtain ⟨hactive, hconnected⟩ := not_or.mp haccept
        exact ⟨hactive, Bool.eq_false_iff.mpr hconnected⟩

theorem adminBlock_spec (now fd : Int) (payload : Option (List UInt8)) (a : AdminState) :
    MessageSpec now fd opAdminBlock payload a (adminBlock fd payload a) := by
  unfold adminBlock
  split
  · next blocked text hblock => exact .block blocked text rfl hblock
  · next blocked text hblock =>
      obtain rfl := blockAddr_error hblock
      have hunprivileged : Unprivileged a.shared a.blocked opAdminBlock payload :=
        ⟨by decide, fun h => absurd h (by decide), fun h => absurd h (by decide),
          fun _ => blockAddr_fst_eq_iff.mp (by rw [hblock])⟩
      exact .refuse text (by decide) hunprivileged fun h => absurd h (by decide)

/-- What a message does, said once for each kind of result. -/
theorem adminOperation_spec (now fd : Int) (opId : UInt32) (payload : Option (List UInt8))
    (a : AdminState) :
    MessageSpec now fd opId payload a (adminOperation now fd opId payload a) := by
  unfold adminOperation
  split
  · next hop => exact .bye hop
  split
  · next hop =>
      subst hop
      have hunprivileged : Unprivileged a.shared a.blocked opAdminLogin payload :=
        unprivileged_of_ne (by decide) (by decide) (by decide) (by decide)
      unfold adminLogin
      cases htoken : isAdminToken payload with
      | true => exact .login rfl htoken
      | false => exact .refuse _ (by decide) hunprivileged fun _ => htoken
  · next hbye hlogin =>
      split
      · next hop => exact .report hop
      split
      · next hop => exact hop ▸ adminDisconnect_spec now fd payload a
      split
      · next hop => exact hop ▸ adminCancel_spec now fd payload a
      split
      · next hop => exact hop ▸ adminBlock_spec now fd payload a
      · next hreport hdisconnect hcancel hblock =>
          exact .refuse _ hbye (unprivileged_of_ne hreport hdisconnect hcancel hblock)
            fun h => absurd h hlogin

end SqlCodeGenerator
