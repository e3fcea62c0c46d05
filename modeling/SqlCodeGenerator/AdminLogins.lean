import SqlCodeGenerator.AdminInterface

/-!
# Admin logins

`OP_ADMIN_LOGIN` is the authentication of the admin interface.  Its handler compares
the token and answers; no later message depends on the answer.

* `LoginLaw`: what a connection that has not logged in must not get and must not change.
* `handleMessage_withholds_iff`: a message keeps the law exactly if it asks for nothing.
* `logins_required_iff`: the law holds along a run exactly if every connection asks for
  nothing before it has logged in.
-/

namespace SqlCodeGenerator

open Library

/-! ## Reports and other answers -/

/-- The first two characters of a report. -/
def reportStarts : List CString :=
  [lit "Co", lit "To", lit "Av", lit "Re", lit "Ta", lit "Or", lit "Un"]

/-- Every category begins with its own words. -/
theorem adminReport_take (now : Int) (state : SharedState) (category : CString) :
    (adminReport now state category reportSize).take 2 ∈ reportStarts := by
  have hstart : ∀ first rest, (appendLines reportSize (first :: rest)).take 2 =
      (first ++ rest.flatten).take 2 := by
    intro first rest
    rw [appendLines_eq, List.take_take, List.flatten_cons]
    rfl
  have hlist : ∀ start ∈ reportStarts, ∀ text, text = start → text ∈ reportStarts :=
    fun _ hstart _ htext => htext ▸ hstart
  unfold adminReport
  split
  · exact hlist (lit "Co") (by decide) _ (hstart _ _)
  split
  · exact hlist (lit "To") (by decide) _ (hstart _ _)
  split
  · exact hlist (lit "Av") (by decide) _ (hstart _ _)
  split
  · exact hlist (lit "Re") (by decide) _ (hstart _ _)
  split
  · exact hlist (lit "Ta") (by decide) _ (hstart _ _)
  split
  · exact hlist (lit "Or") (by decide) _ (hstart _ _)
  split
  · exact hlist (lit "Re") (by decide) _ (hstart _ _)
  · exact hlist (lit "Un") (by decide) _ (hstart _ _)

/-- A report, of some moment. -/
def Message.IsReport (m : Message) : Prop :=
  m.opId = opOk ∧ ∃ now state category,
    m.payload = (adminReport now state category reportSize).map Subtype.val

/-- The answer that a cancellation is set. -/
def Message.ConfirmsCancel (m : Message) : Prop :=
  m.opId = opOk ∧ m.payload = (lit "cancel requested").map Subtype.val

/-- An answer of neither kind. -/
def Message.Plain (m : Message) : Prop := ¬ m.IsReport ∧ ¬ m.ConfirmsCancel

theorem plain_error (fd : Int) (clientId : UInt32) (text : CString) :
    (respondText fd clientId opError text).Plain :=
  ⟨fun h => absurd h.1 (by decide : ¬ opError = opOk),
    fun h => absurd h.1 (by decide : ¬ opError = opOk)⟩

/-- A text that begins like no report and like no confirmation. -/
theorem plain_of_take {fd : Int} {opId : UInt32} {text start : CString} (h : text.take 2 = start)
    (hreport : start ∉ reportStarts) (hcancel : start ≠ lit "ca") :
    (respondText fd 0 opId text).Plain := by
  have hval : ∀ {a b : CString}, a.map Subtype.val = b.map Subtype.val → a = b :=
    fun heq => List.map_injective_iff.mpr Subtype.val_injective heq
  constructor
  · rintro ⟨-, now, state, category, htext⟩
    rw [← h, hval htext] at hreport
    exact hreport (adminReport_take now state category)
  · rintro ⟨-, htext⟩
    rw [← h, hval htext] at hcancel
    exact hcancel (by decide)

/-! ## The law -/

/-- Was the right token given, on the connection of the admin? -/
def recordLogin (s : Service) (e : ServiceEvent) (loggedIn : Bool) : Bool :=
  match e with
  -- a second connection is refused, and the admin stays
  | .accept _ _ => loggedIn && decide (s.adminFd > 0)
  | .receive _ opId payload =>
      loggedIn || (decide (opId = opAdminLogin) && isAdminToken (received payload))
  | _ => loggedIn

/-- A step of the service beside the login. -/
def loginStep (cfg : AdminConfig) : Service × Bool → ServiceEvent → Option (Service × Bool) :=
  withHistory (ServiceEvent.step cfg) recordLogin

/-- No report and no confirmation is sent, nobody is shut down, and the clients, the
cancellation and the blocklist are as they were. -/
structure Service.Withholds (s s' : Service) : Prop where
  sent : ∃ messages, s'.sent = s.sent ++ messages ∧ ∀ m ∈ messages, m.Plain
  shutDown : s'.shutDown = s.shutDown
  clients : s'.server.shared.clients = s.server.shared.clients
  cancelClientId : s'.server.shared.cancelClientId = s.server.shared.cancelClientId
  blocked : s'.blocked = s.blocked

/-- A message that is handled on a connection that has not logged in. -/
def Unauthenticated (cfg : AdminConfig) (t : Service × Bool) (e : ServiceEvent)
    (P : Int → Int → UInt32 → List UInt8 → Prop) : Prop :=
  ∀ now opId payload i entry, e = .receive now opId payload →
    t.1.atEntry cfg false = .ok (i, entry) → t.2 = false → P now entry.fd opId payload

/-- What a connection that has not logged in sends is withheld from it. -/
def LoginLaw (cfg : AdminConfig) (t : Service × Bool) (e : ServiceEvent) : Prop :=
  Unauthenticated cfg t e fun now fd opId payload =>
    t.1.Withholds (t.1.handleMessage now fd opId payload)

/-- A connection that has not logged in asks for no report, names no client that is
connected or active, and gives no address that the list would take. -/
def AsksForNothing (cfg : AdminConfig) (t : Service × Bool) (e : ServiceEvent) : Prop :=
  Unauthenticated cfg t e fun _ _ opId payload =>
    Unprivileged t.1.server.shared t.1.blocked opId (received payload)

/-! ## Messages -/

/-- The answer to a block that is accepted. -/
theorem blockAddr_take {blocked blocked' : Blocklist} {addr : Option CString} {text : CString}
    (h : blockAddr blocked addr = (blocked', .ok text)) :
    text.take 2 = lit "ad" ∨ text.take 2 = lit "bl" := by
  unfold blockAddr at h
  split at h
  · cases congrArg Prod.snd h
  · cases congrArg Prod.snd h
  · split at h
    · obtain rfl := Except.ok.inj (congrArg Prod.snd h)
      exact Or.inl rfl
    · split at h
      · cases congrArg Prod.snd h
      · obtain rfl := Except.ok.inj (congrArg Prod.snd h)
        exact Or.inr rfl

/-- The answers to what is not withheld from anybody. -/
theorem plain_block {blocked blocked' : Blocklist} {addr : Option CString} {text : CString}
    {fd : Int} (h : blockAddr blocked addr = (blocked', .ok text)) :
    (respondText fd 0 opOk text).Plain := by
  rcases blockAddr_take h with htake | htake
  · exact plain_of_take htake (by decide) (by decide)
  · exact plain_of_take htake (by decide) (by decide)

/-- A message is answered like any other exactly if it asks for nothing. -/
theorem Service.handleMessage_withholds_iff (s : Service) (now fd : Int) (opId : UInt32)
    (payload : List UInt8) :
    s.Withholds (s.handleMessage now fd opId payload) ↔
      Unprivileged s.server.shared s.blocked opId (received payload) := by
  have hspec := adminOperation_spec now fd opId (received payload)
    ⟨s.server.shared, s.blocked, s.adminFd, now⟩
  unfold handleMessage handleAdminMessage
  generalize adminOperation now fd opId (received payload)
    ⟨s.server.shared, s.blocked, s.adminFd, now⟩ = result at hspec
  -- one answer, and nobody is shut down
  have hone : ∀ {s' : Service} {m : Message}, m.Plain → s'.sent = s.sent ++ [m] →
      ∃ messages, s'.sent = s.sent ++ messages ∧ ∀ m ∈ messages, m.Plain := by
    intro s' m hplain hsent
    refine ⟨[m], hsent, fun m' hm' => ?_⟩
    rw [List.mem_singleton.mp hm']
    exact hplain
  cases hspec with
  | bye hop =>
      have hplain : (respondText fd 0 opOk (lit "admin disconnected")).Plain :=
        plain_of_take (show _ = lit "ad" from rfl) (by decide) (by decide)
      exact iff_of_true ⟨hone hplain rfl, List.append_nil _, rfl, rfl, rfl⟩
        (hop ▸ unprivileged_of_ne (by decide) (by decide) (by decide) (by decide))
  | login hop htoken =>
      have hplain : (respondText fd 0 opOk (lit "OK: admin logged in")).Plain :=
        plain_of_take (show _ = lit "OK" from rfl) (by decide) (by decide)
      exact iff_of_true ⟨hone hplain rfl, List.append_nil _, rfl, rfl, rfl⟩
        (hop ▸ unprivileged_of_ne (by decide) (by decide) (by decide) (by decide))
  | report hop =>
      refine iff_of_false (fun h => ?_) fun h => h.1 hop
      obtain ⟨messages, hsent, hplain⟩ := h.sent
      obtain rfl := List.append_cancel_left hsent
      exact (hplain _ (List.mem_singleton_self _)).1 ⟨rfl, now, _, _, rfl⟩
  | disconnect clientId hop hparse hconnected =>
      refine iff_of_false (fun h => ?_) fun h => ?_
      · have hlength := congrArg List.length h.shutDown
        simp at hlength
      · exact absurd (h.2.1 hop clientId hparse) (Int.not_lt.mpr hconnected)
  | cancel clientId hop haccepted =>
      refine iff_of_false (fun h => ?_) fun h => ?_
      · obtain ⟨messages, hsent, hplain⟩ := h.sent
        obtain rfl := List.append_cancel_left hsent
        exact (hplain _ (List.mem_singleton_self _)).2 ⟨rfl, rfl⟩
      · obtain ⟨hparse, haccept⟩ := cancelAccepted_eq_some_iff.mp haccepted
        obtain ⟨hactive, hconnected⟩ := h.2.2.1 hop clientId hparse
        rcases haccept with hsame | hfound
        · exact hactive hsame
        · exact absurd (hconnected.symm.trans hfound) Bool.false_ne_true
  | block blocked text hop hblock =>
      have hunprivileged : Unprivileged s.server.shared s.blocked opId (received payload) ↔
          blocked = s.blocked := by
        subst hop
        have hlist : blocked = s.blocked ↔
            NothingToBlock s.blocked ((received payload).map cstr) := by
          rw [← blockAddr_fst_eq_iff, hblock]
        rw [hlist]
        constructor
        · exact fun h => h.2.2.2 rfl
        · exact fun h => ⟨by decide, fun h => absurd h (by decide), fun h => absurd h (by decide),
            fun _ => h⟩
      rw [hunprivileged]
      exact ⟨fun h => h.blocked,
        fun h => ⟨hone (plain_block hblock) rfl, List.append_nil _, rfl, rfl, h⟩⟩
  | refuse text hop hunprivileged hlogin =>
      exact iff_of_true ⟨hone (plain_error fd 0 text) rfl, List.append_nil _, rfl, rfl, rfl⟩
        hunprivileged

/-- Along a run nothing is granted to a connection that has not logged in, exactly if no
such connection asks for anything that would be granted. -/
theorem logins_required_iff (cfg : AdminConfig) (now : Int) (events : List ServiceEvent) :
    EveryStep (loginStep cfg) (LoginLaw cfg) (.init cfg now, false) events ↔
      EveryStep (loginStep cfg) (AsksForNothing cfg) (.init cfg now, false) events := by
  refine everyStep_congr fun t e => ?_
  refine forall_congr' fun now => forall_congr' fun opId => forall_congr' fun payload =>
    forall_congr' fun i => forall_congr' fun entry => imp_congr_right fun _ =>
      imp_congr_right fun _ => imp_congr_right fun _ => ?_
  exact t.1.handleMessage_withholds_iff now entry.fd opId payload

/-! ## An admin that never logs in -/

/-- The admin connects, and its first message is ready. -/
def firstMessageEvents : List ServiceEvent :=
  [.poll 0 (fun k => decide (k.val = 0)), .accept 0 (some 5), .next, .next,
    .poll 0 fun k => decide (k.val = 1), .next]

/-- It asks for a report. -/
def reportRequest : ServiceEvent := .receive 0 opAdminReport []

theorem firstMessage_run :
    (runFrom (loginStep ⟨3, 60⟩) (.init ⟨3, 60⟩ 0, false) firstMessageEvents).map (fun t =>
      decide (t.2 = false ∧ t.1.atEntry ⟨3, 60⟩ false = .ok (1, ⟨5, true⟩))) = some true := by
  decide +kernel

/-- The report is returned without a login. -/
theorem report_withoutLogin :
    ¬ EveryStep (loginStep ⟨3, 60⟩) (LoginLaw ⟨3, 60⟩) (.init ⟨3, 60⟩ 0, false)
      (firstMessageEvents ++ [reportRequest]) := by
  intro hlaw
  obtain ⟨t, hrun, hfacts⟩ := Option.map_eq_some_iff.mp firstMessage_run
  obtain ⟨hlogin, hentry⟩ := of_decide_eq_true hfacts
  have hwithheld := everyStep_iff.mp hlaw firstMessageEvents reportRequest [] t rfl hrun 0
    opAdminReport [] 1 ⟨5, true⟩ rfl hentry hlogin
  exact ((t.1.handleMessage_withholds_iff 0 5 opAdminReport []).mp hwithheld).1 rfl

end SqlCodeGenerator
