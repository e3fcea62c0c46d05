import SqlCodeGenerator.Requests

/-!
# What the worker changes and sends

The parts of `process_request` said by their effects.  An operation changes the
tables, the history and three counters; the beginning and the end of a request
change the record of its job, the activity of its client and the statistics.

All messages of a request go to its descriptor under its client, and exactly one
of them, the last, is a terminal reply.
-/

namespace SqlCodeGenerator

/-! ## The state -/

/-- An INSERT that is applied changes the tables only. -/
theorem insertVerdict_after {env : RequestEnv} {r : Request} {state after : SharedState}
    {err : CString} (h : insertVerdict env r state = some (.applied err after)) :
    ∃ tables, after = { state with tables := tables } := by
  unfold insertVerdict at h
  split at h
  · cases h
  · split at h
    · cases h
    · cases h
    · split at h
      · cases h
      · cases h
      · next applied happlied =>
          obtain ⟨after', hafter, hverdict⟩ := Option.map_eq_some_iff.mp h
          obtain ⟨-, rfl⟩ := InsertVerdict.applied.inj hverdict
          unfold applyInsertBatch at happlied
          obtain ⟨batch, -, hok⟩ := Library.Outcome.bind_eq_ok_iff.mp happlied
          obtain rfl := Library.Outcome.ok.inj hok
          obtain ⟨tables, -, rfl⟩ := Option.map_eq_some_iff.mp hafter
          exact ⟨tables, rfl⟩

/-- What an operation can change. -/
def OperationEffect (state state' : SharedState) : Prop :=
  ∃ insertCommands cancelledCommands cancelClientId history historyCount tables,
    state' = { state with
      insertCommands := insertCommands
      cancelledCommands := cancelledCommands
      cancelClientId := cancelClientId
      history := history
      historyCount := historyCount
      tables := tables }

theorem handleUploadEnd_effect (env : RequestEnv) (state : SharedState) :
    OperationEffect state (handleUploadEnd env state).1 := by
  obtain ⟨tables, hload⟩ := loadErJson_frame env.cjsonParse state env.uploadFile
  unfold handleUploadEnd
  split <;>
    · next hresult =>
        rw [hresult] at hload
        obtain rfl := hload
        exact ⟨_, _, _, _, _, _, rfl⟩

theorem handleDownloadSql_effect (env : RequestEnv) (r : Request) (state : SharedState) :
    OperationEffect state (handleDownloadSql env r state).1 := by
  unfold handleDownloadSql
  split
  · exact ⟨_, _, _, _, _, _, rfl⟩
  · exact ⟨_, _, _, _, _, _, rfl⟩

theorem handleValidateInsert_effect {env : RequestEnv} {r : Request} {state state' : SharedState}
    {h : Handled} (hhandle : handleValidateInsert env r state = some (state', h)) :
    OperationEffect state state' := by
  unfold handleValidateInsert at hhandle
  obtain ⟨verdict, hverdict, hresult⟩ := Option.map_eq_some_iff.mp hhandle
  cases verdict with
  | empty =>
      obtain ⟨rfl, -⟩ := Prod.mk.inj hresult
      exact ⟨_, _, _, _, _, _, rfl⟩
  | rejected err =>
      obtain ⟨rfl, -⟩ := Prod.mk.inj hresult
      exact ⟨_, _, _, _, _, _, rfl⟩
  | applyFailed err =>
      obtain ⟨rfl, -⟩ := Prod.mk.inj hresult
      exact ⟨_, _, _, _, _, _, rfl⟩
  | applied err after =>
      obtain ⟨rfl, -⟩ := Prod.mk.inj hresult
      obtain ⟨tables, rfl⟩ := insertVerdict_after hverdict
      exact ⟨_, _, _, _, _, _, rfl⟩

/-- Whatever the operation, it changes nothing else. -/
theorem dispatchRequest_effect {env : RequestEnv} {r : Request} {state state' : SharedState}
    {h : Handled} (hhandle : dispatchRequest env r state = some (state', h)) :
    OperationEffect state state' := by
  unfold dispatchRequest at hhandle
  -- the branches in the order of the dispatch
  split at hhandle
  · obtain ⟨rfl, -⟩ := Prod.mk.inj (Option.some.inj hhandle)
    exact ⟨_, _, _, _, _, _, rfl⟩
  split at hhandle
  · obtain ⟨rfl, -⟩ := Prod.mk.inj (Option.some.inj hhandle)
    exact ⟨_, _, _, _, _, _, rfl⟩
  split at hhandle
  · obtain ⟨rfl, -⟩ := Prod.mk.inj (Option.some.inj hhandle)
    exact handleUploadEnd_effect env state
  split at hhandle
  · obtain ⟨rfl, -⟩ := Prod.mk.inj (Option.some.inj hhandle)
    exact ⟨_, _, _, _, _, _, rfl⟩
  split at hhandle
  · obtain ⟨rfl, -⟩ := Prod.mk.inj (Option.some.inj hhandle)
    exact handleDownloadSql_effect env r state
  split at hhandle
  · exact handleValidateInsert_effect hhandle
  · obtain ⟨rfl, -⟩ := Prod.mk.inj (Option.some.inj hhandle)
    exact ⟨_, _, _, _, _, _, rfl⟩

theorem handleCancelled_effect (state : SharedState) :
    OperationEffect state (handleCancelled state).1 := ⟨_, _, _, _, _, _, rfl⟩

/-- A request that is cancelled or performed changes nothing else. -/
theorem handleRequest_effect {env : RequestEnv} {r : Request} {state state' : SharedState}
    {h : Handled} (hhandle : handleRequest env r state = some (state', h)) :
    OperationEffect state state' := by
  unfold handleRequest at hhandle
  split at hhandle
  · obtain ⟨rfl, -⟩ := Prod.mk.inj (Option.some.inj hhandle)
    exact handleCancelled_effect state
  · exact dispatchRequest_effect hhandle

/-! ## The messages -/

/-- `OP_OK`, `OP_ERROR` or `OP_DOWNLOAD_END`. -/
def Message.terminal (m : Message) : Bool :=
  m.opId = opOk || m.opId = opError || m.opId = opDownloadEnd

/-- Messages for the sender of a request of which the last is terminal, and only
the last. -/
structure Answers (r : Request) (messages : List Message) : Prop where
  addressed : ∀ m ∈ messages, m.fd = r.fd ∧ m.clientId = r.clientId
  terminal : ∃ before last, messages = before ++ [last] ∧ last.terminal = true ∧
    ∀ m ∈ before, m.terminal = false

/-- All that is sent for a request. -/
def Handled.sent (h : Handled) (r : Request) : List Message := h.messages ++ h.reply r

/-- A reply by `respond_text`, behind messages that are not terminal. -/
theorem answers_reply {r : Request} {h : Handled} (hsent : h.responseSent = false)
    (hop : h.respOp = opOk ∨ h.respOp = opError)
    (hmessages : ∀ m ∈ h.messages, (m.fd = r.fd ∧ m.clientId = r.clientId) ∧ m.terminal = false) :
    Answers r (h.sent r) := by
  have hreply : h.reply r = [respondText r.fd r.clientId h.respOp (wireText r h.response)] := by
    unfold Handled.reply
    rw [hsent]
    rfl
  unfold Handled.sent
  rw [hreply]
  refine ⟨fun m hm => ?_, _, _, rfl, ?_, fun m hm => (hmessages m hm).2⟩
  · rcases List.mem_append.mp hm with hm | hm
    · exact (hmessages m hm).1
    · obtain rfl := List.mem_singleton.mp hm
      exact ⟨rfl, rfl⟩
  · rcases hop with hop | hop <;> simp [Message.terminal, respondText, hop]

/-- A chunk holds what one `read` has returned. -/
theorem mem_sendRounds {r : Request} {rounds : List ReadRound} {m : Message}
    (h : m ∈ (sendRounds r rounds).1) :
    ∃ data sent, .bytes data sent ∈ rounds ∧ m = ⟨r.fd, r.clientId, opDownloadChunk, data⟩ := by
  induction rounds with
  | nil => cases h
  | cons round rounds ih =>
      cases round with
      | interrupted =>
          obtain ⟨data, sent, hmem, hm⟩ := ih h
          exact ⟨data, sent, List.mem_cons_of_mem _ hmem, hm⟩
      | failed reason => cases h
      | bytes data sent =>
          cases sent with
          | false => cases h
          | true =>
              rcases List.mem_cons.mp h with hhead | hrest
              · exact ⟨data, true, List.mem_cons_self, hhead⟩
              · obtain ⟨data', sent', hmem, hm⟩ := ih hrest
                exact ⟨data', sent', List.mem_cons_of_mem _ hmem, hm⟩

/-- The chunks of a download are not terminal. -/
theorem sendRounds_messages (r : Request) (rounds : List ReadRound) :
    ∀ m ∈ (sendRounds r rounds).1,
      (m.fd = r.fd ∧ m.clientId = r.clientId) ∧ m.terminal = false := by
  intro m hm
  obtain ⟨data, sent, -, rfl⟩ := mem_sendRounds hm
  exact ⟨⟨rfl, rfl⟩, rfl⟩

/-- What `send_generated_sql_file` can have sent, with the chunks of its loop: nothing before
the announcement, the announcement and chunks where a call fails, or all of it. -/
inductive DownloadSent (r : Request) (tables : Tables) (chunks : List Message) :
    List Message × Except CString CString → Prop where
  | refused (err : CString) : DownloadSent r tables chunks ([], .error err)
  | broken (err : CString) :
      DownloadSent r tables chunks
        (respondText r.fd r.clientId opDownloadBegin (lit "generated_" ++
          decimal r.clientId.toNat ++ lit ".sql\n" ++
            decimal (generateSql tables responseSize).length) :: chunks, .error err)
  | whole (text : CString) :
      DownloadSent r tables chunks
        (respondText r.fd r.clientId opDownloadBegin (lit "generated_" ++
          decimal r.clientId.toNat ++ lit ".sql\n" ++
            decimal (generateSql tables responseSize).length) :: chunks ++
          [respondText r.fd r.clientId opDownloadEnd (lit "OK")], .ok text)

theorem sendGeneratedSqlFile_spec (env : DownloadEnv) (r : Request) (tables : Tables) :
    DownloadSent r tables (sendRounds r env.rounds).1 (sendGeneratedSqlFile env r tables) := by
  unfold sendGeneratedSqlFile
  -- the calls in their order, each of which may be the one that fails
  cases env.create with
  | error reason => exact .refused _
  | ok _ =>
    cases env.write with
    | error reason => exact .refused _
    | ok _ =>
      cases env.reopen with
      | error reason => exact .refused _
      | ok _ =>
        cases env.sendsBegin with
        | false => exact .refused _
        | true =>
          simp only [Bool.not_true, Bool.false_eq_true, if_false]
          generalize sendRounds r env.rounds = sent
          obtain ⟨chunks, result⟩ := sent
          cases result with
          | error err => exact .broken err
          | ok _ =>
              cases env.sendsEnd with
              | false => exact .broken _
              | true => exact .whole _

/-- A download that fails has sent nothing terminal; one that succeeds ends with
`OP_DOWNLOAD_END`. -/
theorem sendGeneratedSqlFile_messages (env : DownloadEnv) (r : Request) (tables : Tables) :
    match sendGeneratedSqlFile env r tables with
    | (messages, .error _) =>
        ∀ m ∈ messages, (m.fd = r.fd ∧ m.clientId = r.clientId) ∧ m.terminal = false
    | (messages, .ok _) => Answers r messages := by
  have hsent : ∀ text, ∀ m ∈ respondText r.fd r.clientId opDownloadBegin text ::
      (sendRounds r env.rounds).1,
        (m.fd = r.fd ∧ m.clientId = r.clientId) ∧ m.terminal = false := by
    intro text m hm
    rcases List.mem_cons.mp hm with rfl | hm
    · exact ⟨⟨rfl, rfl⟩, rfl⟩
    · exact sendRounds_messages r env.rounds m hm
  have hspec := sendGeneratedSqlFile_spec env r tables
  generalize sendGeneratedSqlFile env r tables = sent at hspec ⊢
  cases hspec with
  | refused err => exact List.forall_mem_nil _
  | broken err => exact hsent _
  | whole text =>
      refine ⟨fun m hm => ?_, _, _, rfl, rfl, fun m hm => (hsent _ m hm).2⟩
      rcases List.mem_append.mp hm with hm | hm
      · exact (hsent _ m hm).1
      · obtain rfl := List.mem_singleton.mp hm
        exact ⟨rfl, rfl⟩

/-- Whatever the operation, its messages answer the request. -/
theorem handleRequest_answers {env : RequestEnv} {r : Request} {state state' : SharedState}
    {h : Handled} (hhandle : handleRequest env r state = some (state', h)) :
    Answers r (h.sent r) := by
  have htext : ∀ (respOp : UInt32) (response : CString), respOp = opOk ∨ respOp = opError →
      Answers r ((Handled.text respOp response).sent r) := by
    intro respOp response hop
    exact answers_reply rfl hop fun m hm => (by cases hm)
  unfold handleRequest dispatchRequest at hhandle
  -- the branches in the order of the dispatch, a cancelled request first
  split at hhandle
  · obtain ⟨-, rfl⟩ := Prod.mk.inj (Option.some.inj hhandle)
    exact htext _ _ (Or.inr rfl)
  split at hhandle
  · obtain ⟨-, rfl⟩ := Prod.mk.inj (Option.some.inj hhandle)
    cases env.createUpload with
    | error reason => exact htext _ _ (Or.inr rfl)
    | ok _ => exact htext _ _ (Or.inl rfl)
  split at hhandle
  · obtain ⟨-, rfl⟩ := Prod.mk.inj (Option.some.inj hhandle)
    cases env.openUpload with
    | error reason => exact htext _ _ (Or.inr rfl)
    | ok _ =>
        simp only
        split
        · exact htext _ _ (Or.inr rfl)
        · exact htext _ _ (Or.inl rfl)
  split at hhandle
  · obtain ⟨-, rfl⟩ := Prod.mk.inj (Option.some.inj hhandle)
    split
    · exact htext _ _ (Or.inl rfl)
    · exact htext _ _ (Or.inr rfl)
  split at hhandle
  · obtain ⟨-, rfl⟩ := Prod.mk.inj (Option.some.inj hhandle)
    exact answers_reply rfl (Or.inl rfl) fun m hm => (by cases hm)
  split at hhandle
  · obtain ⟨-, rfl⟩ := Prod.mk.inj (Option.some.inj hhandle)
    have hmessages := sendGeneratedSqlFile_messages env.download r state.tables
    split
    · next messages err hsend =>
        rw [hsend] at hmessages
        simpa [Handled.sent, Handled.reply] using hmessages
    · next messages err hsend =>
        rw [hsend] at hmessages
        exact answers_reply rfl (Or.inr rfl) hmessages
  split at hhandle
  · unfold handleValidateInsert at hhandle
    obtain ⟨verdict, -, hresult⟩ := Option.map_eq_some_iff.mp hhandle
    cases verdict with
    | empty =>
        obtain ⟨-, rfl⟩ := Prod.mk.inj hresult
        exact htext _ _ (Or.inr rfl)
    | rejected err =>
        obtain ⟨-, rfl⟩ := Prod.mk.inj hresult
        exact htext _ _ (Or.inr rfl)
    | applyFailed err =>
        obtain ⟨-, rfl⟩ := Prod.mk.inj hresult
        exact htext _ _ (Or.inr rfl)
    | applied err after =>
        obtain ⟨-, rfl⟩ := Prod.mk.inj hresult
        exact htext _ _ (Or.inl rfl)
  · obtain ⟨-, rfl⟩ := Prod.mk.inj (Option.some.inj hhandle)
    exact htext _ _ (Or.inr rfl)

end SqlCodeGenerator
