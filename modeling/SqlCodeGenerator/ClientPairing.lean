import SqlCodeGenerator.ClientCommands
import SqlCodeGenerator.DdlDelivery
import SqlCodeGenerator.InsertRequests

/-!
# Commands and their replies

The server answers every message by one, except for a download, which it answers by a
sequence of messages of which the last alone is an end or an error.

* `serverAnswer_one`, `serverAnswer_download`: the shapes of the answers.
* `Client.InStep`: nothing is unread, and the command has read its own replies.
* `commands_paired_iff`: no command reads or leaves the reply to another, exactly if every
  download can write what it receives.
-/

namespace SqlCodeGenerator

open Library

/-! ## What the server answers -/

/-- Only a download sends messages of its own. -/
theorem handleRequest_messages {env : RequestEnv} {r : Request} {state state' : SharedState}
    {h : Handled} (hop : r.opId ≠ opDownloadSql)
    (hhandle : handleRequest env r state = some (state', h)) :
    h.messages = [] ∧ h.responseSent = false := by
  unfold handleRequest dispatchRequest at hhandle
  -- the branches in the order of the dispatch, the download excluded
  rw [if_neg hop] at hhandle
  split at hhandle
  · obtain ⟨-, rfl⟩ := Prod.mk.inj (Option.some.inj hhandle)
    exact ⟨rfl, rfl⟩
  split at hhandle
  · obtain ⟨-, rfl⟩ := Prod.mk.inj (Option.some.inj hhandle)
    cases env.createUpload with
    | error reason => exact ⟨rfl, rfl⟩
    | ok _ => exact ⟨rfl, rfl⟩
  split at hhandle
  · obtain ⟨-, rfl⟩ := Prod.mk.inj (Option.some.inj hhandle)
    cases env.openUpload with
    | error reason => exact ⟨rfl, rfl⟩
    | ok _ =>
        dsimp only
        split
        · exact ⟨rfl, rfl⟩
        · exact ⟨rfl, rfl⟩
  split at hhandle
  · obtain ⟨-, rfl⟩ := Prod.mk.inj (Option.some.inj hhandle)
    split
    · exact ⟨rfl, rfl⟩
    · exact ⟨rfl, rfl⟩
  split at hhandle
  · obtain ⟨-, rfl⟩ := Prod.mk.inj (Option.some.inj hhandle)
    exact ⟨rfl, rfl⟩
  split at hhandle
  · obtain ⟨hsent, hmessages, -⟩ := handleValidateInsert_spec hhandle
    exact ⟨hmessages, hsent⟩
  · obtain ⟨-, rfl⟩ := Prod.mk.inj (Option.some.inj hhandle)
    exact ⟨rfl, rfl⟩

/-- Every other message is answered by one. -/
theorem serverAnswer_one {opId : UInt32} {payload : List UInt8} {messages : List Message}
    (hop : opId ≠ opDownloadSql) (h : ServerAnswer opId payload messages) :
    ∃ m, messages = [m] := by
  cases h with
  | processed env r state state' h hop' hpayload hhandle =>
      obtain ⟨hmessages, hsent⟩ := handleRequest_messages (hop' ▸ hop) hhandle
      refine ⟨respondText r.fd r.clientId h.respOp (wireText r h.response), ?_⟩
      rw [Handled.sent, hmessages, Handled.reply, hsent]
      rfl
  | queried fd clientId state hop' => exact ⟨_, rfl⟩
  | unregistered fd clientId => exact ⟨_, rfl⟩
  | outOfMemory fd clientId => exact ⟨_, rfl⟩

/-- The answers to `OP_DOWNLOAD_SQL`. -/
inductive DownloadAnswer : List Message → Prop where
  | refused (m : Message) (hop : m.opId = opError) : DownloadAnswer [m]
  | transfer (first : Message) (chunks : List Message) (last : Message)
      (hfirst : first.opId = opDownloadBegin) (hchunks : ∀ m ∈ chunks, m.opId = opDownloadChunk)
      (hlast : last.opId = opDownloadEnd ∨ last.opId = opError) :
      DownloadAnswer (first :: (chunks ++ [last]))

theorem sendRounds_chunks (r : Request) (rounds : List ReadRound) :
    ∀ m ∈ (sendRounds r rounds).1, m.opId = opDownloadChunk := by
  intro m hm
  obtain ⟨data, sent, -, rfl⟩ := mem_sendRounds hm
  rfl

/-- What `send_generated_sql_file` sends: with the error that may follow, or the end that
it sends itself, it is an answer. -/
theorem sendGeneratedSqlFile_answer (env : DownloadEnv) (r : Request) (tables : Tables) :
    match sendGeneratedSqlFile env r tables with
    | (messages, .error _) => ∀ last : Message, last.opId = opError →
        DownloadAnswer (messages ++ [last])
    | (messages, .ok _) => DownloadAnswer messages := by
  have hchunks := sendRounds_chunks r env.rounds
  have hspec := sendGeneratedSqlFile_spec env r tables
  generalize sendGeneratedSqlFile env r tables = sent at hspec ⊢
  cases hspec with
  | refused err => exact .refused
  | broken err => exact fun last hlast => .transfer _ _ last rfl hchunks (Or.inr hlast)
  | whole text => exact .transfer _ _ _ rfl hchunks (Or.inl rfl)

theorem serverAnswer_download {payload : List UInt8} {messages : List Message}
    (h : ServerAnswer opDownloadSql payload messages) : DownloadAnswer messages := by
  cases h with
  | processed env r state state' h hop hpayload hhandle =>
      by_cases hcancel : state.cancelClientId = toInt r.clientId
      · rw [(handleRequest_cancelled hcancel hhandle).2.2]
        exact .refused _ rfl
      · rw [handleRequest_downloadSql hcancel hop] at hhandle
        obtain ⟨-, rfl⟩ := Prod.mk.inj (Option.some.inj hhandle)
        have hanswer := sendGeneratedSqlFile_answer env.download r state.tables
        split
        · next messages err hsend =>
            rw [hsend] at hanswer
            simpa [Handled.sent, Handled.reply] using hanswer
        · next messages err hsend =>
            rw [hsend] at hanswer
            exact hanswer _ rfl
  | queried fd clientId state hop => exact absurd hop (by decide)
  | unregistered fd clientId => exact .refused _ rfl
  | outOfMemory fd clientId => exact .refused _ rfl

/-! ## Commands in step -/

/-- Nothing is unread, and all that the command has read answers it. -/
structure Client.InStep (c : Client) (n : Nat) : Prop where
  command : c.command = n
  unread : c.unread = []
  taken : ∀ k ∈ c.taken, k = n

section Commands

variable {w : Answering} {c : Client} {n : Nat}

theorem taken_append {taken : List Nat} (htaken : ∀ k ∈ taken, k = n) :
    ∀ k ∈ taken ++ [n], k = n := by
  intro k hk
  rcases List.mem_append.mp hk with hk | hk
  · exact htaken k hk
  · exact List.mem_singleton.mp hk

/-- A message that is answered by one. -/
theorem Client.InStep.exchange (hc : c.InStep n) {opId : UInt32} (hop : opId ≠ opDownloadSql)
    (payload : List UInt8) :
    ∃ m c', (c.send w opId payload).receive = some (m, c') ∧ c'.InStep n := by
  obtain ⟨m, hm⟩ := serverAnswer_one hop (w.answers c.sent opId payload)
  have hunread : (c.send w opId payload).unread = [(n, m)] := by
    unfold send
    rw [hc.unread, hm, hc.command]
    rfl
  refine ⟨m, { c.send w opId payload with unread := [], taken := c.taken ++ [n] }, ?_, ?_⟩
  · unfold receive
    rw [hunread]
    rfl
  · exact ⟨hc.command, rfl, taken_append hc.taken⟩

theorem Client.InStep.requestText (hc : c.InStep n) {opId : UInt32} (hop : opId ≠ opDownloadSql)
    (payload : List UInt8) :
    ∃ ok c', SqlCodeGenerator.requestText w opId payload c = some (ok, c') ∧ c'.InStep n := by
  obtain ⟨m, c', hreceive, hc'⟩ := hc.exchange (w := w) hop payload
  refine ⟨decide (m.opId = opOk), c', ?_, hc'⟩
  unfold SqlCodeGenerator.requestText
  rw [hreceive]
  rfl

theorem Client.InStep.uploadChunks (hc : c.InStep n) (reads : List FileRead) :
    ∃ ok c', SqlCodeGenerator.uploadChunks w reads c = some (ok, c') ∧ c'.InStep n := by
  induction reads generalizing c with
  | nil => exact ⟨true, c, rfl, hc⟩
  | cons read reads ih =>
      cases read with
      | interrupted => exact ih hc
      | failed => exact ⟨false, c, rfl, hc⟩
      | bytes data =>
          cases data with
          | nil => exact ⟨true, c, rfl, hc⟩
          | cons b data =>
              obtain ⟨m, c', hreceive, hc'⟩ :=
                hc.exchange (w := w) (by decide : opUploadChunk ≠ opDownloadSql) (b :: data)
              unfold SqlCodeGenerator.uploadChunks
              rw [hreceive]
              by_cases hok : m.opId ≠ opOk
              · exact ⟨false, c', if_pos hok, hc'⟩
              · obtain ⟨ok, c'', hrest, hc''⟩ := ih hc'
                exact ⟨ok, c'', (if_neg hok).trans hrest, hc''⟩

theorem Client.InStep.uploadFile (hc : c.InStep n) (path : List UInt8) (file : LocalFile) :
    ∃ ok c', SqlCodeGenerator.uploadFile w path file c = some (ok, c') ∧ c'.InStep n := by
  unfold SqlCodeGenerator.uploadFile
  split
  · exact ⟨false, c, rfl, hc⟩
  · obtain ⟨ok, c₁, hbegin, hc₁⟩ :=
      hc.requestText (w := w) (by decide : opUploadBegin ≠ opDownloadSql) path
    rw [hbegin]
    simp only [Option.bind_eq_bind, Option.bind_some]
    split
    · exact ⟨false, c₁, rfl, hc₁⟩
    · obtain ⟨ok₂, c₂, hchunks, hc₂⟩ := hc₁.uploadChunks (w := w) file.reads
      rw [hchunks]
      simp only [Option.bind_some]
      split
      · exact ⟨false, c₂, rfl, hc₂⟩
      · exact hc₂.requestText (by decide : opUploadEnd ≠ opDownloadSql) []

/-! ## Downloads -/

/-- The chunks of an answer that are written. -/
def writtenChunks (messages : List Message) : Nat :=
  (messages.filter fun m => decide (m.opId = opDownloadChunk ∧ m.payload ≠ [])).length

/-- All that is unread or has been read answers the command; nothing is unread exactly if
`complete`. -/
structure Client.Ends (c : Client) (n : Nat) (complete : Prop) : Prop where
  command : c.command = n
  taken : ∀ k ∈ c.taken, k = n
  unread : ∀ p ∈ c.unread, p.1 = n
  complete : c.unread = [] ↔ complete

/-- The loop over the chunks and the last message of an answer. -/
theorem receiveSql_chunks (file : OutputFile) {chunks : List Message}
    (hchunks : ∀ m ∈ chunks, m.opId = opDownloadChunk) {last : Message}
    (hlast : last.opId = opDownloadEnd ∨ last.opId = opError) (k : Nat)
    (hcommand : c.command = n) (htaken : ∀ j ∈ c.taken, j = n) :
    ∃ ok c', receiveSql file true k ((chunks ++ [last]).map fun m => (n, m)) c = some (ok, c') ∧
      c'.Ends n (∀ i < writtenChunks chunks, file.writes (k + i) = true) := by
  induction chunks generalizing k c with
  | nil =>
      have hbegin : last.opId ≠ opDownloadBegin := by rcases hlast with h | h <;> rw [h] <;> decide
      have hchunk : last.opId ≠ opDownloadChunk := by rcases hlast with h | h <;> rw [h] <;> decide
      refine ⟨decide (last.opId = opDownloadEnd), { c with unread := [], taken := c.taken ++ [n] },
        ?_, hcommand, taken_append htaken, fun p hp => (by cases hp), ?_⟩
      · rw [List.nil_append, List.map_singleton, receiveSql, if_neg hbegin, if_neg hchunk]
      · exact iff_of_true rfl fun i hi => absurd hi (Nat.not_lt_zero i)
  | cons m chunks ih =>
      have hop := hchunks m List.mem_cons_self
      have hrest := fun m' hm' => hchunks m' (List.mem_cons_of_mem m hm')
      have hbegin : m.opId ≠ opDownloadBegin := by rw [hop]; decide
      rw [List.cons_append, List.map_cons, receiveSql, if_neg hbegin, if_pos hop]
      by_cases hempty : m.payload = []
      · -- nothing to write
        have hwritten : writtenChunks (m :: chunks) = writtenChunks chunks := by
          unfold writtenChunks
          rw [List.filter_cons_of_neg]
          simp [hempty]
        rw [if_neg (by simp), if_pos hempty, hwritten]
        exact ih hrest k hcommand (taken_append htaken)
      · have hwritten : writtenChunks (m :: chunks) = writtenChunks chunks + 1 := by
          unfold writtenChunks
          rw [List.filter_cons_of_pos, List.length_cons]
          simp [hop, hempty]
        rw [if_neg (by simp), if_neg hempty, hwritten, Nat.forall_lt_succ_left]
        by_cases hwrites : file.writes k = true
        · rw [if_pos hwrites]
          obtain ⟨ok, c', hreceive, hends⟩ := ih (c := { c with
            unread := (chunks ++ [last]).map fun m => (n, m)
            taken := c.taken ++ [n] }) hrest (k + 1) hcommand (taken_append htaken)
          refine ⟨ok, c', hreceive, hends.command, hends.taken, hends.unread, ?_⟩
          have hwrites' : file.writes (k + 0) = true := hwrites
          rw [hends.complete, and_iff_right hwrites']
          simp only [Nat.add_assoc, Nat.add_comm 1]
        · -- the chunk is lost, and what follows is not read
          rw [if_neg hwrites]
          refine ⟨false, _, rfl, hcommand, taken_append htaken, ?_, ?_⟩
          · intro p hp
            obtain ⟨m', -, rfl⟩ := List.mem_map.mp hp
            rfl
          · exact iff_of_false (by simp) fun h => hwrites h.1

/-- A download in step ends in step exactly if all of it can be written. -/
theorem Client.InStep.downloadSqlFile (hc : c.InStep n) (file : OutputFile) :
    ∃ ok c', SqlCodeGenerator.downloadSqlFile w file c = some (ok, c') ∧
      c'.Ends n (file.creates = true ∧
        ∀ i < writtenChunks (w.answer c.sent opDownloadSql []), file.writes i = true) := by
  have hanswer := serverAnswer_download (w.answers c.sent opDownloadSql [])
  have hunread : (c.send w opDownloadSql []).unread =
      (w.answer c.sent opDownloadSql []).map fun m => (n, m) := by
    unfold send
    rw [hc.unread, hc.command, List.nil_append]
  unfold SqlCodeGenerator.downloadSqlFile
  generalize w.answer c.sent opDownloadSql [] = messages at hanswer hunread ⊢
  by_cases hcreates : file.creates = true
  · simp only [hcreates, Bool.not_true, Bool.false_eq_true, if_false, hunread, true_and]
    cases hanswer with
    | refused m hop =>
        have hbegin : m.opId ≠ opDownloadBegin := by rw [hop]; decide
        have hchunk : m.opId ≠ opDownloadChunk := by rw [hop]; decide
        have hwritten : writtenChunks [m] = 0 := by
          unfold writtenChunks
          rw [List.filter_cons_of_neg (by simp [hchunk])]
          rfl
        rw [List.map_singleton, receiveSql, if_neg hbegin, if_neg hchunk, hwritten]
        exact ⟨_, _, rfl, hc.command, taken_append hc.taken, fun p hp => (by cases hp),
          iff_of_true rfl fun i hi => absurd hi (Nat.not_lt_zero i)⟩
    | transfer first chunks last hfirst hchunks hlast =>
        have hbegin : first.opId ≠ opDownloadChunk := by rw [hfirst]; decide
        have hend : last.opId ≠ opDownloadChunk := by rcases hlast with h | h <;> rw [h] <;> decide
        have hwritten : writtenChunks (first :: (chunks ++ [last])) = writtenChunks chunks := by
          unfold writtenChunks
          rw [List.filter_cons_of_neg (by simp [hbegin]), List.filter_append,
            List.filter_cons_of_neg (by simp [hend]), List.filter_nil, List.append_nil]
        rw [List.map_cons, receiveSql, if_pos hfirst, hwritten]
        simpa only [Nat.zero_add] using
          receiveSql_chunks (c := { c.send w opDownloadSql [] with
            unread := (chunks ++ [last]).map fun m => (n, m)
            taken := (c.send w opDownloadSql []).taken ++ [n] }) file hchunks hlast 0 hc.command
            (taken_append hc.taken)
  · -- the request has been sent, and no answer is read
    simp only [Bool.not_eq_true] at hcreates
    simp only [hcreates, Bool.not_false, if_true]
    refine ⟨false, _, rfl, hc.command, hc.taken, fun p hp => ?_, ?_⟩
    · rw [hunread] at hp
      obtain ⟨m, -, rfl⟩ := List.mem_map.mp hp
      rfl
    · rw [hunread]
      refine iff_of_false (fun h => ?_) (by simp)
      rw [List.map_eq_nil_iff.mp h] at hanswer
      cases hanswer

end Commands

/-! ## Sequences of commands -/

/-- A command returns, has read replies to itself only, and leaves none unread. -/
def Paired (w : Answering) (c : Client) (command : Command) : Prop :=
  ∃ c', command.step w c = some c' ∧ (∀ k ∈ c'.taken, k = c'.command) ∧
    ∀ p ∈ c'.unread, p.1 ≠ c'.command

/-- A download can create its file, and write every chunk that the server sends. -/
def Writable (w : Answering) (c : Client) : Command → Prop
  | .download file => file.creates = true ∧
      ∀ i < writtenChunks (w.answer c.sent opDownloadSql []), file.writes i = true
  | _ => True

/-- A command that begins in step ends in step exactly if it is writable. -/
theorem Command.step_ends (w : Answering) {c : Client} (hunread : c.unread = [])
    (command : Command) :
    ∃ c', command.step w c = some c' ∧ c'.Ends (c.command + 1) (Writable w c command) := by
  have hbegun :
      ({ c with command := c.command + 1, taken := [] } : Client).InStep (c.command + 1) :=
    ⟨rfl, hunread, fun k hk => (by cases hk)⟩
  have hdone : ∀ {result : Option (Bool × Client)} {P : Prop}, P →
      (∃ ok c', result = some (ok, c') ∧ c'.InStep (c.command + 1)) →
      ∃ c', result.map Prod.snd = some c' ∧ c'.Ends (c.command + 1) P := by
    rintro result P hP ⟨ok, c', rfl, hc'⟩
    refine ⟨c', rfl, hc'.command, hc'.taken, fun p hp => ?_, iff_of_true hc'.unread hP⟩
    rw [hc'.unread] at hp
    cases hp
  unfold step
  cases command with
  | upload path file => exact hdone trivial (hbegun.uploadFile path file)
  | generate => exact hdone trivial (hbegun.requestText (by decide) [])
  | status jobId => exact hdone trivial (hbegun.requestText (by decide) jobId)
  | result jobId => exact hdone trivial (hbegun.requestText (by decide) jobId)
  | insert sql => exact hdone trivial (hbegun.requestText (by decide) sql)
  | insertfile sql =>
      cases sql with
      | none => exact hdone trivial ⟨false, _, rfl, hbegun⟩
      | some sql => exact hdone trivial (hbegun.requestText (by decide) sql)
  | download file =>
      obtain ⟨ok, c', hperform, hends⟩ := hbegun.downloadSqlFile (w := w) file
      exact ⟨c', congrArg (Option.map Prod.snd) hperform, hends⟩

theorem paired_iff_writable (w : Answering) {c : Client} (hunread : c.unread = [])
    (command : Command) : Paired w c command ↔ Writable w c command := by
  obtain ⟨c', hstep, hends⟩ := Command.step_ends w hunread command
  rw [← hends.complete]
  constructor
  · rintro ⟨other, hother, -, hnone⟩
    obtain rfl := Option.some.inj (hstep.symm.trans hother)
    refine List.eq_nil_iff_forall_not_mem.mpr fun p hp => hnone p hp ?_
    rw [hends.unread p hp, hends.command]
  · intro hempty
    refine ⟨c', hstep, fun k hk => (hends.taken k hk).trans hends.command.symm, fun p hp => ?_⟩
    rw [hempty] at hp
    cases hp

/-- Every command of a sequence returns, having read replies to itself only and all of
them, exactly if every download can create its file and write what it receives. -/
theorem commands_paired_iff (w : Answering) (commands : List Command) :
    EveryStep (Command.step w) (Paired w) .init commands ↔
      EveryStep (Command.step w) (Writable w) .init commands := by
  have hinv : ∀ (c : Client) (command : Command) (c' : Client), c.unread = [] →
      Writable w c command → command.step w c = some c' → c'.unread = [] := by
    intro c command c' hunread hwritable hstep
    obtain ⟨after, hafter, hends⟩ := Command.step_ends w hunread command
    obtain rfl := Option.some.inj (hafter.symm.trans hstep)
    exact hends.complete.mpr hwritable
  exact everyStep_congr_of_invariant
    (fun c command hunread => paired_iff_writable w hunread command) hinv rfl

/-! ## A download whose file cannot be created -/

/-- A server with a table. -/
def tableState : SharedState := { stateInit 0 with tables := plainTables }

/-- The generated file is read back in one piece. -/
def wholeEnv : RequestEnv :=
  { quietEnv with download := ⟨.ok (), .ok (), .ok (), true,
      [.bytes ((generateSql plainTables responseSize).map Subtype.val) true], true⟩ }

/-- A request without a payload of client 1, on descriptor 5. -/
def plainRequest (opId : UInt32) : Request := ⟨5, 1, opId, 1, none, 0⟩

/-- A server that sends the generated text, as a file or as its reply, that answers
questions for jobs, and has no memory for any other request. -/
def fileServer : Answering where
  answer _ opId payload :=
    if opId = opDownloadSql ∧ payload = [] then
      (handleDownloadSql wholeEnv (plainRequest opDownloadSql) tableState).2.sent
        (plainRequest opDownloadSql)
    else if opId = opGenerateSql ∧ payload = [] then
      (handleGenerateSql tableState).2.sent (plainRequest opGenerateSql)
    else if opId = opJobStatus ∨ opId = opJobResult then
      [respondJobInfo tableState 5 1 opId (received payload)]
    else
      [respondText 5 1 opError (lit "server out of memory")]
  answers n opId payload := by
    split
    · next hdownload =>
        obtain ⟨rfl, rfl⟩ := hdownload
        have hcancel : tableState.cancelClientId ≠
            toInt (plainRequest opDownloadSql).clientId := by decide
        exact .processed wholeEnv (plainRequest opDownloadSql) tableState _ _ rfl rfl
          (handleRequest_downloadSql hcancel rfl)
    split
    · next hgenerate =>
        obtain ⟨rfl, rfl⟩ := hgenerate
        have hcancel : tableState.cancelClientId ≠
            toInt (plainRequest opGenerateSql).clientId := by decide
        exact .processed wholeEnv (plainRequest opGenerateSql) tableState _ _ rfl rfl
          (handleRequest_generateSql hcancel rfl)
    split
    · next hquery => exact .queried 5 1 tableState hquery
    · exact .outOfMemory 5 1

/-- The second command has read a message of the first. -/
theorem unreadReplies_run :
    (runFrom (Command.step fileServer) .init [.download ⟨false, fun _ => true⟩, .generate]).map
      (fun c => (c.command, c.taken)) = some (2, [1]) := by
  decide +kernel

/-- After a download whose file cannot be created the next command reads its replies. -/
theorem unreadReplies_shift :
    ¬ EveryStep (Command.step fileServer) (Paired fileServer) .init
      [.download ⟨false, fun _ => true⟩, .generate] := by
  intro hpaired
  obtain ⟨c', hrun, hlast⟩ := Option.map_eq_some_iff.mp unreadReplies_run
  obtain ⟨c, hfirst, hrest⟩ := runFrom_cons_eq_some_iff.mp hrun
  obtain ⟨after, hsecond, hend⟩ := runFrom_cons_eq_some_iff.mp hrest
  obtain rfl := Option.some.inj hend
  obtain ⟨other, hother, htaken, -⟩ := (hpaired.2 c hfirst).1
  obtain rfl := Option.some.inj (hsecond.symm.trans hother)
  obtain ⟨hcommand, hread⟩ := Prod.mk.inj hlast
  have hone := htaken 1 (by rw [hread]; exact List.mem_cons_self)
  rw [hcommand] at hone
  cases hone

end SqlCodeGenerator
