import SqlCodeGenerator.ClientPairing
import SqlCodeGenerator.Decimals
import SqlCodeGenerator.SocketWrites

/-!
# The server's side of a download

`send_generated_sql_file` writes the generated text into a file with `write_full`, opens
that again and sends what each `read` of at most `SQLCG_FILE_CHUNK` bytes returns as a
chunk.  A `read` may return less, or be interrupted and made again.

* `data_readRounds`: the rounds of the loop read the file from its beginning to its end;
* `sendGeneratedSqlFile_transfer`: what is sent when no call fails;
* `sent_of_opError`: what is sent for a download that ends with `OP_ERROR`.
-/

namespace SqlCodeGenerator

open Library

/-- `SQLCG_FILE_CHUNK`. -/
abbrev fileChunk : Nat := 64 * 1024

/-- The bytes of the generated text. -/
def generatedBytes (tables : Tables) : List UInt8 :=
  (generateSql tables responseSize).map Subtype.val

/-! ## The loop over the file -/

/-- The rounds of the loop, from a given chunk on: a `read`, and whether the chunk is
sent. -/
def readRounds (reason : CString) (sends : Nat → Bool) (i : Nat) (file : Incoming UInt8) :
    List ReadRound :=
  match _hread : file.recv fileChunk with
  | (.items data, file') => .bytes data (sends i) :: readRounds reason sends (i + 1) file'
  | (.interrupted, file') => .interrupted :: readRounds reason sends i file'
  | (.closed, _) => []
  | (.failed, _) => [.failed reason]
  termination_by file.weight
  decreasing_by
    · have hspec := file.recv_spec (show 0 < fileChunk by decide)
      rw [_hread] at hspec
      cases hspec with
      | items _ _ _ _ _ _ hweight => exact hweight
    · have hspec := file.recv_spec (show 0 < fileChunk by decide)
      rw [_hread] at hspec
      cases hspec with
      | interrupted _ _ _ hweight => exact hweight

/-- What the calls of `send_generated_sql_file` are answered. -/
structure DownloadCalls where
  create : SystemCall
  /-- The answers of `write` on the file. -/
  fileWrites : List WriteAnswer
  writeReason : CString
  reopen : SystemCall
  /-- What `read` meets in the file. -/
  file : Incoming UInt8
  readReason : CString
  sendsBegin : Bool
  sendsChunk : Nat → Bool
  sendsEnd : Bool

namespace DownloadCalls

/-- The calls, as `send_generated_sql_file` meets them. -/
def env (calls : DownloadCalls) (tables : Tables) : DownloadEnv where
  create := calls.create
  write :=
    if (writeFull calls.fileWrites (generatedBytes tables)).1 then .ok ()
    else .error calls.writeReason
  reopen := calls.reopen
  sendsBegin := calls.sendsBegin
  rounds := readRounds calls.readReason calls.sendsChunk 0 calls.file
  sendsEnd := calls.sendsEnd

/-- No call fails, and the file holds what was written to it. -/
structure Succeed (calls : DownloadCalls) (tables : Tables) : Prop where
  create : calls.create = .ok ()
  fileWrites : ∀ a ∈ calls.fileWrites, a.goesOn = true
  reopen : calls.reopen = .ok ()
  contents : calls.file.items = (writeFull calls.fileWrites (generatedBytes tables)).2.1
  reads : calls.file.fails = false
  sendsBegin : calls.sendsBegin = true
  sendsChunk : ∀ i, calls.sendsChunk i = true
  sendsEnd : calls.sendsEnd = true

end DownloadCalls

/-- One round of the loop. -/
theorem readRounds_round (reason : CString) (sends : Nat → Bool) (i : Nat)
    (file : Incoming UInt8) :
    readRounds reason sends i file = match file.recv fileChunk with
      | (.items data, file') => .bytes data (sends i) :: readRounds reason sends (i + 1) file'
      | (.interrupted, file') => .interrupted :: readRounds reason sends i file'
      | (.closed, _) => []
      | (.failed, _) => [.failed reason] := by
  rw [readRounds]
  split <;> simp [*]

/-- No `read` returns more than it asks for. -/
theorem length_readRounds_le {reason : CString} {sends : Nat → Bool} {i : Nat}
    {file : Incoming UInt8} {data : List UInt8} {sent : Bool}
    (h : .bytes data sent ∈ readRounds reason sends i file) : data.length ≤ fileChunk := by
  induction hweight : file.weight using Nat.strong_induction_on generalizing i file with
  | _ weight ih =>
      rw [readRounds_round] at h
      have hspec := file.recv_spec (show 0 < fileChunk by decide)
      generalize file.recv fileChunk = answer at hspec h
      cases hspec with
      | items bytes file' hne hlimit hitems hfails hless =>
          rcases List.mem_cons.mp h with hhead | hrest
          · obtain ⟨rfl, -⟩ := ReadRound.bytes.inj hhead
            exact hlimit
          · exact ih _ (hweight ▸ hless) hrest rfl
      | interrupted file' hitems hfails hless =>
          rcases List.mem_cons.mp h with hhead | hrest
          · cases hhead
          · exact ih _ (hweight ▸ hless) hrest rfl
      | closed hitems hfails => cases h
      | failed hitems hfails =>
          rcases List.mem_cons.mp h with hhead | hrest
          · cases hhead
          · cases hrest

/-- A file that can be read is read to its end, and every round succeeds whose chunk is
sent. -/
theorem data_readRounds (reason : CString) {sends : Nat → Bool} (hsends : ∀ i, sends i = true)
    (i : Nat) {file : Incoming UInt8} (hreads : file.fails = false) :
    (∀ round ∈ readRounds reason sends i file, round.Succeeds) ∧
      (readRounds reason sends i file).flatMap ReadRound.data = file.items := by
  induction hweight : file.weight using Nat.strong_induction_on generalizing i file with
  | _ weight ih =>
      rw [readRounds_round]
      have hspec := file.recv_spec (show 0 < fileChunk by decide)
      generalize file.recv fileChunk = answer at hspec
      cases hspec with
      | items bytes file' hne hlimit hitems hfails hless =>
          obtain ⟨hrounds, hdata⟩ := ih _ (hweight ▸ hless) (i + 1) (hfails.trans hreads) rfl
          refine ⟨fun round hround => ?_, ?_⟩
          · rcases List.mem_cons.mp hround with rfl | hround
            · exact hsends i
            · exact hrounds round hround
          · rw [List.flatMap_cons, hdata, hitems]
            rfl
      -- the same chunk is tried again
      | interrupted file' hitems hfails hless =>
          obtain ⟨hrounds, hdata⟩ := ih _ (hweight ▸ hless) i (hfails.trans hreads) rfl
          refine ⟨fun round hround => ?_, ?_⟩
          · rcases List.mem_cons.mp hround with rfl | hround
            · trivial
            · exact hrounds round hround
          · rw [List.flatMap_cons, hdata, hitems]
            rfl
      | closed hitems hfails =>
          exact ⟨fun round hround => (by cases hround), hitems.symm⟩
      | failed hitems hfails =>
          rw [hreads] at hfails
          cases hfails

/-! ## The messages -/

/-- The text of `OP_DOWNLOAD_BEGIN`: the name of the file and its size. -/
def announcement (clientId : UInt32) (size : Nat) : CString :=
  lit "generated_" ++ decimal clientId.toNat ++ lit ".sql\n" ++ decimal size

/-- The message that announces the text. -/
def downloadBegin (r : Request) (tables : Tables) : Message :=
  respondText r.fd r.clientId opDownloadBegin
    (announcement r.clientId (generatedBytes tables).length)

/-- The message behind the last chunk. -/
def downloadEnd (r : Request) : Message := respondText r.fd r.clientId opDownloadEnd (lit "OK")

theorem length_announcement_le (clientId : UInt32) {size : Nat} (hsize : size < 10 ^ 5) :
    (announcement clientId size).length ≤ 30 := by
  have hname : (lit "generated_").length = 10 := by decide +kernel
  have hend : (lit ".sql\n").length = 5 := by decide +kernel
  have hclient := clientId.toNat_lt
  have hdigits := length_decimal_le (n := clientId.toNat) (by decide : 0 < 10) (by omega)
  have hsizeDigits := length_decimal_le (by decide : 0 < 5) hsize
  simp only [announcement, List.length_append, hname, hend]
  omega

theorem length_generatedBytes_le (tables : Tables) : (generatedBytes tables).length ≤ 65535 := by
  rw [generatedBytes, List.length_map, generateSql_eq, List.length_take]
  exact min_le_left _ _

theorem length_downloadBegin_le (r : Request) (tables : Tables) :
    (downloadBegin r tables).payload.length ≤ maxPayload := by
  have hsize := length_generatedBytes_le tables
  rw [downloadBegin, respondText, List.length_map]
  exact (length_announcement_le r.clientId (by omega)).trans (by decide)

/-- When no call fails, the generated text is sent between its announcement and the end. -/
theorem sendGeneratedSqlFile_transfer {calls : DownloadCalls} {tables : Tables}
    (h : calls.Succeed tables) (r : Request) :
    ∃ chunks text,
      sendGeneratedSqlFile (calls.env tables) r tables =
        (downloadBegin r tables :: chunks ++ [downloadEnd r], .ok text) ∧
      (∀ m ∈ chunks, m.opId = opDownloadChunk ∧ m.payload.length ≤ fileChunk) ∧
      chunks.flatMap Message.payload = generatedBytes tables := by
  obtain ⟨_, hwritten, -⟩ := writeFull_eq h.fileWrites (generatedBytes tables)
  have hcontents := h.contents
  rw [hwritten] at hcontents
  obtain ⟨hrounds, hdata⟩ := data_readRounds calls.readReason h.sendsChunk 0 h.reads
  obtain ⟨chunks, hsend, -, hpayload⟩ := sendRounds_of_succeeds (r := r) hrounds
  have hwrite : (calls.env tables).write = .ok () := by
    simp only [DownloadCalls.env, hwritten, if_true]
  have hlength : (generatedBytes tables).length = (generateSql tables responseSize).length :=
    List.length_map _
  refine ⟨chunks, lit "OK: generated SQL downloaded (" ++ decimal (generatedBytes tables).length ++
    lit " bytes)", ?_, fun m hm => ?_, hpayload.trans (hdata.trans hcontents)⟩
  · unfold sendGeneratedSqlFile downloadBegin downloadEnd
    simp only [hwrite, hlength]
    simp only [DownloadCalls.env, h.create, h.reopen, h.sendsBegin, h.sendsEnd, hsend,
      Bool.not_true, Bool.false_eq_true, if_false]
    rfl
  · have hmem :
        m ∈ (sendRounds r (readRounds calls.readReason calls.sendsChunk 0 calls.file)).1 := by
      rwa [hsend]
    obtain ⟨data, sent, hround, rfl⟩ := mem_sendRounds hmem
    exact ⟨rfl, length_readRounds_le hround⟩

/-- What has been sent before a call fails is no end of the transfer. -/
theorem sendGeneratedSqlFile_before_error {calls : DownloadCalls} {r : Request} {tables : Tables}
    {messages : List Message} {err : CString}
    (h : sendGeneratedSqlFile (calls.env tables) r tables = (messages, .error err)) :
    ∀ m ∈ messages, m.opId ≠ opDownloadEnd ∧ m.payload.length ≤ maxPayload := by
  have hlength : (generatedBytes tables).length = (generateSql tables responseSize).length :=
    List.length_map _
  have hchunks : ∀ m ∈ (sendRounds r (calls.env tables).rounds).1,
      m.opId ≠ opDownloadEnd ∧ m.payload.length ≤ maxPayload := by
    intro m hm
    obtain ⟨data, sent, hround, rfl⟩ := mem_sendRounds hm
    exact ⟨show opDownloadChunk ≠ opDownloadEnd by decide,
      (length_readRounds_le hround).trans (by decide)⟩
  have hspec := sendGeneratedSqlFile_spec (calls.env tables) r tables
  rw [h] at hspec
  cases hspec with
  | refused err => exact List.forall_mem_nil _
  | broken err =>
      rw [← hlength]
      intro m hm
      rcases List.mem_cons.mp hm with rfl | hrest
      · exact ⟨show opDownloadBegin ≠ opDownloadEnd by decide, length_downloadBegin_le r tables⟩
      · exact hchunks m hrest

/-- What is sent for a download that ends with `OP_ERROR` is no end of a transfer. -/
theorem sent_of_opError {env : RequestEnv} {calls : DownloadCalls} {r : Request}
    {state state' : SharedState} {h : Handled} (hop : r.opId = opDownloadSql)
    (hcalls : env.download = calls.env state.tables)
    (hhandle : handleRequest env r state = some (state', h)) (herror : h.respOp = opError) :
    ∀ m ∈ h.sent r, m.opId ≠ opDownloadEnd ∧ m.payload.length ≤ maxPayload := by
  have hreply : ∀ response : CString, response.length < responseSize →
      (wireText r response).length ≤ maxPayload := by
    intro response hresponse
    unfold wireText
    split
    · rw [cut]
      exact (List.length_take_le _ _).trans (by decide)
    · exact (Nat.le_of_lt hresponse).trans (by decide)
  have hcut : ∀ text : CString, (cut responseSize text).length < responseSize := fun text =>
    Nat.lt_of_le_of_lt (List.length_take_le _ _) (by decide)
  -- a cancelled request has sent nothing but its reply
  by_cases hcancel : state.cancelClientId = toInt r.clientId
  · rw [(handleRequest_cancelled hcancel hhandle).2.2]
    intro m hm
    obtain rfl := List.mem_singleton.mp hm
    refine ⟨show opError ≠ opDownloadEnd by decide, ?_⟩
    rw [respondText, List.length_map]
    exact hreply _ (hcut _)
  · rw [handleRequest_downloadSql hcancel hop, handleDownloadSql, hcalls] at hhandle
    cases hsend : sendGeneratedSqlFile (calls.env state.tables) r state.tables with
    | mk messages result =>
        cases result with
        | ok text =>
            simp only [hsend, Option.some.injEq, Prod.mk.injEq] at hhandle
            rw [← hhandle.2] at herror
            exact absurd herror (show opOk ≠ opError by decide)
        | error err =>
            simp only [hsend, Option.some.injEq, Prod.mk.injEq] at hhandle
            have hbefore := sendGeneratedSqlFile_before_error hsend
            rw [← hhandle.2]
            intro m hm
            rcases List.mem_append.mp hm with hm | hm
            · exact hbefore m hm
            · obtain rfl := List.mem_singleton.mp hm
              refine ⟨show opError ≠ opDownloadEnd by decide, ?_⟩
              rw [respondText, List.length_map]
              exact hreply _ (hcut _)

end SqlCodeGenerator
