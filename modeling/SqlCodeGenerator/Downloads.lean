import SqlCodeGenerator.DownloadTransfer

/-!
# Downloads, from end to end

`download_sql_file` of the C client and `download_sql` of the Python client, on the bytes
that arrive at their end of the connection: both receive messages until one is not a
chunk, and write the payload of every chunk into a file.

* `receiveSqlFile_transfer`, `PythonClient.receiveSql_transfer`: a whole transfer is
  saved, and nothing behind it is read;
* `receiveSqlFile_unended`, `PythonClient.receiveSql_unended`: without an end of the
  transfer nothing is saved;
* `download_end_to_end`: what the server sends for a download, and what the clients make
  of it.
-/

namespace SqlCodeGenerator

open Library

/-- What `read_full` returns is taken off the stream. -/
theorem length_readFull {len : Nat} {s rest : Incoming UInt8} {bytes : List UInt8}
    (h : readFull len s = .full bytes rest) : rest.items.length + len = s.items.length := by
  by_cases hlen : len ≤ s.items.length
  · obtain ⟨rest', hread, hrest⟩ := readFull_of_le hlen
    rw [h, ReadResult.full.injEq] at hread
    rw [hread.2, hrest, List.length_drop]
    omega
  · obtain ⟨code, hread, -⟩ := readFull_of_lt (Nat.not_le.mp hlen)
    rw [h] at hread
    cases hread

/-- A received message is taken off the stream. -/
theorem length_recvMessage_lt {s rest : Incoming UInt8} {header : MsgHeader}
    {payload : Option (List UInt8)} (h : recvMessage s = .message header payload rest) :
    rest.items.length < s.items.length := by
  have hsome : 0 < headerSize := by decide
  unfold recvMessage at h
  cases hheader : readFull headerSize s with
  | stopped code => simp only [hheader, reduceCtorEq] at h
  | full net behind =>
      have hnet := length_readFull hheader
      simp only [hheader] at h
      split at h
      · cases h
      · split at h
        · cases hpayload : readFull (MsgHeader.ofBytes net).msgSize.toNat behind with
          | stopped code => simp only [hpayload, reduceCtorEq] at h
          | full bytes behind' =>
              simp only [hpayload, RecvResult.message.injEq] at h
              have hbytes := length_readFull hpayload
              rw [← h.2.2]
              omega
        · simp only [RecvResult.message.injEq] at h
          rw [← h.2.2]
          omega

/-! ## The C client -/

/-- A file that a download has saved: what it holds, the number of bytes that is printed,
and the stream behind the transfer. -/
structure SavedFile where
  contents : List UInt8
  bytes : Nat
  rest : Incoming UInt8

/-- The loop of `download_sql_file`; `none` is -1. -/
def receiveSqlFile (sawBegin : Bool) (bytes : Nat) (file : List UInt8)
    (fileWrites : List WriteAnswer) (s : Incoming UInt8) : Option SavedFile :=
  match _hrecv : recvMessage s with
  | .stopped _ => none
  | .message h payload rest =>
      if h.opId = opDownloadBegin then
        receiveSqlFile true bytes file fileWrites rest
      else if h.opId = opDownloadChunk then
        if !sawBegin then
          none
        else if h.msgSize > 0 then
          let write := writeFull fileWrites (payload.getD [])
          if write.1 then
            receiveSqlFile sawBegin (bytes + h.msgSize.toNat) (file ++ write.2.1) write.2.2 rest
          else
            none
        else
          receiveSqlFile sawBegin bytes file fileWrites rest
      else if h.opId = opDownloadEnd then
        some ⟨file, bytes, rest⟩
      else
        -- `OP_ERROR`, or a message that is not expected
        none
  termination_by s.items.length
  decreasing_by all_goals exact length_recvMessage_lt _hrecv

/-- The calls of `download_sql_file`: the answers of `write` on the socket, `open`, and the
answers of `write` on the file. -/
structure SaveCalls where
  socketWrites : List WriteAnswer
  creates : Bool
  fileWrites : List WriteAnswer

/-- `download_sql_file`; `none` is -1. -/
def saveSqlFile (calls : SaveCalls) (clientId : UInt32) (s : Incoming UInt8) : Option SavedFile :=
  if !(sendMessage calls.socketWrites clientId opDownloadSql (some []) 0).1 then
    none
  else if !calls.creates then
    none
  else
    receiveSqlFile false 0 [] calls.fileWrites s

/-- No call of `download_sql_file` fails. -/
structure SaveCalls.Succeed (calls : SaveCalls) : Prop where
  socketWrites : ∀ a ∈ calls.socketWrites, a.goesOn = true
  creates : calls.creates = true
  fileWrites : ∀ a ∈ calls.fileWrites, a.goesOn = true

/-- One round of the loop. -/
theorem receiveSqlFile_round (sawBegin : Bool) (bytes : Nat) (file : List UInt8)
    (fileWrites : List WriteAnswer) {s rest : Incoming UInt8} {h : MsgHeader}
    {payload : Option (List UInt8)} (hrecv : recvMessage s = .message h payload rest) :
    receiveSqlFile sawBegin bytes file fileWrites s =
      if h.opId = opDownloadBegin then
        receiveSqlFile true bytes file fileWrites rest
      else if h.opId = opDownloadChunk then
        if !sawBegin then
          none
        else if h.msgSize > 0 then
          if (writeFull fileWrites (payload.getD [])).1 then
            receiveSqlFile sawBegin (bytes + h.msgSize.toNat)
              (file ++ (writeFull fileWrites (payload.getD [])).2.1)
              (writeFull fileWrites (payload.getD [])).2.2 rest
          else
            none
        else
          receiveSqlFile sawBegin bytes file fileWrites rest
      else if h.opId = opDownloadEnd then
        some ⟨file, bytes, rest⟩
      else
        none := by
  rw [receiveSqlFile]
  split
  · next code hstop =>
      rw [hrecv] at hstop
      cases hstop
  · next h' payload' rest' hmessage =>
      rw [hrecv, RecvResult.message.injEq] at hmessage
      obtain ⟨rfl, rfl, rfl⟩ := hmessage
      rfl

theorem receiveSqlFile_stopped {s : Incoming UInt8} {code : Int}
    (hrecv : recvMessage s = .stopped code) (sawBegin : Bool) (bytes : Nat) (file : List UInt8)
    (fileWrites : List WriteAnswer) :
    receiveSqlFile sawBegin bytes file fileWrites s = none := by
  rw [receiveSqlFile]
  split
  · rfl
  · next h' payload' rest' hmessage =>
      rw [hrecv] at hmessage
      cases hmessage

/-- A chunk is written behind what the file holds. -/
theorem receiveSqlFile_chunk {m : WireMessage} (hop : m.opId = opDownloadChunk)
    (hsize : m.payload.length ≤ maxPayload) (bytes : Nat) (file : List UInt8)
    {fileWrites : List WriteAnswer} (hwrites : ∀ a ∈ fileWrites, a.goesOn = true)
    {s : Incoming UInt8} {more : List UInt8} (hs : s.items = m.frame ++ more) :
    ∃ fileWrites' rest, receiveSqlFile true bytes file fileWrites s =
        receiveSqlFile true (bytes + m.payload.length) (file ++ m.payload) fileWrites' rest ∧
      (∀ a ∈ fileWrites', a.goesOn = true) ∧ rest.items = more := by
  obtain ⟨rest, hrecv, hrest⟩ := recvMessage_frame hsize hs
  have hround := receiveSqlFile_round true bytes file fileWrites hrecv
  have hnat := WireMessage.toNat_msgSize hsize
  have hheader : m.received.1.opId = opDownloadChunk := hop
  have hbegin : opDownloadChunk ≠ opDownloadBegin := by decide
  rw [hheader, if_neg hbegin, if_pos rfl] at hround
  by_cases hempty : m.payload = []
  · -- an empty chunk is not written, and changes nothing
    have hzero : ¬ m.received.1.msgSize > 0 := by
      show ¬ 0 < m.header.msgSize
      rw [UInt32.lt_iff_toNat_lt, hnat, hempty]
      decide
    rw [if_neg hzero] at hround
    refine ⟨fileWrites, rest, ?_, hwrites, hrest⟩
    rw [hround, hempty, List.append_nil]
    rfl
  · have hpos : m.received.1.msgSize > 0 := by
      show 0 < m.header.msgSize
      rw [UInt32.lt_iff_toNat_lt, hnat]
      exact List.length_pos_iff.mpr hempty
    have hpayload : m.received.2.getD [] = m.payload := by
      simp only [WireMessage.received, if_neg hempty, Option.getD_some]
    have hsizeOf : m.received.1.msgSize.toNat = m.payload.length := hnat
    obtain ⟨fileWrites', hwrite, hgoes⟩ := writeFull_eq hwrites m.payload
    rw [if_pos hpos, hpayload, hwrite, hsizeOf] at hround
    exact ⟨fileWrites', rest, hround, hgoes, hrest⟩

/-- A whole transfer is saved, and nothing behind it is read. -/
theorem receiveSqlFile_transfer {chunks : List WireMessage} {last : WireMessage}
    (hchunks : ∀ m ∈ chunks, m.opId = opDownloadChunk ∧ m.payload.length ≤ maxPayload)
    (hlast : last.opId = opDownloadEnd) (hsize : last.payload.length ≤ maxPayload)
    (bytes : Nat) (file : List UInt8) {fileWrites : List WriteAnswer}
    (hwrites : ∀ a ∈ fileWrites, a.goesOn = true) {s : Incoming UInt8} {more : List UInt8}
    (hs : s.items = (chunks ++ [last]).flatMap WireMessage.frame ++ more) :
    ∃ rest, receiveSqlFile true bytes file fileWrites s =
        some ⟨file ++ chunks.flatMap WireMessage.payload,
          bytes + (chunks.flatMap WireMessage.payload).length, rest⟩ ∧
      rest.items = more := by
  induction chunks generalizing bytes file fileWrites s with
  | nil =>
      rw [List.nil_append, List.flatMap_singleton] at hs
      obtain ⟨rest, hrecv, hrest⟩ := recvMessage_frame hsize hs
      have hround := receiveSqlFile_round true bytes file fileWrites hrecv
      have hheader : last.received.1.opId = opDownloadEnd := hlast
      have hbegin : opDownloadEnd ≠ opDownloadBegin := by decide
      have hchunk : opDownloadEnd ≠ opDownloadChunk := by decide
      rw [hheader, if_neg hbegin, if_neg hchunk, if_pos rfl] at hround
      refine ⟨rest, ?_, hrest⟩
      rw [hround, List.flatMap_nil, List.append_nil, List.length_nil, Nat.add_zero]
  | cons m chunks ih =>
      obtain ⟨hop, hm⟩ := hchunks m List.mem_cons_self
      rw [List.cons_append, List.flatMap_cons, List.append_assoc] at hs
      obtain ⟨fileWrites', behind, hround, hgoes, hbehind⟩ :=
        receiveSqlFile_chunk hop hm bytes file hwrites hs
      obtain ⟨rest, hsaved, hrest⟩ := ih (fun m' hm' => hchunks m' (List.mem_cons_of_mem _ hm'))
        (bytes + m.payload.length) (file ++ m.payload) hgoes hbehind
      refine ⟨rest, ?_, hrest⟩
      rw [hround, hsaved, List.flatMap_cons, List.append_assoc, List.length_append, Nat.add_assoc]

/-- Messages none of which ends a transfer, with a beginning of one more, save nothing. -/
theorem receiveSqlFile_unended {ms : List WireMessage}
    (hms : ∀ m ∈ ms, m.opId ≠ opDownloadEnd ∧ m.payload.length ≤ maxPayload)
    {m : WireMessage} (hm : m.payload.length ≤ maxPayload) {n : Nat} (hn : n < m.frame.length)
    (sawBegin : Bool) (bytes : Nat) (file : List UInt8) (fileWrites : List WriteAnswer)
    {s : Incoming UInt8} (hs : s.items = ms.flatMap WireMessage.frame ++ m.frame.take n) :
    receiveSqlFile sawBegin bytes file fileWrites s = none := by
  induction ms generalizing sawBegin bytes file fileWrites s with
  | nil =>
      obtain ⟨code, hstop, -⟩ := recvMessage_cut hm hn hs
      exact receiveSqlFile_stopped hstop sawBegin bytes file fileWrites
  | cons first ms ih =>
      obtain ⟨hfirst, hsize⟩ := hms first List.mem_cons_self
      rw [List.flatMap_cons, List.append_assoc] at hs
      obtain ⟨rest, hrecv, hrest⟩ := recvMessage_frame hsize hs
      have hnext := fun sawBegin bytes file fileWrites =>
        ih (fun m' hm' => hms m' (List.mem_cons_of_mem _ hm')) sawBegin bytes file fileWrites hrest
      have hend : first.received.1.opId ≠ opDownloadEnd := hfirst
      -- whichever message it is, the loop goes on or has failed
      rw [receiveSqlFile_round sawBegin bytes file fileWrites hrecv]
      simp only [hnext, if_neg hend, ite_self]

/-- On messages that arrive whole the loop returns what the loop over the messages of a
connection returns, in a file that takes every write. -/
theorem receiveSqlFile_isSome_iff {ms : List Message}
    (hms : ∀ m ∈ ms, m.payload.length ≤ maxPayload) {file : OutputFile}
    (hfile : ∀ i, file.writes i = true) (sawBegin : Bool) (written bytes n : Nat)
    (contents : List UInt8) {fileWrites : List WriteAnswer}
    (hwrites : ∀ a ∈ fileWrites, a.goesOn = true) (c : Client) {s : Incoming UInt8}
    (hs : s.items = (ms.map Message.wire).flatMap WireMessage.frame) :
    (receiveSqlFile sawBegin bytes contents fileWrites s).isSome = true ↔
      ∃ c', receiveSql file sawBegin written (ms.map fun m => (n, m)) c = some (true, c') := by
  induction ms generalizing sawBegin written bytes contents fileWrites c s with
  | nil =>
      obtain ⟨code, hstop, -⟩ := recvMessage_end hs
      rw [receiveSqlFile_stopped hstop]
      simp [receiveSql]
  | cons m ms ih =>
      have hsize : m.wire.payload.length ≤ maxPayload := hms m List.mem_cons_self
      rw [List.map_cons, List.flatMap_cons] at hs
      obtain ⟨rest, hrecv, hrest⟩ := recvMessage_frame hsize hs
      have hnext := fun sawBegin written bytes contents c =>
        ih (fun m' hm' => hms m' (List.mem_cons_of_mem _ hm')) sawBegin written bytes contents
          hwrites c hrest
      have hop : m.wire.received.1.opId = m.opId := rfl
      rw [List.map_cons, receiveSql]
      by_cases hbegin : m.opId = opDownloadBegin
      · rw [receiveSqlFile_round _ _ _ _ hrecv, hop, if_pos hbegin, if_pos hbegin]
        exact hnext true written bytes contents _
      · by_cases hchunk : m.opId = opDownloadChunk
        · cases sawBegin with
          | false =>
              rw [receiveSqlFile_round _ _ _ _ hrecv, hop, if_neg hbegin, if_pos hchunk,
                if_neg hbegin, if_pos hchunk]
              simp
          | true =>
              obtain ⟨fileWrites', behind, hround, hgoes, hbehind⟩ :=
                receiveSqlFile_chunk (m := m.wire) hchunk hsize bytes contents hwrites hs
              rw [hround, if_neg hbegin, if_pos hchunk]
              have hstep := fun written c =>
                ih (fun m' hm' => hms m' (List.mem_cons_of_mem _ hm')) true written
                  (bytes + m.wire.payload.length) (contents ++ m.wire.payload) hgoes c hbehind
              by_cases hempty : m.payload = []
              · rw [if_neg (by decide), if_pos hempty]
                exact hstep written _
              · rw [if_neg (by decide), if_neg hempty, if_pos (hfile written)]
                exact hstep (written + 1) _
        · rw [receiveSqlFile_round _ _ _ _ hrecv, hop, if_neg hbegin, if_neg hchunk,
            if_neg hbegin, if_neg hchunk]
          by_cases hend : m.opId = opDownloadEnd <;> simp [hend]

/-! ## The Python client -/

namespace PythonClient

/-- A received message is taken off the stream. -/
theorem length_recvMessage_lt {s rest : Incoming UInt8} {message : Nat × Nat × List UInt8}
    (h : recvMessage s = some (message, rest)) : rest.items.length < s.items.length := by
  have hrecvall : ∀ {size : Nat} {s rest : Incoming UInt8} {data : List UInt8},
      recvall size s = some (data, rest) → rest.items.length + size = s.items.length := by
    intro size s rest data hdata
    rw [recvall_eq] at hdata
    cases hread : readFull size s with
    | stopped code => simp only [hread, reduceCtorEq] at hdata
    | full bytes behind =>
        simp only [hread, Option.some.injEq, Prod.mk.injEq] at hdata
        rw [← hdata.2]
        exact length_readFull hread
  unfold recvMessage at h
  cases hheader : recvall 16 s with
  | none => simp only [hheader, reduceCtorEq] at h
  | some header =>
      obtain ⟨net, behind⟩ := header
      have hnet := hrecvall hheader
      simp only [hheader] at h
      split at h
      · obtain ⟨⟨payload, behind'⟩, hpayload, heq⟩ := Option.map_eq_some_iff.mp h
        have hmore := hrecvall hpayload
        obtain ⟨-, rfl⟩ := Prod.mk.inj heq
        show behind'.items.length < s.items.length
        omega
      · rw [← (Prod.mk.inj (Option.some.inj h)).2]
        omega

/-- The loop of `download_sql`, with the calls of `stream.write` that succeed; `none` is an
exception. -/
def receiveSql (writes : Nat → Bool) (sawBegin : Bool) (bytesWritten : Nat)
    (stream : List UInt8) (i : Nat) (s : Incoming UInt8) : Option SavedFile :=
  match _hrecv : recvMessage s with
  | none => none
  | some ((_, replyOp, payload), rest) =>
      if replyOp = opDownloadBegin.toNat then
        receiveSql writes true bytesWritten stream i rest
      else if replyOp = opDownloadChunk.toNat then
        if !sawBegin then
          none
        else if writes i then
          receiveSql writes sawBegin (bytesWritten + payload.length) (stream ++ payload) (i + 1)
            rest
        else
          none
      else if replyOp = opDownloadEnd.toNat then
        some ⟨stream, bytesWritten, rest⟩
      else
        none
  termination_by s.items.length
  decreasing_by all_goals exact length_recvMessage_lt _hrecv

/-- The calls of `download_sql`: `sendall`, `path.open`, the calls of `stream.write` and the
`close` at the end of the block. -/
structure SaveCalls where
  sends : Bool
  opens : Bool
  writes : Nat → Bool
  closes : Bool

/-- `download_sql`; `none` is an exception. -/
def downloadSql (calls : SaveCalls) (clientId : Nat) (s : Incoming UInt8) : Option SavedFile := do
  let _ ← sendMessage clientId opDownloadSql.toNat []
  if !calls.sends || !calls.opens then
    none
  else
    let saved ← receiveSql calls.writes false 0 [] 0 s
    if calls.closes then some saved else none

/-- No call of `download_sql` fails. -/
structure SaveCalls.Succeed (calls : SaveCalls) : Prop where
  sends : calls.sends = true
  opens : calls.opens = true
  writes : ∀ i, calls.writes i = true
  closes : calls.closes = true

/-- One round of the loop. -/
theorem receiveSql_round (writes : Nat → Bool) (sawBegin : Bool) (bytesWritten : Nat)
    (stream : List UInt8) (i : Nat) {s rest : Incoming UInt8} {replyClient replyOp : Nat}
    {payload : List UInt8} (hrecv : recvMessage s = some ((replyClient, replyOp, payload), rest)) :
    receiveSql writes sawBegin bytesWritten stream i s =
      if replyOp = opDownloadBegin.toNat then
        receiveSql writes true bytesWritten stream i rest
      else if replyOp = opDownloadChunk.toNat then
        if !sawBegin then
          none
        else if writes i then
          receiveSql writes sawBegin (bytesWritten + payload.length) (stream ++ payload) (i + 1)
            rest
        else
          none
      else if replyOp = opDownloadEnd.toNat then
        some ⟨stream, bytesWritten, rest⟩
      else
        none := by
  rw [receiveSql]
  split
  · next hnone =>
      rw [hrecv] at hnone
      cases hnone
  · next replyClient' replyOp' payload' rest' hmessage =>
      rw [hrecv, Option.some.injEq, Prod.mk.injEq, Prod.mk.injEq, Prod.mk.injEq] at hmessage
      obtain ⟨⟨-, rfl, rfl⟩, rfl⟩ := hmessage
      rfl

theorem receiveSql_none {s : Incoming UInt8} (hrecv : recvMessage s = none) (writes : Nat → Bool)
    (sawBegin : Bool) (bytesWritten : Nat) (stream : List UInt8) (i : Nat) :
    receiveSql writes sawBegin bytesWritten stream i s = none := by
  rw [receiveSql]
  split
  · rfl
  · next hmessage =>
      rw [hrecv] at hmessage
      cases hmessage

/-- A message that arrives whole is received, and nothing behind it is read. -/
theorem recvMessage_frame {m : WireMessage} (hsize : m.payload.length ≤ maxPayload)
    {s : Incoming UInt8} {more : List UInt8} (h : s.items = m.frame ++ more) :
    ∃ rest, recvMessage s = some (received m, rest) ∧ rest.items = more := by
  obtain ⟨rest, hrecv, hrest⟩ := SqlCodeGenerator.recvMessage_frame hsize h
  exact ⟨rest, recvMessage_received hrecv, hrest⟩

/-- A whole transfer is saved, and nothing behind it is read. -/
theorem receiveSql_transfer {chunks : List WireMessage} {last : WireMessage}
    (hchunks : ∀ m ∈ chunks, m.opId = opDownloadChunk ∧ m.payload.length ≤ maxPayload)
    (hlast : last.opId = opDownloadEnd) (hsize : last.payload.length ≤ maxPayload)
    {writes : Nat → Bool} (hwrites : ∀ i, writes i = true) (bytesWritten : Nat)
    (stream : List UInt8) (i : Nat) {s : Incoming UInt8} {more : List UInt8}
    (hs : s.items = (chunks ++ [last]).flatMap WireMessage.frame ++ more) :
    ∃ rest, receiveSql writes true bytesWritten stream i s =
        some ⟨stream ++ chunks.flatMap WireMessage.payload,
          bytesWritten + (chunks.flatMap WireMessage.payload).length, rest⟩ ∧
      rest.items = more := by
  induction chunks generalizing bytesWritten stream i s with
  | nil =>
      rw [List.nil_append, List.flatMap_singleton] at hs
      obtain ⟨rest, hrecv, hrest⟩ := recvMessage_frame hsize hs
      have hround := receiveSql_round writes true bytesWritten stream i hrecv
      have hbegin : opDownloadEnd.toNat ≠ opDownloadBegin.toNat := by decide
      have hchunk : opDownloadEnd.toNat ≠ opDownloadChunk.toNat := by decide
      rw [hlast, if_neg hbegin, if_neg hchunk, if_pos rfl] at hround
      refine ⟨rest, ?_, hrest⟩
      rw [hround, List.flatMap_nil, List.append_nil, List.length_nil, Nat.add_zero]
  | cons m chunks ih =>
      obtain ⟨hop, hm⟩ := hchunks m List.mem_cons_self
      rw [List.cons_append, List.flatMap_cons, List.append_assoc] at hs
      obtain ⟨behind, hrecv, hbehind⟩ := recvMessage_frame hm hs
      have hround := receiveSql_round writes true bytesWritten stream i hrecv
      have hbegin : opDownloadChunk.toNat ≠ opDownloadBegin.toNat := by decide
      rw [hop, if_neg hbegin, if_pos rfl, if_pos (hwrites i)] at hround
      obtain ⟨rest, hsaved, hrest⟩ := ih (fun m' hm' => hchunks m' (List.mem_cons_of_mem _ hm'))
        (bytesWritten + m.payload.length) (stream ++ m.payload) (i + 1) hbehind
      refine ⟨rest, ?_, hrest⟩
      rw [hround, List.flatMap_cons, ← List.append_assoc, List.length_append, ← Nat.add_assoc]
      exact hsaved

/-- Messages none of which ends a transfer, with a beginning of one more, save nothing. -/
theorem receiveSql_unended {ms : List WireMessage}
    (hms : ∀ m ∈ ms, m.opId ≠ opDownloadEnd ∧ m.payload.length ≤ maxPayload)
    {m : WireMessage} (hm : m.payload.length ≤ maxPayload) {n : Nat} (hn : n < m.frame.length)
    (writes : Nat → Bool) (sawBegin : Bool) (bytesWritten : Nat) (stream : List UInt8) (i : Nat)
    {s : Incoming UInt8} (hs : s.items = ms.flatMap WireMessage.frame ++ m.frame.take n) :
    receiveSql writes sawBegin bytesWritten stream i s = none := by
  induction ms generalizing sawBegin bytesWritten stream i s with
  | nil => exact receiveSql_none (recvMessage_cut hm hn hs) writes sawBegin bytesWritten stream i
  | cons first ms ih =>
      obtain ⟨hfirst, hsize⟩ := hms first List.mem_cons_self
      rw [List.flatMap_cons, List.append_assoc] at hs
      obtain ⟨rest, hrecv, hrest⟩ := recvMessage_frame hsize hs
      have hnext := fun sawBegin bytesWritten stream i =>
        ih (fun m' hm' => hms m' (List.mem_cons_of_mem _ hm')) sawBegin bytesWritten stream i hrest
      have hend : first.opId.toNat ≠ opDownloadEnd.toNat := fun heq =>
        hfirst (UInt32.toNat_inj.mp heq)
      rw [receiveSql_round writes sawBegin bytesWritten stream i hrecv]
      simp only [hnext, if_neg hend, ite_self]

end PythonClient

/-! ## Both ends -/

/-- What arrives of messages: the first ones whole, and behind them perhaps a beginning of
one more. -/
def ArrivesOf (ms : List WireMessage) (s : Incoming UInt8) : Prop :=
  ∃ (k : Nat) (m : WireMessage) (n : Nat), m.payload.length ≤ maxPayload ∧ n < m.frame.length ∧
    s.items = (ms.take k).flatMap WireMessage.frame ++ m.frame.take n

/-- The C client saves a transfer that arrives. -/
theorem saveSqlFile_transfer {calls : SaveCalls} (hcalls : calls.Succeed) {clientId : UInt32}
    {first last : WireMessage} {chunks : List WireMessage}
    (hfirst : first.opId = opDownloadBegin) (hfirstSize : first.payload.length ≤ maxPayload)
    (hchunks : ∀ m ∈ chunks, m.opId = opDownloadChunk ∧ m.payload.length ≤ maxPayload)
    (hlast : last.opId = opDownloadEnd) (hlastSize : last.payload.length ≤ maxPayload)
    {s : Incoming UInt8} {more : List UInt8}
    (hs : s.items = (first :: chunks ++ [last]).flatMap WireMessage.frame ++ more) :
    ∃ rest, saveSqlFile calls clientId s =
        some ⟨chunks.flatMap WireMessage.payload, (chunks.flatMap WireMessage.payload).length,
          rest⟩ ∧
      rest.items = more := by
  rw [List.cons_append, List.flatMap_cons, List.append_assoc] at hs
  obtain ⟨behind, hrecv, hbehind⟩ := recvMessage_frame hfirstSize hs
  obtain ⟨rest, hsaved, hrest⟩ :=
    receiveSqlFile_transfer hchunks hlast hlastSize 0 [] hcalls.fileWrites hbehind
  obtain ⟨_, hrequest, -⟩ := sendMessage_eq hcalls.socketWrites
    (m := ⟨clientId, opDownloadSql, []⟩) (Nat.zero_le _)
  have hsent : (sendMessage calls.socketWrites clientId opDownloadSql (some []) 0).1 = true :=
    congrArg Prod.fst hrequest
  have hround := receiveSqlFile_round false 0 [] calls.fileWrites hrecv
  have hheader : first.received.1.opId = opDownloadBegin := hfirst
  rw [if_pos hheader, hsaved, List.nil_append, Nat.zero_add] at hround
  refine ⟨rest, ?_, hrest⟩
  rw [saveSqlFile, hsent, hcalls.creates]
  exact hround

/-- The Python client saves a transfer that arrives. -/
theorem PythonClient.downloadSql_transfer {calls : PythonClient.SaveCalls}
    (hcalls : calls.Succeed) {clientId : UInt32}
    {first last : WireMessage} {chunks : List WireMessage}
    (hfirst : first.opId = opDownloadBegin) (hfirstSize : first.payload.length ≤ maxPayload)
    (hchunks : ∀ m ∈ chunks, m.opId = opDownloadChunk ∧ m.payload.length ≤ maxPayload)
    (hlast : last.opId = opDownloadEnd) (hlastSize : last.payload.length ≤ maxPayload)
    {s : Incoming UInt8} {more : List UInt8}
    (hs : s.items = (first :: chunks ++ [last]).flatMap WireMessage.frame ++ more) :
    ∃ rest, PythonClient.downloadSql calls clientId.toNat s =
        some ⟨chunks.flatMap WireMessage.payload, (chunks.flatMap WireMessage.payload).length,
          rest⟩ ∧
      rest.items = more := by
  rw [List.cons_append, List.flatMap_cons, List.append_assoc] at hs
  obtain ⟨behind, hrecv, hbehind⟩ := PythonClient.recvMessage_frame hfirstSize hs
  obtain ⟨rest, hsaved, hrest⟩ :=
    PythonClient.receiveSql_transfer hchunks hlast hlastSize hcalls.writes 0 [] 0 hbehind
  have hround := PythonClient.receiveSql_round calls.writes false 0 [] 0 hrecv
  rw [if_pos (congrArg UInt32.toNat hfirst), hsaved, List.nil_append, Nat.zero_add] at hround
  have hpack : PythonClient.sendMessage clientId.toNat opDownloadSql.toNat [] =
      some (WireMessage.frame ⟨clientId, opDownloadSql, []⟩) := by
    unfold PythonClient.sendMessage PythonClient.packHeader
    rw [if_pos ⟨by decide, clientId.toNat_lt, by decide, by decide⟩]
    rfl
  refine ⟨rest, ?_, hrest⟩
  simp only [PythonClient.downloadSql, hpack, hcalls.sends, hcalls.opens, hcalls.closes, hround,
    Option.bind_eq_bind, Option.bind_some, Bool.not_true, Bool.or_self, Bool.false_eq_true,
    if_false, if_true]

/-- Without an end of the transfer both clients fail, whatever their files do. -/
theorem downloads_unended {ms : List WireMessage}
    (hms : ∀ m ∈ ms, m.opId ≠ opDownloadEnd ∧ m.payload.length ≤ maxPayload)
    {s : Incoming UInt8} (hs : ArrivesOf ms s) (clientId : UInt32) :
    (∀ calls, saveSqlFile calls clientId s = none) ∧
      ∀ calls, PythonClient.downloadSql calls clientId.toNat s = none := by
  obtain ⟨k, m, n, hm, hn, hitems⟩ := hs
  have hwhole : ∀ m ∈ ms.take k, m.opId ≠ opDownloadEnd ∧ m.payload.length ≤ maxPayload :=
    fun m' hm' => hms m' (List.mem_of_mem_take hm')
  constructor
  · intro calls
    rw [saveSqlFile, receiveSqlFile_unended hwhole hm hn false 0 [] calls.fileWrites hitems,
      ite_self, ite_self]
  · intro calls
    simp only [PythonClient.downloadSql,
      PythonClient.receiveSql_unended hwhole hm hn calls.writes false 0 [] 0 hitems,
      Option.bind_eq_bind, Option.bind_none, ite_self, Option.bind_fun_none]

/-- When no call of the server fails, it sends the announcement, chunks and the end, and
from the bytes of these, however they arrive, both clients save the generated text, of the
size that was announced.  What the server sends for a download that it ends with
`OP_ERROR`, whole or cut off, makes both clients fail. -/
theorem download_end_to_end (calls : DownloadCalls) (r : Request) :
    (∀ tables, calls.Succeed tables → ∃ chunks text,
      sendGeneratedSqlFile (calls.env tables) r tables =
        (downloadBegin r tables :: chunks ++ [downloadEnd r], .ok text) ∧
      (∀ m ∈ chunks, m.opId = opDownloadChunk ∧ m.payload.length ≤ fileChunk) ∧
      ∀ socketWrites : List WriteAnswer, (∀ a ∈ socketWrites, a.goesOn = true) →
        ∃ bytes socketWrites', sendMessages socketWrites
            ((downloadBegin r tables :: chunks ++ [downloadEnd r]).map Message.wire) =
              (true, bytes, socketWrites') ∧
          ∀ (s : Incoming UInt8) (more : List UInt8), s.items = bytes ++ more →
            (∀ client : SaveCalls, client.Succeed → ∃ rest,
              saveSqlFile client r.clientId s =
                some ⟨generatedBytes tables, (generatedBytes tables).length, rest⟩ ∧
              rest.items = more) ∧
            ∀ client : PythonClient.SaveCalls, client.Succeed → ∃ rest,
              PythonClient.downloadSql client r.clientId.toNat s =
                some ⟨generatedBytes tables, (generatedBytes tables).length, rest⟩ ∧
              rest.items = more) ∧
    ∀ (env : RequestEnv) (state state' : SharedState) (h : Handled),
      r.opId = opDownloadSql → env.download = calls.env state.tables →
      handleRequest env r state = some (state', h) → h.respOp = opError →
      ∀ s : Incoming UInt8, ArrivesOf ((h.sent r).map Message.wire) s →
        (∀ client, saveSqlFile client r.clientId s = none) ∧
          ∀ client, PythonClient.downloadSql client r.clientId.toNat s = none := by
  constructor
  · intro tables hcalls
    obtain ⟨chunks, text, hsend, hchunks, hpayload⟩ := sendGeneratedSqlFile_transfer hcalls r
    refine ⟨chunks, text, hsend, hchunks, fun socketWrites hwrites => ?_⟩
    have hfirst : (downloadBegin r tables).wire.payload.length ≤ maxPayload :=
      length_downloadBegin_le r tables
    have hlast : (downloadEnd r).wire.payload.length ≤ maxPayload := by
      show ((lit "OK").map Subtype.val).length ≤ maxPayload
      decide +kernel
    have hwire : ∀ m ∈ chunks.map Message.wire,
        m.opId = opDownloadChunk ∧ m.payload.length ≤ maxPayload := by
      intro m hm
      obtain ⟨m', hm', rfl⟩ := List.mem_map.mp hm
      exact ⟨(hchunks m' hm').1, (hchunks m' hm').2.trans (by decide)⟩
    have hbytes :
        (chunks.map Message.wire).flatMap WireMessage.payload = generatedBytes tables := by
      rw [List.flatMap_map, ← hpayload]
      rfl
    have hall : (downloadBegin r tables :: chunks ++ [downloadEnd r]).map Message.wire =
        (downloadBegin r tables).wire :: chunks.map Message.wire ++ [(downloadEnd r).wire] := by
      rw [List.map_append, List.map_cons, List.map_singleton]
    have hsizes : ∀ m ∈ (downloadBegin r tables).wire :: chunks.map Message.wire ++
        [(downloadEnd r).wire], m.payload.length ≤ maxPayload := by
      intro m hm
      rcases List.mem_append.mp hm with hm | hm
      · rcases List.mem_cons.mp hm with rfl | hm
        · exact hfirst
        · exact (hwire m hm).2
      · obtain rfl := List.mem_singleton.mp hm
        exact hlast
    rw [hall]
    obtain ⟨socketWrites', hsent⟩ := sendMessages_eq hwrites hsizes
    refine ⟨_, socketWrites', hsent, fun s more hs => ⟨fun client hclient => ?_,
      fun client hclient => ?_⟩⟩
    · rw [← hbytes]
      exact saveSqlFile_transfer hclient rfl hfirst hwire rfl hlast hs
    · rw [← hbytes]
      exact PythonClient.downloadSql_transfer hclient rfl hfirst hwire rfl hlast hs
  · intro env state state' h hop hcalls hhandle herror s hs
    refine downloads_unended (fun m hm => ?_) hs r.clientId
    obtain ⟨m', hm', rfl⟩ := List.mem_map.mp hm
    exact sent_of_opError hop hcalls hhandle herror m' hm'

/-! ### The download of a table -/

/-- The text is written in two parts, and read in two with an interruption between. -/
def tableCalls : DownloadCalls where
  create := .ok ()
  fileWrites := [.accepted 10, .interrupted]
  writeReason := []
  reopen := .ok ()
  file :=
    ⟨Incoming.putBack ((generatedBytes plainTables).take 7)
      (.interrupted :: Incoming.putBack ((generatedBytes plainTables).drop 7) []), false⟩
  readReason := []
  sendsBegin := true
  sendsChunk := fun _ => true
  sendsEnd := true

/-- The same, but the second `read` fails. -/
def brokenCalls : DownloadCalls := { tableCalls with
  file := ⟨[.segment 67 [82, 69, 65]], true⟩
  readReason := lit "Input/output error" }

/-- The announcement and a chunk have been sent when it fails. -/
theorem brokenCalls_rounds : (brokenCalls.env plainTables).rounds =
    [.bytes [67, 82, 69, 65] true, .failed (lit "Input/output error")] := by
  show readRounds (lit "Input/output error") (fun _ => true) 0
    ⟨[.segment 67 [82, 69, 65]], true⟩ = _
  have hfirst : (⟨[.segment 67 [82, 69, 65]], true⟩ : Incoming UInt8).recv fileChunk =
      (.items [67, 82, 69, 65], ⟨[], true⟩) := rfl
  rw [readRounds_round, hfirst]
  dsimp only
  rw [readRounds_round]
  rfl

/-- The environment in which it fails. -/
def brokenEnv : RequestEnv := { quietEnv with download := brokenCalls.env plainTables }

/-- A client whose calls succeed. -/
def writableFile : SaveCalls := ⟨[], true, [.accepted 3, .interrupted]⟩

theorem download_end_to_end_table :
    (∃ s rest, saveSqlFile writableFile 1 s =
        some ⟨generatedBytes plainTables, (generatedBytes plainTables).length, rest⟩ ∧
      rest.items = []) ∧
    ∀ s : Incoming UInt8,
      ArrivesOf (((handleDownloadSql brokenEnv (plainRequest opDownloadSql) tableState).2.sent
        (plainRequest opDownloadSql)).map Message.wire) s →
        saveSqlFile writableFile 1 s = none := by
  have hfile : tableCalls.Succeed plainTables := by
    refine ⟨rfl, by decide, rfl, ?_, rfl, rfl, fun _ => rfl, rfl⟩
    decide +kernel
  have hclient : writableFile.Succeed := ⟨by decide, rfl, by decide⟩
  constructor
  · obtain ⟨chunks, text, -, -, hsent⟩ :=
      (download_end_to_end tableCalls (plainRequest opDownloadSql)).1 plainTables hfile
    obtain ⟨bytes, _, -, hsaves⟩ := hsent [] fun a ha => (by cases ha)
    have hitems : (⟨Incoming.putBack bytes [], false⟩ : Incoming UInt8).items = bytes ++ [] :=
      Incoming.items_putBack bytes []
    obtain ⟨rest, hsaved, hrest⟩ := (hsaves _ [] hitems).1 writableFile hclient
    exact ⟨_, rest, hsaved, hrest⟩
  · intro s hs
    have hcancel : tableState.cancelClientId ≠ toInt (plainRequest opDownloadSql).clientId := by
      decide
    have herror :
        (handleDownloadSql brokenEnv (plainRequest opDownloadSql) tableState).2.respOp =
          opError := by
      unfold handleDownloadSql sendGeneratedSqlFile
      rw [show brokenEnv.download.rounds = _ from brokenCalls_rounds]
      rfl
    exact ((download_end_to_end brokenCalls (plainRequest opDownloadSql)).2 brokenEnv tableState
      _ _ rfl rfl (handleRequest_downloadSql hcancel rfl) herror s hs).1 writableFile

end SqlCodeGenerator
