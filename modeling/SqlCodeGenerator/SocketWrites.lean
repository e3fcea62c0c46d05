import SqlCodeGenerator.InsertRequests
import SqlCodeGenerator.JobQueries
import SqlCodeGenerator.Library.SharedStreams
import SqlCodeGenerator.Protocol

/-!
# One socket, three threads

The worker, the ordinary interface and the admin interface may all hold a message
for the descriptor of one client.  `send_message` makes one `write_full` for the
header and one for the payload, and each of these one or more calls of `write`;
between two of them the other threads may write.

* `replies_decode`: as long as no call falls into the middle of a message of
  another thread, the client receives the messages of all of them whole.
* `interleavedReplies_garbled`: a reply and the answer to a question, header by
  header, are not received as they were sent.
-/

namespace SqlCodeGenerator

open Library

/-- The threads that send on the socket of an ordinary client. -/
inductive Sender where
  | worker
  | ordinary
  | admin
  deriving DecidableEq

instance : Fintype Sender := ⟨{.worker, .ordinary, .admin}, fun t => by cases t <;> decide⟩

instance : Nonempty Sender := ⟨.worker⟩

/-- A message of the server.  Every buffer it is sent from is shorter than
`SQLCG_MAX_PAYLOAD`. -/
abbrev ReplyMessage := { m : WireMessage // m.payload.length ≤ maxPayload }

/-- The buffers that `send_message` hands to `write_full`. -/
def ReplyMessage.buffers (m : ReplyMessage) : List (List UInt8) :=
  if m.val.payload = [] then [m.val.header.bytes] else [m.val.header.bytes, m.val.payload]

/-- The socket, with what the threads have in hand and have sent. -/
abbrev Socket := SharedStream Sender ReplyMessage UInt8

/-- A thread calls `send_message`, or makes a call of `write` that takes some
bytes. -/
abbrev SocketEvent := WriterEvent Sender ReplyMessage

/-- The socket of a new connection after a list of steps. -/
def socketAfter (events : List SocketEvent) : Option Socket :=
  runFrom (WriterEvent.step ReplyMessage.buffers) (SharedStream.empty ..) events

/-- No call of `write` falls into the middle of a message of another thread. -/
def WritesAlone (events : List SocketEvent) : Prop :=
  EveryStep (WriterEvent.step ReplyMessage.buffers) (Alone ReplyMessage.buffers)
    (SharedStream.empty ..) events

/-- However the bytes of the socket arrive, `recv_message` makes of them messages
that the threads have sent, in an order that keeps the order of each thread, and
then no further one. -/
def DecodesAsMerge (socket : Socket) : Prop :=
  ∃ order, Merges order socket.sent ∧ ∀ s : Incoming UInt8, s.items = socket.stream →
    ∃ rest, recvMessages order.length s =
        some (order.map fun entry => entry.2.val.received, rest) ∧
      ∃ code, recvMessage rest = .stopped code ∧ code ≤ 0

theorem ReplyMessage.flatten_buffers (m : ReplyMessage) : m.buffers.flatten = m.val.frame := by
  unfold buffers WireMessage.frame
  split
  · next hempty => simp [hempty]
  · simp

/-- The buffers are what `send_message` writes when nobody else does. -/
theorem sendMessage_buffers {answers : List WriteAnswer} (h : ∀ a ∈ answers, a.goesOn = true)
    (m : ReplyMessage) :
    ∃ rest, sendMessage answers m.val.clientId m.val.opId (some m.val.payload)
      (UInt32.ofNat m.val.payload.length) = (true, m.buffers.flatten, rest) := by
  obtain ⟨rest, hsend, -⟩ := sendMessage_eq h m.property
  exact ⟨rest, by rw [hsend, m.flatten_buffers]⟩

theorem ReplyMessage.buffers_filled (m : ReplyMessage) :
    m.buffers ≠ [] ∧ ∀ b ∈ m.buffers, b ≠ [] := by
  have hheader : m.val.header.bytes ≠ [] := by
    rw [← List.length_pos_iff, MsgHeader.length_bytes]
    decide
  unfold buffers
  split
  · simpa using hheader
  · next hpayload => simpa using ⟨hheader, hpayload⟩

theorem wholeMessages_append {ms : List WireMessage} {m : WireMessage} {part rest : List UInt8}
    (h : m.frame = part ++ rest) (hrest : rest ≠ []) :
    wholeMessages ((ms.flatMap WireMessage.frame).length + part.length) (ms ++ [m]) = ms := by
  have hcut : part.length < m.frame.length := by
    have hpos := List.length_pos_iff.mpr hrest
    rw [h, List.length_append]
    omega
  induction ms with
  | nil =>
      have hnot : ¬ m.frame.length ≤ 0 + part.length := by omega
      rw [List.nil_append, List.flatMap_nil, List.length_nil, wholeMessages, if_neg hnot]
  | cons first ms ih =>
      rw [List.flatMap_cons, List.length_append, List.cons_append, wholeMessages,
        if_pos (by omega)]
      rw [show first.frame.length + (ms.flatMap WireMessage.frame).length + part.length -
        first.frame.length = (ms.flatMap WireMessage.frame).length + part.length by omega, ih]

/-- In every run whose calls of `write` are alone, the client receives the messages
of all threads whole, in an order that keeps the order of each; and a thread has
sent all it was to send but for the message in its hand. -/
theorem replies_decode {events : List SocketEvent} {socket : Socket}
    (hrun : socketAfter events = some socket) (halone : WritesAlone events) :
    DecodesAsMerge socket ∧ ∀ t,
      socket.sent t ++ ((socket.hands t).map Prod.fst).toList = takenBy t events := by
  refine ⟨?_, fun t => takenBy_eq hrun t⟩
  obtain ⟨order, part, hmerges, hstream, hpart⟩ :=
    stream_of_alone ReplyMessage.buffers_filled hrun halone
  refine ⟨order, hmerges, fun s hs => ?_⟩
  let ms : List WireMessage := order.map fun entry => entry.2.val
  have hsize : ∀ m ∈ ms, m.payload.length ≤ maxPayload := by
    intro m hm
    obtain ⟨entry, -, rfl⟩ := List.mem_map.mp hm
    exact entry.2.property
  have hframes : (order.flatMap fun entry => entry.2.buffers.flatten) =
      ms.flatMap WireMessage.frame := by
    simp only [ReplyMessage.flatten_buffers, ms, List.flatMap_map]
  have hreceived : ms.map WireMessage.received =
      order.map fun entry => entry.2.val.received := by
    simp only [ms, List.map_map, Function.comp_def]
  rw [hstream, hframes] at hs
  have hlength : ms.length = order.length := List.length_map _
  rcases hpart with rfl | ⟨m, left, hm, hleft⟩
  · -- nothing is in the middle of a message
    have hall : s.items =
        (ms.flatMap WireMessage.frame).take (ms.flatMap WireMessage.frame).length := by
      rw [hs, List.append_nil, List.take_length]
    obtain ⟨rest, hrecv, -, hstop, -, -⟩ := recvMessages_take hsize hall
    rw [wholeMessages_of_le le_rfl, hlength, hreceived] at hrecv
    exact ⟨rest, hrecv, hstop⟩
  · -- one message has begun and is not received
    rw [ReplyMessage.flatten_buffers] at hm
    have hsize' : ∀ m' ∈ ms ++ [m.val], m'.payload.length ≤ maxPayload := by
      intro m' hm'
      rcases List.mem_append.mp hm' with hm' | hm'
      · exact hsize m' hm'
      · obtain rfl := List.mem_singleton.mp hm'
        exact m.property
    have hcut : s.items = ((ms ++ [m.val]).flatMap WireMessage.frame).take
        ((ms.flatMap WireMessage.frame).length + part.length) := by
      rw [hs, List.flatMap_append, List.take_length_add_append, List.flatMap_singleton, hm,
        List.take_left]
    obtain ⟨rest, hrecv, -, hstop, -, -⟩ := recvMessages_take hsize' hcut
    rw [wholeMessages_append hm hleft, hlength, hreceived] at hrecv
    exact ⟨rest, hrecv, hstop⟩

/-! ### A reply and an answer on one socket -/

/-- What `send_message` sends of a message. -/
def Message.wire (m : Message) : WireMessage := ⟨m.clientId, m.opId, m.payload⟩

/-- The reply to `OP_GENERATE_SQL` where no diagram is loaded. -/
def generateReply : ReplyMessage :=
  ⟨⟨1, opOk, (lit "job=1\n-- No ER diagram loaded.\n").map Subtype.val⟩, by decide +kernel⟩

/-- The answer to `OP_JOB_STATUS` at that time. -/
def statusAnswer : ReplyMessage :=
  ⟨⟨1, opOk, (lit "job=1 status=DONE op=20 queued=1 started=2 finished=3").map Subtype.val⟩,
    by decide +kernel⟩

/-- A client asks for the SQL, and for the state of that job before it has read the
reply. -/
def generateEvents : List Event :=
  [.interface (.connect 0 5 (lit "10.0.0.1")), .interface (.receive 1 5 1 opGenerateSql []),
    .interface .push, .pop, .begin 2, .handle quietEnv, .finish 3 1]

/-- The worker's reply in two calls of `write`, and the answer behind it. -/
def separateReplies : List SocketEvent :=
  [.take .worker generateReply, .write .worker 16, .take .ordinary statusAnswer,
    .write .worker 31, .write .ordinary 10, .write .ordinary 6, .write .ordinary 20]

/-- The same two messages, with the answer between the header and the payload of the
reply. -/
def interleavedReplies : List SocketEvent :=
  [.take .worker generateReply, .write .worker 16, .take .ordinary statusAnswer,
    .write .ordinary 16, .write .ordinary 53, .write .worker 31]

/-- The reply arrives whole while the answer is on its way. -/
theorem separateReplies_decode :
    ∃ socket, socketAfter separateReplies = some socket ∧ DecodesAsMerge socket ∧
      ∀ t, socket.sent t ++ ((socket.hands t).map Prod.fst).toList =
        takenBy t separateReplies := by
  have hsome : (socketAfter separateReplies).isSome = true := by decide +kernel
  obtain ⟨socket, hrun⟩ := Option.isSome_iff_exists.mp hsome
  exact ⟨socket, hrun, replies_decode hrun (by unfold WritesAlone; decide +kernel)⟩

/-- The first of several messages received is the one received first. -/
theorem recvMessages_one {count : Nat} {s rest : Incoming UInt8}
    {first : MsgHeader × Option (List UInt8)} {more : List (MsgHeader × Option (List UInt8))}
    (h : recvMessages (count + 1) s = some (first :: more, rest)) :
    ∃ rest, recvMessages 1 s = some ([first], rest) := by
  rw [recvMessages] at h ⊢
  cases hmessage : recvMessage s with
  | stopped code => simp [hmessage] at h
  | message header payload behind =>
      simp only [hmessage, Option.map_eq_some_iff, Prod.exists, Prod.mk.injEq] at h
      obtain ⟨received, behind', -, hfirst, -⟩ := h
      obtain ⟨rfl, -⟩ := List.cons.inj hfirst
      exact ⟨behind, rfl⟩

/-- What the client reads first is the header of the reply with bytes of the answer
behind it. -/
theorem interleavedReplies_garbled :
    (serve (Server.init 0) generateEvents).map (fun s =>
      (s.replies.map Message.wire, (respondJobInfo s.shared 5 1 opJobStatus none).wire)) =
        some ([generateReply.val], statusAnswer.val) ∧
    ∃ socket, socketAfter interleavedReplies = some socket ∧
      (∀ t, socket.hands t = none) ∧ ¬ DecodesAsMerge socket := by
  refine ⟨by decide +kernel, ?_⟩
  have hend : (socketAfter interleavedReplies).map (fun socket =>
      decide ((∀ t, socket.hands t = none) ∧
        (∀ t, ∀ m ∈ socket.sent t, m = generateReply ∨ m = statusAnswer) ∧
        socket.sent .worker ≠ [] ∧
        ∀ m ∈ [generateReply, statusAnswer],
          (recvMessages 1 ⟨Incoming.putBack socket.stream [], false⟩).map Prod.fst ≠
            some [m.val.received])) = some true := by
    decide +kernel
  obtain ⟨socket, hrun, hfacts⟩ := Option.map_eq_some_iff.mp hend
  obtain ⟨hidle, hsent, hworker, hfirst⟩ := of_decide_eq_true hfacts
  refine ⟨socket, hrun, hidle, fun hdecodes => ?_⟩
  obtain ⟨order, hmerges, hall⟩ := hdecodes
  obtain ⟨rest, hrecv, -⟩ := hall ⟨Incoming.putBack socket.stream [], false⟩ (by
    simp [Incoming.items, Incoming.items_putBack])
  cases order with
  | nil => exact hworker (hmerges .worker).symm
  | cons entry order =>
      -- the first entry is one of the two messages, and neither is received first
      have hentry : entry.2 ∈ socket.sent entry.1 := by
        rw [← hmerges entry.1]
        exact List.mem_map_of_mem (List.mem_filter.mpr ⟨List.mem_cons_self, by simp⟩)
      have hmem : entry.2 ∈ [generateReply, statusAnswer] := by
        simpa using hsent entry.1 entry.2 hentry
      obtain ⟨rest', hone⟩ := recvMessages_one hrecv
      refine hfirst entry.2 hmem ?_
      rw [hone]
      rfl

end SqlCodeGenerator
