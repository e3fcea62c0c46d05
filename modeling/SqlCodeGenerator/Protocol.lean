import SqlCodeGenerator.Library.Fragments

/-!
# The binary protocol

`read_full`, `write_full`, `send_message` and `recv_message` of `protocol.c`, and
the same two operations of `clients/python_client.py`.

A message is a header of four 32-bit numbers in network byte order and a payload
of as many bytes as the first of them says.  Both sides read in loops that go on
after a part of what they asked for; the C loops also go on after `EINTR`, which
the Python library does inside `recv` and `sendall`.  `malloc` is taken to
succeed.
-/

namespace SqlCodeGenerator

open Library

abbrev maxPayload : Nat := 1024 * 1024

/-! ## Network byte order -/

/-- The four bytes of a 32-bit number in network byte order. -/
def beBytes (n : Nat) : List UInt8 :=
  [UInt8.ofNat (n / 2 ^ 24), UInt8.ofNat (n / 2 ^ 16), UInt8.ofNat (n / 2 ^ 8), UInt8.ofNat n]

/-- The number that bytes in network byte order stand for. -/
def beNat (bytes : List UInt8) : Nat := bytes.foldl (fun n byte => n * 256 + byte.toNat) 0

/-- `htonl`, as the bytes it leaves in memory. -/
def htonl (n : UInt32) : List UInt8 := beBytes n.toNat

/-- `ntohl` of the bytes in memory. -/
def ntohl (bytes : List UInt8) : UInt32 := UInt32.ofNat (beNat bytes)

theorem beNat_beBytes {n : Nat} (h : n < 2 ^ 32) : beNat (beBytes n) = n := by
  simp only [beNat, beBytes, List.foldl_cons, List.foldl_nil, UInt8.toNat_ofNat']
  omega

theorem beNat_lt {bytes : List UInt8} (h : bytes.length ≤ 4) : beNat bytes < 2 ^ 32 := by
  have hfold : ∀ (bytes : List UInt8) (n k : Nat), n < 256 ^ k →
      bytes.foldl (fun n byte => n * 256 + byte.toNat) n < 256 ^ (k + bytes.length) := by
    intro bytes
    induction bytes with
    | nil => simp
    | cons byte bytes ih =>
        intro n k hn
        have hbyte : byte.toNat < 256 := byte.toNat_lt
        have hstep : n * 256 + byte.toNat < 256 ^ (k + 1) := by
          rw [Nat.pow_succ]
          omega
        have hrest := ih _ _ hstep
        rwa [show k + 1 + bytes.length = k + (byte :: bytes).length by simp; omega] at hrest
  have hlt := hfold bytes 0 0 (by decide)
  refine Nat.lt_of_lt_of_le hlt ?_
  rw [Nat.zero_add, show (2 : Nat) ^ 32 = 256 ^ 4 by decide]
  exact Nat.pow_le_pow_right (by decide) h

theorem toNat_ntohl {bytes : List UInt8} (h : bytes.length ≤ 4) :
    (ntohl bytes).toNat = beNat bytes := by
  unfold ntohl
  rw [UInt32.toNat_ofNat']
  exact Nat.mod_eq_of_lt (beNat_lt h)

theorem ntohl_htonl (n : UInt32) : ntohl (htonl n) = n := by
  unfold ntohl htonl
  rw [beNat_beBytes n.toNat_lt]
  exact UInt32.ofNat_toNat

/-! ## Messages -/

/-- `MsgHeader`. -/
structure MsgHeader where
  msgSize : UInt32
  clientId : UInt32
  opId : UInt32
  flags : UInt32
  deriving DecidableEq

/-- The bytes of a header with its fields converted by `htonl`. -/
def MsgHeader.bytes (h : MsgHeader) : List UInt8 :=
  htonl h.msgSize ++ htonl h.clientId ++ htonl h.opId ++ htonl h.flags

/-- `sizeof(MsgHeader)`. -/
abbrev headerSize : Nat := 16

/-- The header in bytes read from the network, its fields converted by `ntohl`. -/
def MsgHeader.ofBytes (net : List UInt8) : MsgHeader where
  msgSize := ntohl (net.take 4)
  clientId := ntohl ((net.drop 4).take 4)
  opId := ntohl ((net.drop 8).take 4)
  flags := ntohl ((net.drop 12).take 4)

/-- What a caller of `send_message` sends. -/
structure WireMessage where
  clientId : UInt32
  opId : UInt32
  payload : List UInt8
  deriving DecidableEq

/-- The header of a message. -/
def WireMessage.header (m : WireMessage) : MsgHeader :=
  ⟨UInt32.ofNat m.payload.length, m.clientId, m.opId, 0⟩

/-- The bytes of a message. -/
def WireMessage.frame (m : WireMessage) : List UInt8 := m.header.bytes ++ m.payload

@[simp] theorem MsgHeader.length_bytes (h : MsgHeader) : h.bytes.length = headerSize := rfl

/-- A header is read as it was written. -/
theorem MsgHeader.ofBytes_bytes (h : MsgHeader) : MsgHeader.ofBytes h.bytes = h := by
  -- every field stands at its own four bytes
  have hfields : MsgHeader.ofBytes h.bytes = ⟨ntohl (htonl h.msgSize), ntohl (htonl h.clientId),
      ntohl (htonl h.opId), ntohl (htonl h.flags)⟩ := rfl
  rw [hfields, ntohl_htonl, ntohl_htonl, ntohl_htonl, ntohl_htonl]

@[simp] theorem WireMessage.length_frame (m : WireMessage) :
    m.frame.length = headerSize + m.payload.length := by
  simp [frame]

/-! ## Writing -/

/-- `write_full`: whether it returns 0, the bytes that were written, and the
answers of `write` that it has not met. -/
def writeFull : List WriteAnswer → List UInt8 → Bool × List UInt8 × List WriteAnswer
  | answers, [] => (true, [], answers)
  | [], bytes => (true, bytes, [])
  | .interrupted :: answers, bytes => writeFull answers bytes
  | .failed :: answers, _ => (false, [], answers)
  | .accepted count :: answers, bytes =>
      if count = 0 then
        (false, [], answers)
      else
        let (ok, written, rest) := writeFull answers (bytes.drop count)
        (ok, bytes.take count ++ written, rest)

/-- `send_message`: the header, and the payload if there is one. -/
def sendMessage (answers : List WriteAnswer) (clientId opId : UInt32)
    (payload : Option (List UInt8)) (size : UInt32) : Bool × List UInt8 × List WriteAnswer :=
  match writeFull answers (MsgHeader.bytes ⟨size, clientId, opId, 0⟩) with
  | (false, written, rest) => (false, written, rest)
  | (true, written, rest) =>
      match payload with
      | none => (true, written, rest)
      | some bytes =>
          if size > 0 then
            let (ok, more, rest) := writeFull rest (bytes.take size.toNat)
            (ok, written ++ more, rest)
          else
            (true, written, rest)

/-- Calls of `send_message` one after the other, while they succeed. -/
def sendMessages : List WriteAnswer → List WireMessage → Bool × List UInt8 × List WriteAnswer
  | answers, [] => (true, [], answers)
  | answers, m :: ms =>
      match sendMessage answers m.clientId m.opId (some m.payload)
        (UInt32.ofNat m.payload.length) with
      | (false, written, rest) => (false, written, rest)
      | (true, written, rest) =>
          let (ok, more, rest) := sendMessages rest ms
          (ok, written ++ more, rest)

/-- Whatever parts are accepted, the whole buffer is written. -/
theorem writeFull_eq {answers : List WriteAnswer} (h : ∀ a ∈ answers, a.goesOn = true)
    (bytes : List UInt8) :
    ∃ rest, writeFull answers bytes = (true, bytes, rest) ∧ ∀ a ∈ rest, a.goesOn = true := by
  induction answers generalizing bytes with
  | nil => cases bytes <;> exact ⟨[], rfl, h⟩
  | cons answer answers ih =>
      have hanswers : ∀ a ∈ answers, a.goesOn = true := fun a ha => h a (List.mem_cons_of_mem _ ha)
      cases bytes with
      | nil => exact ⟨_, rfl, h⟩
      | cons byte bytes =>
          cases answer with
          | interrupted => exact ih hanswers (byte :: bytes)
          | failed => exact absurd (h _ List.mem_cons_self) (by decide)
          | accepted count =>
              have hcount : count ≠ 0 := by
                have hgoes := h _ List.mem_cons_self
                simp only [WriteAnswer.goesOn, decide_eq_true_eq] at hgoes
                omega
              obtain ⟨rest, hrest, hgoes⟩ := ih hanswers ((byte :: bytes).drop count)
              refine ⟨rest, ?_, hgoes⟩
              rw [writeFull, if_neg hcount, hrest]
              · simp only [List.take_append_drop]
              · simp

/-- A message is written as its header and its payload. -/
theorem sendMessage_eq {answers : List WriteAnswer} (h : ∀ a ∈ answers, a.goesOn = true)
    {m : WireMessage} (hsize : m.payload.length ≤ maxPayload) :
    ∃ rest, sendMessage answers m.clientId m.opId (some m.payload)
        (UInt32.ofNat m.payload.length) = (true, m.frame, rest) ∧ ∀ a ∈ rest, a.goesOn = true := by
  have hnat : (UInt32.ofNat m.payload.length).toNat = m.payload.length := by
    have hbound : m.payload.length ≤ 1024 * 1024 := hsize
    rw [UInt32.toNat_ofNat']
    exact Nat.mod_eq_of_lt (by omega)
  obtain ⟨rest, hheader, hgoes⟩ := writeFull_eq h m.header.bytes
  unfold sendMessage
  rw [show MsgHeader.bytes ⟨UInt32.ofNat m.payload.length, m.clientId, m.opId, 0⟩ =
    m.header.bytes from rfl, hheader]
  simp only
  split
  · obtain ⟨rest', hpayload, hgoes'⟩ := writeFull_eq hgoes m.payload
    refine ⟨rest', ?_, hgoes'⟩
    rw [hnat, List.take_length, hpayload]
    rfl
  · next hzero =>
      have hempty : m.payload = [] := by
        rw [gt_iff_lt, UInt32.lt_iff_toNat_lt, hnat] at hzero
        exact List.eq_nil_of_length_eq_zero (by simpa using hzero)
      exact ⟨rest, by simp [WireMessage.frame, hempty], hgoes⟩

theorem sendMessages_eq {answers : List WriteAnswer} (h : ∀ a ∈ answers, a.goesOn = true)
    {ms : List WireMessage} (hsize : ∀ m ∈ ms, m.payload.length ≤ maxPayload) :
    ∃ rest, sendMessages answers ms = (true, ms.flatMap WireMessage.frame, rest) := by
  induction ms generalizing answers with
  | nil => exact ⟨answers, rfl⟩
  | cons m ms ih =>
      obtain ⟨rest, hsend, hgoes⟩ := sendMessage_eq h (hsize m List.mem_cons_self)
      obtain ⟨rest', hmore⟩ := ih hgoes fun m' hm' => hsize m' (List.mem_cons_of_mem _ hm')
      refine ⟨rest', ?_⟩
      rw [sendMessages, hsend]
      simp only [hmore, List.flatMap_cons]

/-! ## Reading -/

/-- The result of `read_full`: 1 with the bytes read, or 0, or -1. -/
inductive ReadResult where
  | full (bytes : List UInt8) (rest : Incoming UInt8)
  | stopped (code : Int)

/-- The bytes read before stand in front of those read after. -/
def ReadResult.after (bytes : List UInt8) : ReadResult → ReadResult
  | full more rest => full (bytes ++ more) rest
  | stopped code => stopped code

/-- `read_full` of `len - got` bytes: the loop around `recv`. -/
def readFull (len : Nat) (s : Incoming UInt8) : ReadResult :=
  if _hlen : len = 0 then
    .full [] s
  else
    match _hrecv : s.recv len with
    | (.items bytes, s') => (readFull (len - bytes.length) s').after bytes
    | (.interrupted, s') => readFull len s'
    | (.closed, _) => .stopped 0
    | (.failed, _) => .stopped (-1)
  termination_by s.weight
  decreasing_by
    · have hspec := s.recv_spec (Nat.pos_of_ne_zero _hlen)
      rw [_hrecv] at hspec
      cases hspec with
      | items _ _ _ _ _ _ hweight => exact hweight
    · have hspec := s.recv_spec (Nat.pos_of_ne_zero _hlen)
      rw [_hrecv] at hspec
      cases hspec with
      | interrupted _ _ _ hweight => exact hweight

/-- The result of `recv_message`: 1 with the header and the payload (NULL when it
is empty), or a value that is not positive. -/
inductive RecvResult where
  | message (header : MsgHeader) (payload : Option (List UInt8)) (rest : Incoming UInt8)
  | stopped (code : Int)

/-- `recv_message`. -/
def recvMessage (s : Incoming UInt8) : RecvResult :=
  match readFull headerSize s with
  | .stopped code => .stopped code
  | .full net s =>
      let header := MsgHeader.ofBytes net
      if header.msgSize.toNat > maxPayload then
        .stopped (-1)
      else if header.msgSize > 0 then
        match readFull header.msgSize.toNat s with
        | .stopped code => .stopped code
        | .full payload s => .message header (some payload) s
      else
        .message header none s

/-- So many calls of `recv_message` one after the other, if they all return 1. -/
def recvMessages : Nat → Incoming UInt8 →
    Option (List (MsgHeader × Option (List UInt8)) × Incoming UInt8)
  | 0, s => some ([], s)
  | count + 1, s =>
      match recvMessage s with
      | .stopped _ => none
      | .message header payload s =>
          (recvMessages count s).map fun (received, s) => ((header, payload) :: received, s)

/-- What `recv_message` makes of a message. -/
def WireMessage.received (m : WireMessage) : MsgHeader × Option (List UInt8) :=
  (m.header, if m.payload = [] then none else some m.payload)

/-- One round of the loop of `read_full`. -/
theorem readFull_round {len : Nat} (hlen : len ≠ 0) (s : Incoming UInt8) :
    readFull len s = match s.recv len with
      | (.items bytes, s') => (readFull (len - bytes.length) s').after bytes
      | (.interrupted, s') => readFull len s'
      | (.closed, _) => .stopped 0
      | (.failed, _) => .stopped (-1) := by
  rw [readFull, dif_neg hlen]
  split <;> simp [*]

/-- Where enough bytes arrive, `read_full` returns the first of them. -/
theorem readFull_of_le {len : Nat} {s : Incoming UInt8} (h : len ≤ s.items.length) :
    ∃ rest, readFull len s = .full (s.items.take len) rest ∧ rest.items = s.items.drop len := by
  induction hweight : s.weight using Nat.strong_induction_on generalizing len s with
  | _ weight ih =>
      by_cases hlen : len = 0
      · subst hlen
        exact ⟨s, by rw [readFull, dif_pos rfl, List.take_zero], rfl⟩
      · rw [readFull_round hlen]
        have hspec := s.recv_spec (Nat.pos_of_ne_zero hlen)
        generalize s.recv len = answer at hspec
        cases hspec with
        | items bytes s' hne hlimit hitems hfails hless =>
            rw [hitems, List.length_append] at h
            obtain ⟨rest, hread, hrest⟩ :=
              @ih s'.weight (hweight ▸ hless) (len - bytes.length) s' (by omega) rfl
            refine ⟨rest, ?_, ?_⟩
            · simp only [hread, ReadResult.after]
              rw [hitems, List.take_append, List.take_of_length_le hlimit]
            · rw [hrest, hitems, List.drop_append, List.drop_of_length_le hlimit,
                List.nil_append]
        | interrupted s' hitems hfails hless =>
            rw [← hitems] at h ⊢
            exact ih _ (hweight ▸ hless) h rfl
        | closed hitems hfails => simp [hitems] at h; omega
        | failed hitems hfails => simp [hitems] at h; omega

/-- Where the stream ends too early, `read_full` returns 0 or -1. -/
theorem readFull_of_lt {len : Nat} {s : Incoming UInt8} (h : s.items.length < len) :
    ∃ code, readFull len s = .stopped code ∧ code ≤ 0 := by
  induction hweight : s.weight using Nat.strong_induction_on generalizing len s with
  | _ weight ih =>
      have hlen : len ≠ 0 := by omega
      rw [readFull_round hlen]
      have hspec := s.recv_spec (Nat.pos_of_ne_zero hlen)
      generalize s.recv len = answer at hspec
      cases hspec with
      | items bytes s' hne hlimit hitems hfails hless =>
          rw [hitems, List.length_append] at h
          obtain ⟨code, hread, hcode⟩ :=
            @ih s'.weight (hweight ▸ hless) (len - bytes.length) s' (by omega) rfl
          exact ⟨code, by simp only [hread, ReadResult.after], hcode⟩
      | interrupted s' hitems hfails hless =>
          rw [← hitems] at h
          exact ih _ (hweight ▸ hless) h rfl
      | closed hitems hfails => exact ⟨0, rfl, le_refl 0⟩
      | failed hitems hfails => exact ⟨-1, rfl, by decide⟩

/-! ### Messages, read from a stream -/

theorem WireMessage.toNat_msgSize {m : WireMessage} (hsize : m.payload.length ≤ maxPayload) :
    m.header.msgSize.toNat = m.payload.length := by
  have hbound : m.payload.length ≤ 1024 * 1024 := hsize
  unfold WireMessage.header
  rw [UInt32.toNat_ofNat']
  exact Nat.mod_eq_of_lt (by omega)

/-- A message that arrives whole is received, and nothing behind it is read. -/
theorem recvMessage_frame {m : WireMessage} (hsize : m.payload.length ≤ maxPayload)
    {s : Incoming UInt8} {more : List UInt8} (h : s.items = m.frame ++ more) :
    ∃ rest, recvMessage s = .message m.received.1 m.received.2 rest ∧ rest.items = more := by
  have hnat := WireMessage.toNat_msgSize hsize
  have hwhole : headerSize ≤ s.items.length := by
    rw [h, List.length_append, WireMessage.length_frame]
    omega
  obtain ⟨behind, hread, hbehind⟩ := readFull_of_le hwhole
  have hnet : s.items.take headerSize = m.header.bytes := by
    rw [h, WireMessage.frame, List.append_assoc, List.take_left' (MsgHeader.length_bytes _)]
  have hpayload : behind.items = m.payload ++ more := by
    rw [hbehind, h, WireMessage.frame, List.append_assoc,
      List.drop_left' (MsgHeader.length_bytes _)]
  unfold recvMessage
  rw [hread, hnet]
  simp only [MsgHeader.ofBytes_bytes, hnat, gt_iff_lt, Nat.not_lt.mpr hsize, if_false]
  by_cases hempty : m.payload = []
  · have hzero : ¬ 0 < m.header.msgSize := by
      rw [UInt32.lt_iff_toNat_lt, hnat, hempty]
      decide
    rw [if_neg hzero]
    exact ⟨behind, by simp [WireMessage.received, hempty], by rw [hpayload, hempty]; rfl⟩
  · have hpos : 0 < m.header.msgSize := by
      rw [UInt32.lt_iff_toNat_lt, hnat]
      exact List.length_pos_iff.mpr hempty
    have henough : m.payload.length ≤ behind.items.length := by
      rw [hpayload, List.length_append]
      exact Nat.le_add_right _ _
    obtain ⟨rest, hread', hrest⟩ := readFull_of_le henough
    rw [if_pos hpos, hread']
    refine ⟨rest, ?_, ?_⟩
    · rw [hpayload, List.take_left]
      simp [WireMessage.received, hempty]
    · rw [hrest, hpayload, List.drop_left]

/-- A message of which the end is missing is not received. -/
theorem recvMessage_cut {m : WireMessage} (hsize : m.payload.length ≤ maxPayload)
    {s : Incoming UInt8} {n : Nat} (hn : n < m.frame.length) (h : s.items = m.frame.take n) :
    ∃ code, recvMessage s = .stopped code ∧ code ≤ 0 := by
  have hnat := WireMessage.toNat_msgSize hsize
  have hlen : s.items.length = n := by
    rw [h, List.length_take]
    omega
  unfold recvMessage
  -- the cut is inside the header or inside the payload
  by_cases hheader : n < headerSize
  · obtain ⟨code, hread, hcode⟩ := readFull_of_lt (hlen ▸ hheader)
    exact ⟨code, by rw [hread], hcode⟩
  · obtain ⟨behind, hread, hbehind⟩ := readFull_of_le (hlen ▸ Nat.not_lt.mp hheader)
    have hnet : s.items.take headerSize = m.header.bytes := by
      rw [h, List.take_take, Nat.min_eq_left (Nat.not_lt.mp hheader), WireMessage.frame,
        List.take_left' (MsgHeader.length_bytes _)]
    have hshort : behind.items.length < m.payload.length := by
      rw [WireMessage.length_frame] at hn
      rw [hbehind, List.length_drop, hlen]
      omega
    rw [hread, hnet]
    simp only [MsgHeader.ofBytes_bytes, hnat, gt_iff_lt, Nat.not_lt.mpr hsize, if_false]
    have hpos : 0 < m.header.msgSize := by
      rw [UInt32.lt_iff_toNat_lt, hnat]
      exact Nat.lt_of_le_of_lt (Nat.zero_le _) hshort
    obtain ⟨code, hread', hcode⟩ := readFull_of_lt hshort
    rw [if_pos hpos, hread']
    exact ⟨code, rfl, hcode⟩

/-- At the end of the stream no message is received. -/
theorem recvMessage_end {s : Incoming UInt8} (h : s.items = []) :
    ∃ code, recvMessage s = .stopped code ∧ code ≤ 0 := by
  have hshort : s.items.length < headerSize := by
    rw [h]
    decide
  obtain ⟨code, hread, hcode⟩ := readFull_of_lt hshort
  unfold recvMessage
  exact ⟨code, by rw [hread], hcode⟩

/-! ## The Python client -/

namespace PythonClient

/-- `struct.pack("!IIII", …)`; `none` is `struct.error`. -/
def packHeader (size clientId opId flags : Nat) : Option (List UInt8) :=
  if size < 2 ^ 32 ∧ clientId < 2 ^ 32 ∧ opId < 2 ^ 32 ∧ flags < 2 ^ 32 then
    some (beBytes size ++ beBytes clientId ++ beBytes opId ++ beBytes flags)
  else
    none

/-- `send_message`: the bytes handed to `sendall`. -/
def sendMessage (clientId opId : Nat) (payload : List UInt8) : Option (List UInt8) :=
  (packHeader payload.length clientId opId 0).map fun header =>
    if payload ≠ [] then header ++ payload else header

/-- Calls of `send_message` one after the other. -/
def sendMessages : List WireMessage → Option (List UInt8)
  | [] => some []
  | m :: ms => do
      let bytes ← sendMessage m.clientId.toNat m.opId.toNat m.payload
      let more ← sendMessages ms
      some (bytes ++ more)

/-- `recvall` of `size - len(data)` bytes; `none` is an exception.  An interrupted
`recv` is called again by the library. -/
def recvall (size : Nat) (s : Incoming UInt8) : Option (List UInt8 × Incoming UInt8) :=
  if _hsize : size = 0 then
    some ([], s)
  else
    match _hrecv : s.recv size with
    | (.items chunk, s') =>
        (recvall (size - chunk.length) s').map fun (data, s) => (chunk ++ data, s)
    | (.interrupted, s') => recvall size s'
    | (.closed, _) => none
    | (.failed, _) => none
  termination_by s.weight
  decreasing_by
    · have hspec := s.recv_spec (Nat.pos_of_ne_zero _hsize)
      rw [_hrecv] at hspec
      cases hspec with
      | items _ _ _ _ _ _ hweight => exact hweight
    · have hspec := s.recv_spec (Nat.pos_of_ne_zero _hsize)
      rw [_hrecv] at hspec
      cases hspec with
      | interrupted _ _ _ hweight => exact hweight

/-- `recv_message`: `client_id`, `op_id` and the payload. -/
def recvMessage (s : Incoming UInt8) : Option ((Nat × Nat × List UInt8) × Incoming UInt8) :=
  match recvall 16 s with
  | none => none
  | some (net, s) =>
      let msgSize := beNat (net.take 4)
      let clientId := beNat ((net.drop 4).take 4)
      let opId := beNat ((net.drop 8).take 4)
      if msgSize ≠ 0 then
        (recvall msgSize s).map fun (payload, s) => ((clientId, opId, payload), s)
      else
        some ((clientId, opId, []), s)

/-- So many calls of `recv_message` one after the other, if none raises. -/
def recvMessages : Nat → Incoming UInt8 → Option (List (Nat × Nat × List UInt8) × Incoming UInt8)
  | 0, s => some ([], s)
  | count + 1, s => do
      let (m, s) ← recvMessage s
      let (ms, s) ← recvMessages count s
      some (m :: ms, s)

/-- What `recv_message` makes of a message. -/
def received (m : WireMessage) : Nat × Nat × List UInt8 :=
  (m.clientId.toNat, m.opId.toNat, m.payload)

/-- `recvall` reads what `read_full` reads, and raises where that returns 0 or -1. -/
theorem recvall_eq (size : Nat) (s : Incoming UInt8) :
    recvall size s = match readFull size s with
      | .full bytes rest => some (bytes, rest)
      | .stopped _ => none := by
  -- an interrupted call reads nothing, so the induction is on the weight of the stream
  induction hweight : s.weight using Nat.strong_induction_on generalizing size s with
  | _ weight ih =>
      by_cases hsize : size = 0
      · subst hsize
        rw [recvall, dif_pos rfl, readFull, dif_pos rfl]
      · have hround : recvall size s = match s.recv size with
            | (.items chunk, s') =>
                (recvall (size - chunk.length) s').map fun (data, s) => (chunk ++ data, s)
            | (.interrupted, s') => recvall size s'
            | (.closed, _) => none
            | (.failed, _) => none := by
          rw [recvall, dif_neg hsize]
          split <;> simp [*]
        rw [hround, readFull_round hsize]
        have hspec := s.recv_spec (Nat.pos_of_ne_zero hsize)
        generalize s.recv size = answer at hspec
        cases hspec with
        | items bytes s' hne hlimit hitems hfails hless =>
            simp only [ih _ (hweight ▸ hless) (size - bytes.length) s' rfl]
            cases readFull (size - bytes.length) s' with
            | full more rest => rfl
            | stopped code => rfl
        | interrupted s' hitems hfails hless => exact ih _ (hweight ▸ hless) size s' rfl
        | closed hitems hfails => rfl
        | failed hitems hfails => rfl

/-- The client sends the bytes that `send_message` of the server side writes. -/
theorem sendMessages_eq {ms : List WireMessage} (hsize : ∀ m ∈ ms, m.payload.length ≤ maxPayload) :
    sendMessages ms = some (ms.flatMap WireMessage.frame) := by
  induction ms with
  | nil => rfl
  | cons m ms ih =>
      have hnat := WireMessage.toNat_msgSize (hsize m List.mem_cons_self)
      have hlen : m.payload.length < 2 ^ 32 := hnat ▸ m.header.msgSize.toNat_lt
      have hpack : packHeader m.payload.length m.clientId.toNat m.opId.toNat 0 =
          some m.header.bytes := by
        unfold packHeader
        rw [if_pos ⟨hlen, m.clientId.toNat_lt, m.opId.toNat_lt, by decide⟩, ← hnat]
        rfl
      have hsend : sendMessage m.clientId.toNat m.opId.toNat m.payload = some m.frame := by
        unfold sendMessage
        rw [hpack, Option.map_some, WireMessage.frame]
        by_cases hempty : m.payload = [] <;> simp [hempty]
      rw [sendMessages, hsend, ih fun m' hm' => hsize m' (List.mem_cons_of_mem _ hm')]
      rfl

/-- `struct.unpack` and the `ntohl` of every field give the same numbers. -/
theorem unpack_eq (net : List UInt8) :
    beNat (net.take 4) = (MsgHeader.ofBytes net).msgSize.toNat ∧
    beNat ((net.drop 4).take 4) = (MsgHeader.ofBytes net).clientId.toNat ∧
    beNat ((net.drop 8).take 4) = (MsgHeader.ofBytes net).opId.toNat := by
  have hfield : ∀ bytes : List UInt8, beNat (bytes.take 4) = (ntohl (bytes.take 4)).toNat := by
    intro bytes
    rw [toNat_ntohl (List.length_take_le 4 bytes)]
  exact ⟨hfield _, hfield _, hfield _⟩

/-- What `recv_message` of the server side receives, the client receives. -/
theorem recvMessage_of_message {s rest : Incoming UInt8} {header : MsgHeader}
    {payload : Option (List UInt8)}
    (h : SqlCodeGenerator.recvMessage s = .message header payload rest) :
    recvMessage s = some ((header.clientId.toNat, header.opId.toNat, payload.getD []), rest) := by
  unfold SqlCodeGenerator.recvMessage at h
  unfold recvMessage
  rw [recvall_eq, show 16 = headerSize from rfl]
  cases hread : readFull headerSize s with
  | stopped code => simp [hread] at h
  | full net behind =>
      obtain ⟨hmsgSize, hclientId, hopId⟩ := unpack_eq net
      simp only [hread] at h ⊢
      rw [hmsgSize, hclientId, hopId]
      split at h
      · cases h
      · split at h
        · next hpos =>
            have hne : (MsgHeader.ofBytes net).msgSize.toNat ≠ 0 := by
              rw [gt_iff_lt, UInt32.lt_iff_toNat_lt] at hpos
              exact Nat.ne_of_gt hpos
            rw [if_pos hne, recvall_eq]
            cases hread' : readFull (MsgHeader.ofBytes net).msgSize.toNat behind with
            | stopped code => simp [hread'] at h
            | full bytes behind' =>
                simp only [hread', RecvResult.message.injEq] at h
                obtain ⟨rfl, rfl, rfl⟩ := h
                rfl
        · next hzero =>
            have heq : ¬ (MsgHeader.ofBytes net).msgSize.toNat ≠ 0 := by
              rw [gt_iff_lt, UInt32.lt_iff_toNat_lt] at hzero
              exact fun hne => hzero (Nat.pos_of_ne_zero hne)
            simp only [RecvResult.message.injEq] at h
            obtain ⟨rfl, rfl, rfl⟩ := h
            rw [if_neg heq]
            rfl

theorem recvMessage_received {m : WireMessage} {s rest : Incoming UInt8}
    (h : SqlCodeGenerator.recvMessage s = .message m.received.1 m.received.2 rest) :
    recvMessage s = some (received m, rest) := by
  rw [recvMessage_of_message h, received]
  by_cases hempty : m.payload = []
  · simp only [WireMessage.received, hempty]
    rfl
  · simp only [WireMessage.received, if_neg hempty, Option.getD_some]
    rfl

/-- Where `read_full` ends too early, the client raises. -/
theorem recvMessage_eq_none {s : Incoming UInt8} {code : Int}
    (h : SqlCodeGenerator.recvMessage s = .stopped code)
    (hlimit : ∀ net rest, readFull headerSize s = .full net rest →
      (MsgHeader.ofBytes net).msgSize.toNat ≤ maxPayload) :
    recvMessage s = none := by
  unfold SqlCodeGenerator.recvMessage at h
  unfold recvMessage
  rw [recvall_eq, show 16 = headerSize from rfl]
  cases hread : readFull headerSize s with
  | stopped code => rfl
  | full net behind =>
      have hwithin := hlimit net behind hread
      simp only [hread, gt_iff_lt, Nat.not_lt.mpr hwithin, if_false] at h ⊢
      rw [(unpack_eq net).1]
      split at h
      · next hpos =>
          have hne : (MsgHeader.ofBytes net).msgSize.toNat ≠ 0 := by
            rw [UInt32.lt_iff_toNat_lt] at hpos
            exact Nat.ne_of_gt hpos
          rw [if_pos hne, recvall_eq]
          cases hread' : readFull (MsgHeader.ofBytes net).msgSize.toNat behind with
          | stopped code => rfl
          | full bytes behind' => simp [hread'] at h
      · cases h

end PythonClient

/-! ## Round trip -/

/-- The messages that are whole in the first `n` bytes. -/
def wholeMessages : Nat → List WireMessage → List WireMessage
  | _, [] => []
  | n, m :: ms =>
      if m.frame.length ≤ n then m :: wholeMessages (n - m.frame.length) ms else []

/-- The header of a message that is cut is read whole or not at all. -/
theorem header_of_cut {m : WireMessage} {n : Nat} {s rest : Incoming UInt8} {net : List UInt8}
    (h : s.items = m.frame.take n) (hread : readFull headerSize s = .full net rest) :
    net = m.header.bytes := by
  by_cases hlen : headerSize ≤ s.items.length
  · obtain ⟨rest', hread', -⟩ := readFull_of_le hlen
    rw [hread, ReadResult.full.injEq] at hread'
    have hn : headerSize ≤ n := by
      rw [h, List.length_take] at hlen
      omega
    rw [hread'.1, h, List.take_take, Nat.min_eq_left hn, WireMessage.frame,
      List.take_left' (MsgHeader.length_bytes _)]
  · obtain ⟨code, hread', -⟩ := readFull_of_lt (Nat.not_le.mp hlen)
    rw [hread] at hread'
    cases hread'

/-- A message of which the end is missing is not received by the client either: what it has
of the header announces no more than the limit. -/
theorem PythonClient.recvMessage_cut {m : WireMessage} (hsize : m.payload.length ≤ maxPayload)
    {s : Incoming UInt8} {n : Nat} (hn : n < m.frame.length) (h : s.items = m.frame.take n) :
    PythonClient.recvMessage s = none := by
  obtain ⟨code, hstop, -⟩ := SqlCodeGenerator.recvMessage_cut hsize hn h
  refine PythonClient.recvMessage_eq_none hstop fun net rest hread => ?_
  rw [header_of_cut h hread, MsgHeader.ofBytes_bytes, WireMessage.toNat_msgSize hsize]
  exact hsize

/-- From the first `n` bytes of messages both sides receive those that are whole
in them, and then nothing: either no byte is left, or the end of the next message
is missing. -/
theorem recvMessages_take {ms : List WireMessage} (hsize : ∀ m ∈ ms, m.payload.length ≤ maxPayload)
    {n : Nat} {s : Incoming UInt8} (h : s.items = (ms.flatMap WireMessage.frame).take n) :
    ∃ rest, recvMessages (wholeMessages n ms).length s =
        some ((wholeMessages n ms).map WireMessage.received, rest) ∧
      PythonClient.recvMessages (wholeMessages n ms).length s =
        some ((wholeMessages n ms).map PythonClient.received, rest) ∧
      (∃ code, recvMessage rest = .stopped code ∧ code ≤ 0) ∧
      PythonClient.recvMessage rest = none ∧
      ((ms.flatMap WireMessage.frame).length ≤ n → rest.items = []) := by
  induction ms generalizing n s with
  | nil =>
      have hnone : s.items = [] := by simpa using h
      obtain ⟨code, hstop, hcode⟩ := recvMessage_end hnone
      have hshort : s.items.length < headerSize := by
        rw [hnone]
        decide
      refine ⟨s, rfl, rfl, ⟨code, hstop, hcode⟩, ?_, fun _ => hnone⟩
      refine PythonClient.recvMessage_eq_none hstop fun net rest hread => ?_
      obtain ⟨code', hread', -⟩ := readFull_of_lt hshort
      rw [hread] at hread'
      cases hread'
  | cons m ms ih =>
      have hm := hsize m List.mem_cons_self
      have hms : ∀ m' ∈ ms, m'.payload.length ≤ maxPayload :=
        fun m' hm' => hsize m' (List.mem_cons_of_mem _ hm')
      rw [List.flatMap_cons] at h ⊢
      by_cases hwhole : m.frame.length ≤ n
      · rw [List.take_append, List.take_of_length_le hwhole] at h
        obtain ⟨behind, hrecv, hbehind⟩ := recvMessage_frame hm h
        obtain ⟨rest, hrest, hpython, hstop, hraise, hend⟩ := ih hms hbehind
        have hpython' := PythonClient.recvMessage_received hrecv
        refine ⟨rest, ?_, ?_, hstop, hraise, ?_⟩
        · rw [wholeMessages, if_pos hwhole, List.length_cons, recvMessages, hrecv]
          simp only [hrest, Option.map_some, List.map_cons]
        · rw [wholeMessages, if_pos hwhole, List.length_cons, PythonClient.recvMessages, hpython']
          simp only [Option.bind_eq_bind, Option.bind_some, hpython, List.map_cons]
        · intro hlen
          rw [List.length_append] at hlen
          exact hend (by omega)
      · have hcut : n < m.frame.length := Nat.not_le.mp hwhole
        rw [List.take_append_of_le_length (Nat.le_of_lt hcut)] at h
        -- the end of this message is missing
        obtain ⟨code, hstop, hcode⟩ := recvMessage_cut hm hcut h
        rw [wholeMessages, if_neg hwhole]
        refine ⟨s, rfl, rfl, ⟨code, hstop, hcode⟩, PythonClient.recvMessage_cut hm hcut h, ?_⟩
        intro hlen
        rw [List.length_append] at hlen
        omega

theorem wholeMessages_of_le {ms : List WireMessage} {n : Nat}
    (h : (ms.flatMap WireMessage.frame).length ≤ n) : wholeMessages n ms = ms := by
  induction ms generalizing n with
  | nil => rfl
  | cons m ms ih =>
      rw [List.flatMap_cons, List.length_append] at h
      rw [wholeMessages, if_pos (by omega), ih (by omega)]

/-- Messages survive any fragmentation of the stream, on the way out and on the
way in, in both implementations: they write the same bytes and read the same
messages, with their sizes and flags 0; a stream that ends early gives the
messages that are whole in it and then none. -/
theorem framing_roundTrip {ms : List WireMessage} {answers : List WriteAnswer}
    (hsize : ∀ m ∈ ms, m.payload.length ≤ maxPayload)
    (hanswers : ∀ a ∈ answers, a.goesOn = true) :
    ∃ bytes left, sendMessages answers ms = (true, bytes, left) ∧
      PythonClient.sendMessages ms = some bytes ∧
      (∀ s : Incoming UInt8, s.items = bytes →
        ∃ rest, recvMessages ms.length s = some (ms.map WireMessage.received, rest) ∧
          PythonClient.recvMessages ms.length s = some (ms.map PythonClient.received, rest) ∧
          rest.items = []) ∧
      ∀ (s : Incoming UInt8) (n : Nat), s.items = bytes.take n →
        ∃ rest, recvMessages (wholeMessages n ms).length s =
            some ((wholeMessages n ms).map WireMessage.received, rest) ∧
          PythonClient.recvMessages (wholeMessages n ms).length s =
            some ((wholeMessages n ms).map PythonClient.received, rest) ∧
          (∃ code, recvMessage rest = .stopped code ∧ code ≤ 0) ∧
          PythonClient.recvMessage rest = none := by
  obtain ⟨left, hsend⟩ := sendMessages_eq hanswers hsize
  refine ⟨_, left, hsend, PythonClient.sendMessages_eq hsize, ?_, ?_⟩
  · intro s hs
    have hall : s.items =
        (ms.flatMap WireMessage.frame).take (ms.flatMap WireMessage.frame).length := by
      rw [hs, List.take_length]
    obtain ⟨rest, hrecv, hpython, -, -, hend⟩ := recvMessages_take hsize hall
    rw [wholeMessages_of_le le_rfl] at hrecv hpython
    exact ⟨rest, hrecv, hpython, hend le_rfl⟩
  · intro s n hs
    obtain ⟨rest, hrecv, hpython, hstop, hraise, -⟩ := recvMessages_take hsize hs
    exact ⟨rest, hrecv, hpython, hstop, hraise⟩

/-- `OP_CONNECT` without a payload, and `OP_VALIDATE_INSERT` with one. -/
def sampleMessages : List WireMessage := [⟨0, 0, []⟩, ⟨1, 30, [73, 78, 83]⟩]

/-- The two messages, the first write of which is interrupted, the second of which
is accepted in parts. -/
theorem framing_roundTrip_sample :
    ∃ bytes left, sendMessages [.interrupted, .accepted 3, .accepted 20] sampleMessages =
        (true, bytes, left) ∧
      PythonClient.sendMessages sampleMessages = some bytes ∧
      (∀ s : Incoming UInt8, s.items = bytes →
        ∃ rest, recvMessages 2 s = some (sampleMessages.map WireMessage.received, rest) ∧
          PythonClient.recvMessages 2 s = some (sampleMessages.map PythonClient.received, rest) ∧
          rest.items = []) ∧
      ∀ (s : Incoming UInt8) (n : Nat), s.items = bytes.take n →
        ∃ rest, recvMessages (wholeMessages n sampleMessages).length s =
            some ((wholeMessages n sampleMessages).map WireMessage.received, rest) ∧
          PythonClient.recvMessages (wholeMessages n sampleMessages).length s =
            some ((wholeMessages n sampleMessages).map PythonClient.received, rest) ∧
          (∃ code, recvMessage rest = .stopped code ∧ code ≤ 0) ∧
          PythonClient.recvMessage rest = none :=
  framing_roundTrip (by decide) (by decide)

end SqlCodeGenerator
