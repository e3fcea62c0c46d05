import SqlCodeGenerator.Decimals
import SqlCodeGenerator.Library.Blocks
import SqlCodeGenerator.Library.LockedStreams
import SqlCodeGenerator.Threads

/-!
# The log of the server

`log_event` of `server.c` and what the server logs.  A thread formats its line, waits for
`g_log_mutex`, and writes the line to `logs/server.log`; a call of `write` may take a part
of it.

* `LogLine.text_injective`: a line says when it was made and what was logged;
* `log_readable`: the file is the lines of all threads, one after the other, and can be read
  back.
-/

namespace SqlCodeGenerator

open Library

/-! ## Lines -/

/-- An IPv4 address. -/
structure Ipv4 where
  a : UInt8
  b : UInt8
  c : UInt8
  d : UInt8
  deriving DecidableEq

/-- `inet_ntop(AF_INET, …)`. -/
def Ipv4.text (ip : Ipv4) : CString :=
  decimal ip.a.toNat ++ dot :: decimal ip.b.toNat ++ dot :: decimal ip.c.toNat ++
    dot :: decimal ip.d.toNat

/-- The calls of `log_event`. -/
inductive LogEntry where
  | starting
  | listening (ordinary admin : UInt16)
  | stopped
  | jobQueued (jobId : Fin (2 ^ 31)) (clientId opId : UInt32)
  | jobUpdate (jobId : Fin (2 ^ 31)) (status : JobStatus)
  | ordinaryAccepted (ip : Ipv4)
  | adminAccepted
  | adminTimeout
  deriving DecidableEq

/-- What `vsnprintf` makes of the arguments. -/
def LogEntry.text : LogEntry → CString
  | starting => lit "server starting"
  | listening ordinary admin =>
      lit "server listening ordinary=" ++ decimal ordinary.toNat ++
        lit " admin=" ++ decimal admin.toNat
  | stopped => lit "server stopped"
  | jobQueued jobId clientId opId =>
      lit "job queued id=" ++ decimal jobId.val ++ lit " client=" ++ decimal clientId.toNat ++
        lit " op=" ++ decimal opId.toNat
  | jobUpdate jobId status =>
      lit "job update id=" ++ decimal jobId.val ++ lit " status=" ++ status.text
  | ordinaryAccepted ip => lit "ordinary client accepted ip=" ++ ip.text
  | adminAccepted => lit "admin client accepted"
  | adminTimeout => lit "admin disconnected due to timeout"

/-- The size of the buffer `line` of `log_event`. -/
abbrev logSize : Nat := 1024

/-- `log_event`: what it hands to `write_full`, unless it returns before. -/
def logText (now : Int) (body : CString) : Option CString :=
  let stamp := lit "[" ++ decimalInt now ++ lit "] "
  if logSize ≤ stamp.length then
    none
  else
    let line := stamp ++ cut (logSize - stamp.length) body
    some (if line.length + 1 < logSize then line ++ [newline] else line)

/-- A call of `log_event`, at a time that `time_t` holds. -/
structure LogLine where
  now : Int
  entry : LogEntry
  inRange : -2 ^ 63 ≤ now ∧ now < 2 ^ 63

/-- The line without its end. -/
def LogLine.text (l : LogLine) : CString :=
  lit "[" ++ decimalInt l.now ++ lit "] " ++ l.entry.text

/-- The buffers that a call hands to `write_full`. -/
def LogLine.buffers (l : LogLine) : List (List UInt8) :=
  (logText l.now l.entry.text).toList.map (·.map Subtype.val)

/-- The log, with the lines that the threads have ready and have written. -/
abbrev Log := LockedStream Thread LogLine UInt8

/-- A thread formats a line, takes the lock, makes a call of `write`, or gives the lock
back. -/
abbrev LogEvent := LockedEvent Thread LogLine

/-- The log after a list of steps from an empty file on. -/
def logAfter (events : List LogEvent) : Option Log :=
  runFrom (LockedEvent.step LogLine.buffers) (LockedStream.empty ..) events

instance : Nonempty Thread := ⟨.main⟩

/-! ## How long a line is, and where it ends -/

theorem length_decimalInt_le {n : Int} {k : Nat} (hk : 0 < k) (hlow : -10 ^ k < n)
    (hhigh : n < 10 ^ k) : (decimalInt n).length ≤ k + 1 := by
  cases n with
  | ofNat n =>
      have hn : n < 10 ^ k := by
        have hcast : (n : Int) < 10 ^ k := hhigh
        exact_mod_cast hcast
      exact (length_decimal_le hk hn).trans (Nat.le_succ k)
  | negSucc n =>
      have hn : n + 1 < 10 ^ k := by
        have hneg : Int.negSucc n = -((n + 1 : Nat) : Int) := rfl
        rw [hneg] at hlow
        exact_mod_cast Int.neg_lt_neg_iff.mp hlow
      rw [decimalInt_negSucc, List.length_cons]
      exact Nat.succ_le_succ (length_decimal_le hk hn)

theorem length_decimal_uint32 (n : UInt32) : (decimal n.toNat).length ≤ 10 :=
  length_decimal_le (by decide) (Nat.lt_of_lt_of_le n.toNat_lt (by decide))

theorem length_decimal_uint16 (n : UInt16) : (decimal n.toNat).length ≤ 5 :=
  length_decimal_le (by decide) (Nat.lt_of_lt_of_le n.toNat_lt (by decide))

theorem length_decimal_uint8 (n : UInt8) : (decimal n.toNat).length ≤ 3 :=
  length_decimal_le (by decide) (Nat.lt_of_lt_of_le n.toNat_lt (by decide))

theorem length_decimal_jobId (n : Fin (2 ^ 31)) : (decimal n.val).length ≤ 10 :=
  length_decimal_le (by decide) (Nat.lt_of_lt_of_le n.isLt (by decide))

/-- Nothing that is logged comes near the size of the buffer. -/
theorem LogEntry.length_text_le (e : LogEntry) : e.text.length ≤ 80 := by
  cases e with
  | starting => decide
  | stopped => decide
  | adminAccepted => decide
  | adminTimeout => decide
  | listening ordinary admin =>
      have hordinary := length_decimal_uint16 ordinary
      have hadmin := length_decimal_uint16 admin
      have hfirst : (lit "server listening ordinary=").length = 26 := by decide
      have hsecond : (lit " admin=").length = 7 := by decide
      simp only [text, List.length_append]
      omega
  | jobQueued jobId clientId opId =>
      have hjob := length_decimal_jobId jobId
      have hclient := length_decimal_uint32 clientId
      have hop := length_decimal_uint32 opId
      have hfirst : (lit "job queued id=").length = 14 := by decide
      have hsecond : (lit " client=").length = 8 := by decide
      have hthird : (lit " op=").length = 4 := by decide
      simp only [text, List.length_append]
      omega
  | jobUpdate jobId status =>
      have hjob := length_decimal_jobId jobId
      have hstatus : status.text.length ≤ 7 := by cases status <;> decide
      have hfirst : (lit "job update id=").length = 14 := by decide
      have hsecond : (lit " status=").length = 8 := by decide
      simp only [text, List.length_append]
      omega
  | ordinaryAccepted ip =>
      have ha := length_decimal_uint8 ip.a
      have hb := length_decimal_uint8 ip.b
      have hc := length_decimal_uint8 ip.c
      have hd := length_decimal_uint8 ip.d
      have hfirst : (lit "ordinary client accepted ip=").length = 28 := by decide
      simp only [text, Ipv4.text, List.length_append, List.length_cons]
      omega

/-- A short text fits into the buffer, with the end of the line. -/
theorem logText_eq {now : Int} {body : CString} (hnow : (decimalInt now).length ≤ 20)
    (hbody : body.length ≤ 80) :
    logText now body = some (lit "[" ++ decimalInt now ++ lit "] " ++ body ++ [newline]) := by
  have hstamp : (lit "[" ++ decimalInt now ++ lit "] ").length ≤ 23 := by
    have hopen : (lit "[").length = 1 := by decide
    have hclose : (lit "] ").length = 2 := by decide
    simp only [List.length_append]
    omega
  have hsize : logSize = 1024 := rfl
  have hcut : cut (logSize - (lit "[" ++ decimalInt now ++ lit "] ").length) body = body :=
    List.take_of_length_le (by omega)
  simp only [logText]
  rw [if_neg (by omega), hcut, if_pos (by rw [List.length_append]; omega)]

/-- A line is written whole, and with its end. -/
theorem LogLine.buffers_eq (l : LogLine) :
    l.buffers = [(l.text ++ [newline]).map Subtype.val] := by
  have hrange := l.inRange
  have hnow : (decimalInt l.now).length ≤ 20 :=
    length_decimalInt_le (k := 19) (by decide) (by omega) (by omega)
  rw [buffers, logText_eq hnow l.entry.length_text_le]
  rfl

/-! ## A line is read back -/

/-- A character that is no digit is not in a number. -/
theorem notMem_decimal {c : CChar} (hc : isDigit c = false) (n : Nat) : c ∉ decimal n := by
  intro hmem
  rw [isDigit_of_mem_decimal c hmem] at hc
  cases hc

theorem notMem_decimalInt {c : CChar} (hc : isDigit c = false) (hsign : c ≠ chr '-') (n : Int) :
    c ∉ decimalInt n := by
  cases n with
  | ofNat n => exact notMem_decimal hc n
  | negSucc n =>
      rw [decimalInt_negSucc, List.mem_cons, not_or]
      exact ⟨hsign, notMem_decimal hc (n + 1)⟩

theorem decimalInt_injective {n n' : Int} (h : decimalInt n = decimalInt n') : n = n' := by
  have hread := strtol_decimalInt n
  rw [h, strtol_decimalInt n'] at hread
  exact (Prod.mk.inj (Option.some.inj hread)).1.symm

/-- A number and what stands behind it, from a character on that is no digit. -/
theorem decimal_append_inj {c : CChar} (hc : isDigit c = false) {n n' : Nat}
    {rest rest' : CString} (h : decimal n ++ c :: rest = decimal n' ++ c :: rest') :
    n = n' ∧ rest = rest' := by
  have hdigits := upTo_unique (notMem_decimal hc n) (notMem_decimal hc n') h
  rw [hdigits] at h
  exact ⟨decimal_injective hdigits, (List.cons.inj (List.append_cancel_left h)).2⟩

theorem Ipv4.text_injective : Function.Injective Ipv4.text := by
  intro ip ip' h
  simp only [text, List.append_assoc, List.cons_append] at h
  obtain ⟨ha, h⟩ := decimal_append_inj (by decide) h
  obtain ⟨hb, h⟩ := decimal_append_inj (by decide) h
  obtain ⟨hc, h⟩ := decimal_append_inj (by decide) h
  have hd := decimal_injective h
  cases ip
  cases ip'
  simp only [mk.injEq]
  exact ⟨UInt8.toNat_inj.mp ha, UInt8.toNat_inj.mp hb, UInt8.toNat_inj.mp hc,
    UInt8.toNat_inj.mp hd⟩

theorem JobStatus.text_injective : Function.Injective JobStatus.text := by
  intro status status' h
  cases status <;> cases status' <;> first | rfl | exact absurd h (by decide)

/-- What is logged begins with ten characters of its own. -/
def LogEntry.tag : LogEntry → CString
  | starting => lit "server sta"
  | listening _ _ => lit "server lis"
  | stopped => lit "server sto"
  | jobQueued _ _ _ => lit "job queued"
  | jobUpdate _ _ => lit "job update"
  | ordinaryAccepted _ => lit "ordinary c"
  | adminAccepted => lit "admin clie"
  | adminTimeout => lit "admin disc"

theorem LogEntry.take_text (e : LogEntry) : e.text.take 10 = e.tag := by
  cases e <;> rfl

theorem LogEntry.text_injective : Function.Injective LogEntry.text := by
  intro e e' h
  have htag : e.tag = e'.tag := by rw [← take_text, ← take_text, h]
  cases e with
  | starting => cases e' <;> first | rfl | exact absurd htag (by simp only [tag]; decide)
  | stopped => cases e' <;> first | rfl | exact absurd htag (by simp only [tag]; decide)
  | adminAccepted => cases e' <;> first | rfl | exact absurd htag (by simp only [tag]; decide)
  | adminTimeout => cases e' <;> first | rfl | exact absurd htag (by simp only [tag]; decide)
  | listening ordinary admin =>
      cases e' with
      | listening ordinary' admin' =>
          simp only [text, List.append_assoc] at h
          obtain ⟨hordinary, hrest⟩ := decimal_append_inj (c := chr ' ') (by decide)
            (List.append_cancel_left h)
          have hadmin := decimal_injective (@List.append_cancel_left _ (lit "admin=") _ _ hrest)
          rw [UInt16.toNat_inj.mp hordinary, UInt16.toNat_inj.mp hadmin]
      | _ => exact absurd htag (by simp only [tag]; decide)
  | jobQueued jobId clientId opId =>
      cases e' with
      | jobQueued jobId' clientId' opId' =>
          simp only [text, List.append_assoc] at h
          obtain ⟨hjob, hrest⟩ := decimal_append_inj (c := chr ' ') (by decide)
            (List.append_cancel_left h)
          obtain ⟨hclient, hrest⟩ := decimal_append_inj (c := chr ' ') (by decide)
            (@List.append_cancel_left _ (lit "client=") _ _ hrest)
          have hop := decimal_injective (@List.append_cancel_left _ (lit "op=") _ _ hrest)
          rw [Fin.val_inj.mp hjob, UInt32.toNat_inj.mp hclient, UInt32.toNat_inj.mp hop]
      | _ => exact absurd htag (by simp only [tag]; decide)
  | jobUpdate jobId status =>
      cases e' with
      | jobUpdate jobId' status' =>
          simp only [text, List.append_assoc] at h
          obtain ⟨hjob, hrest⟩ := decimal_append_inj (c := chr ' ') (by decide)
            (List.append_cancel_left h)
          have hstatus := JobStatus.text_injective
            (@List.append_cancel_left _ (lit "status=") _ _ hrest)
          rw [Fin.val_inj.mp hjob, hstatus]
      | _ => exact absurd htag (by simp only [tag]; decide)
  | ordinaryAccepted ip =>
      cases e' with
      | ordinaryAccepted ip' => rw [Ipv4.text_injective (List.append_cancel_left h)]
      | _ => exact absurd htag (by simp only [tag]; decide)

/-- A line says when it was made and what was logged. -/
theorem LogLine.text_injective : Function.Injective LogLine.text := by
  intro l l' h
  simp only [text, List.append_assoc] at h
  have hbody := List.append_cancel_left h
  have hnow := upTo_unique (y := chr ']') (notMem_decimalInt (by decide) (by decide) l.now)
    (notMem_decimalInt (by decide) (by decide) l'.now) hbody
  rw [hnow] at hbody
  have hentry := List.append_cancel_left (List.append_cancel_left hbody)
  cases l
  cases l'
  simp only [mk.injEq]
  exact ⟨decimalInt_injective hnow, LogEntry.text_injective hentry⟩

theorem newline_notMem_text (l : LogLine) : newline ∉ l.text := by
  have hnumber : ∀ n, newline ∉ decimal n := notMem_decimal (by decide)
  have hnow : newline ∉ decimalInt l.now := notMem_decimalInt (by decide) (by decide) l.now
  have hentry : newline ∉ l.entry.text := by
    cases l.entry with
    | starting => decide
    | stopped => decide
    | adminAccepted => decide
    | adminTimeout => decide
    | listening ordinary admin =>
        simp only [LogEntry.text, List.mem_append, not_or]
        exact ⟨⟨⟨by decide, hnumber _⟩, by decide⟩, hnumber _⟩
    | jobQueued jobId clientId opId =>
        simp only [LogEntry.text, List.mem_append, not_or]
        exact ⟨⟨⟨⟨⟨by decide, hnumber _⟩, by decide⟩, hnumber _⟩, by decide⟩, hnumber _⟩
    | jobUpdate jobId status =>
        simp only [LogEntry.text, List.mem_append, not_or]
        exact ⟨⟨⟨by decide, hnumber _⟩, by decide⟩, by cases status <;> decide⟩
    | ordinaryAccepted ip =>
        have hdot : newline ≠ dot := by decide
        simp only [LogEntry.text, Ipv4.text, List.mem_append, List.mem_cons, not_or]
        exact ⟨by decide, ⟨⟨hnumber _, hdot, hnumber _⟩, hdot, hnumber _⟩, hdot, hnumber _⟩
  simp only [LogLine.text, List.mem_append, not_or]
  exact ⟨⟨⟨by decide, hnow⟩, by decide⟩, hentry⟩

/-- Lines that each end in a newline are split at the newlines. -/
theorem splitOn_lines {α : Type} [BEq α] [LawfulBEq α] {a : α} {lines : List (List α)}
    (h : ∀ l ∈ lines, a ∉ l) :
    (lines.flatMap fun l => l ++ [a]).splitOn a = lines ++ [[]] := by
  induction lines with
  | nil => rfl
  | cons l lines ih =>
      rw [List.flatMap_cons, List.append_assoc, List.singleton_append,
        List.splitOn_append_cons_self_of_not_mem (h l List.mem_cons_self),
        ih fun l' hl' => h l' (List.mem_cons_of_mem l hl'), List.cons_append]

/-- The bytes of a line before its end. -/
def LogLine.bytes (l : LogLine) : List UInt8 := l.text.map Subtype.val

theorem LogLine.flatten_buffers (l : LogLine) :
    l.buffers.flatten = l.bytes ++ [newline.val] := by
  rw [buffers_eq, List.flatten_singleton, List.map_append, bytes]
  rfl

theorem newline_notMem_bytes (l : LogLine) : newline.val ∉ l.bytes := by
  intro hmem
  obtain ⟨c, hc, heq⟩ := List.mem_map.mp hmem
  obtain rfl : c = newline := Subtype.val_injective heq
  exact newline_notMem_text l hc

theorem LogLine.bytes_injective : Function.Injective LogLine.bytes := fun _ _ h =>
  LogLine.text_injective (List.map_injective_iff.mpr Subtype.val_injective h)

/-- In every run, whenever nobody holds the lock, the log is the lines of all threads whole,
in an order that keeps the order of each.  Split at its newlines it gives them back, and it is
the log of no other lines.  A thread has written what it was to log, but for the line it has
ready. -/
theorem log_readable {events : List LogEvent} {log : Log} (hrun : logAfter events = some log)
    (hfree : log.owner = none) :
    (∃ order : List (Thread × LogLine), Merges order log.shared.sent ∧
      log.shared.stream.splitOn newline.val = (order.map fun entry => entry.2.bytes) ++ [[]] ∧
      ∀ lines : List LogLine, (lines.flatMap fun l => l.bytes ++ [newline.val]) =
        log.shared.stream → lines = order.map Prod.snd) ∧
      ∀ t, log.shared.sent t ++ ((log.shared.hands t).map Prod.fst).toList =
        takenBy t (events.flatMap LockedEvent.moves) := by
  obtain ⟨⟨order, hmerges, hstream⟩, htaken⟩ := stream_of_lock hrun hfree
  -- the file, and what it is split into
  have hsplit : ∀ lines : List LogLine,
      (lines.flatMap fun l => l.bytes ++ [newline.val]).splitOn newline.val =
        lines.map LogLine.bytes ++ [[]] := by
    intro lines
    have hlines : ∀ l ∈ lines.map LogLine.bytes, newline.val ∉ l := by
      intro l hl
      obtain ⟨line, -, rfl⟩ := List.mem_map.mp hl
      exact newline_notMem_bytes line
    rw [← splitOn_lines hlines, List.flatMap_map]
  have hfile : log.shared.stream =
      (order.map Prod.snd).flatMap fun l => l.bytes ++ [newline.val] := by
    simp only [hstream, LogLine.flatten_buffers, List.flatMap_map]
  refine ⟨⟨order, hmerges, ?_, fun lines hlines => ?_⟩, htaken⟩
  · rw [hfile, hsplit, List.map_map]
    rfl
  · have hbytes := hsplit lines
    rw [hlines, hfile, hsplit] at hbytes
    exact (List.map_injective_iff.mpr LogLine.bytes_injective
      (List.append_cancel_right hbytes)).symm

/-- Two threads that log at once, one line in two writes. -/
def twoLines : List LogEvent :=
  [.take .worker ⟨9, .jobUpdate 1 .done, by decide⟩,
    .take .admin ⟨8, .adminAccepted, by decide⟩,
    .lock .admin, .write .admin 3, .write .admin 23, .unlock .admin]

theorem log_readable_two :
    ∃ log, logAfter twoLines = some log ∧
      ∃ order : List (Thread × LogLine), Merges order log.shared.sent ∧
        log.shared.stream.splitOn newline.val =
          (order.map fun entry => entry.2.bytes) ++ [[]] := by
  have hrun : (logAfter twoLines).map LockedStream.owner = some none := by decide
  obtain ⟨log, hlog, hfree⟩ := Option.map_eq_some_iff.mp hrun
  obtain ⟨⟨order, hmerges, hsplit, -⟩, -⟩ := log_readable hlog hfree
  exact ⟨log, hlog, order, hmerges, hsplit⟩

end SqlCodeGenerator
