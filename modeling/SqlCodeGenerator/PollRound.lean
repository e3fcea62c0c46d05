import SqlCodeGenerator.AdminInterface
import SqlCodeGenerator.Library.CheckedRuns
import SqlCodeGenerator.Library.Sweeps
import SqlCodeGenerator.Protocol

/-!
# A round of the ordinary interface

The loop of `ordinary_interface_main` over the array of `poll`, with `accept_client` and
`remove_pollfd`.  While it goes through the array, the loop moves entries down over the one
it removes, and appends the descriptor of a new connection.

What the loop does besides the array is a parameter: the system calls, the questions about
the shared state, and what is done to it, in a world that other threads change as well.

* `pollBody_reaches`: a round of the loop is a step of the sweep over the entries;
* `pollRound_eq_sweep`: so the loop is the sweep, and no access leaves the array;
* `pollRound_servesOnce`: each ready descriptor is served once, and which entries are left.
-/

namespace SqlCodeGenerator

open Library

/-! ## The array -/

/-- `struct pollfd fds[MAX_FDS]`, with `nfds`. -/
structure PollArray where
  cells : List PollFd
  nfds : Nat
  size_eq : cells.length = maxFds
  inUse : nfds ≤ maxFds

/-- A run that may leave the array. -/
abbrev PollRun (α : Type) : Type := CheckedRun Unit Empty α

namespace PollArray

/-- The entries that `poll` looks at. -/
def entries (a : PollArray) : List PollFd := a.cells.take a.nfds

/-- `fds[i]`. -/
def read (a : PollArray) (i : Nat) : PollRun PollFd :=
  match a.cells[i]? with
  | none => .outside ()
  | some entry => .done entry

/-- `fds[*nfds] = …; (*nfds)++`. -/
def append (a : PollArray) (entry : PollFd) : PollRun PollArray :=
  if h : a.nfds < maxFds then
    .done
      { cells := a.cells.set a.nfds entry
        nfds := a.nfds + 1
        size_eq := by rw [List.length_set, a.size_eq]
        inUse := h }
  else
    .outside ()

/-- The part of `remove_pollfd` from the `memmove` on. -/
def remove (a : PollArray) (i : Nat) : PollRun PollArray :=
  if h : i < a.nfds then
    .done
      { cells := if i < a.nfds - 1 then shiftDown a.cells i (a.nfds - i - 1) else a.cells
        nfds := a.nfds - 1
        size_eq := by
          have hused := a.inUse
          have hsize := a.size_eq
          split
          · rw [length_shiftDown (by omega), hsize]
          · exact hsize
        inUse := Nat.le_trans (Nat.sub_le _ _) a.inUse }
  else
    .outside ()

end PollArray

/-! ## The loop -/

/-- What the loop does besides the array. -/
inductive PollAction where
  /-- `close` of a connection that is not taken. -/
  | close (fd : Int)
  /-- The answer to a blocked address, and `close`. -/
  | deny (fd : Int)
  /-- `fd_addr_set`, and the line in the log. -/
  | track (fd : Int) (ip : CString)
  /-- `close`, `client_remove_fd` and `fd_addr_remove`. -/
  | remove (fd : Int)
  /-- `next_client_id++`, `register_client`, the answer and the line of the history. -/
  | connect (fd : Int)
  /-- The answer to `OP_BYE`. -/
  | bye (fd : Int) (clientId : UInt32)
  /-- The answer to a client that is not registered. -/
  | reject (fd : Int) (clientId : UInt32)
  /-- `respond_job_info`. -/
  | respondJobInfo (fd : Int) (header : MsgHeader) (payload : Option (List UInt8))
  /-- The answer where `calloc` fails. -/
  | outOfMemory (fd : Int) (clientId : UInt32)
  /-- The request is filled, `job_create` if it is processed, and `queue_push`. -/
  | push (fd : Int) (header : MsgHeader) (payload : Option (List UInt8))

/-- The world around the loop. -/
structure PollEnv (σ : Type) where
  /-- `accept`: no descriptor where it fails. -/
  accept : σ → Option Int × σ
  /-- `inet_ntop` of the address that `accept` stored. -/
  inetNtop : σ → Option CString
  addrBlocked : σ → CString → Bool
  /-- `recv_message`: no message where it returns 0 or -1. -/
  recvMessage : σ → Int → Option (MsgHeader × Option (List UInt8)) × σ
  isRegisteredClient : σ → UInt32 → Bool
  /-- `calloc` of a request: does it succeed? -/
  calloc : σ → Bool × σ
  perform : σ → PollAction → σ

section Loop

variable {σ : Type} (env : PollEnv σ) (listenFd : Int)

/-- `accept_client`: the entry that it writes at `fds[*nfds]`, if it does. -/
def acceptClient (world : σ) (nfds : Nat) : σ × Visit PollFd :=
  match env.accept world with
  | (none, world) => (world, .keep)
  | (some fd, world) =>
      if nfds ≥ maxFds then
        (env.perform world (.close fd), .keep)
      else
        match env.inetNtop world with
        | none => (env.perform world (.close fd), .keep)
        | some ip =>
            if env.addrBlocked world ip then
              (env.perform world (.deny fd), .keep)
            else
              (env.perform world (.track fd ip), .append ⟨fd, false⟩)

/-- The body of the loop from `recv_message` on: does it call `remove_pollfd`? -/
def serveClient (world : σ) (fd : Int) : σ × Visit PollFd :=
  match env.recvMessage world fd with
  | (none, world) => (env.perform world (.remove fd), .remove)
  | (some (h, payload), world) =>
      if h.opId = opConnect then
        (env.perform world (.connect fd), .keep)
      else if h.opId = opBye then
        (env.perform (env.perform world (.bye fd h.clientId)) (.remove fd), .remove)
      else if !env.isRegisteredClient world h.clientId then
        (env.perform world (.reject fd h.clientId), .keep)
      else if h.opId = opJobStatus ∨ h.opId = opJobResult then
        (env.perform world (.respondJobInfo fd h payload), .keep)
      else
        match env.calloc world with
        | (false, world) => (env.perform world (.outOfMemory fd h.clientId), .keep)
        | (true, world) => (env.perform world (.push fd h payload), .keep)

/-- A ready entry. -/
def handleEntry (world : σ) (nfds : Nat) (entry : PollFd) : σ × Visit PollFd :=
  if entry.fd = listenFd then acceptClient env world nfds else serveClient env world entry.fd

/-- The variables of the loop, and the entries that it has handled, with what became of
them. -/
structure PollLoop (σ : Type) where
  array : PollArray
  i : Nat
  world : σ
  visits : List (PollFd × Visit PollFd)

/-- A round of the loop over the entries. -/
def pollBody (s : PollLoop σ) : PollRun (Round (PollLoop σ) (PollLoop σ)) :=
  if s.i < s.array.nfds then do
    let entry ← s.array.read s.i
    if !entry.ready then
      .done (.next { s with i := s.i + 1 })
    else
      let (world, visit) := handleEntry env listenFd s.world s.array.nfds entry
      let visits := s.visits ++ [(entry, visit)]
      match visit with
      | .keep => .done (.next ⟨s.array, s.i + 1, world, visits⟩)
      | .remove => do
          let array ← s.array.remove s.i
          -- `i--`, and then `i++`
          .done (.next ⟨array, s.i, world, visits⟩)
      | .append new => do
          let array ← s.array.append new
          .done (.next ⟨array, s.i + 1, world, visits⟩)
  else
    .done (.stop s)

/-- The loop over the entries, after `poll` has written what is ready. -/
def pollRound (fuel : Nat) (a : PollArray) (world : σ) : PollRun (PollLoop σ) :=
  .loop (pollBody env listenFd) fuel ⟨a, 0, world, []⟩

end Loop

/-! ## What is done with the array -/

namespace PollArray

variable {a : PollArray} {before rest : List PollFd} {entry : PollFd}

theorem length_entries (a : PollArray) : a.entries.length = a.nfds := by
  rw [entries, List.length_take, a.size_eq, Nat.min_eq_left a.inUse]

theorem read_eq (h : a.entries = before ++ entry :: rest) :
    a.read before.length = .done entry := by
  have hlt : before.length < a.nfds := by
    rw [← a.length_entries, h, List.length_append, List.length_cons]
    omega
  have hcell : a.cells[before.length]? = some entry := by
    rw [← List.getElem?_take_of_lt hlt]
    show a.entries[before.length]? = some entry
    rw [h, List.getElem?_append_right (Nat.le_refl _), Nat.sub_self]
    rfl
  rw [read, hcell]

/-- A new entry is the last one. -/
theorem append_eq (hroom : a.nfds < maxFds) (entry : PollFd) :
    ∃ a', a.append entry = .done a' ∧ a'.entries = a.entries ++ [entry] := by
  refine ⟨_, dif_pos hroom, ?_⟩
  have hsize : a.nfds < a.cells.length := by
    rw [a.size_eq]
    exact hroom
  show (a.cells.set a.nfds entry).take (a.nfds + 1) = a.cells.take a.nfds ++ [entry]
  rw [List.take_add_one, List.getElem?_set_self hsize, List.take_set_of_le (Nat.le_refl _)]
  rfl

/-- The entries behind the one removed move down. -/
theorem remove_eq (h : a.entries = before ++ entry :: rest) :
    ∃ a', a.remove before.length = .done a' ∧ a'.entries = before ++ rest ∧
      a'.nfds + 1 = a.nfds := by
  have hlength : before.length + rest.length + 1 = a.nfds := by
    rw [← a.length_entries, h, List.length_append, List.length_cons, Nat.add_assoc]
  have hlt : before.length < a.nfds := by omega
  have hused : a.nfds ≤ a.cells.length := by
    rw [a.size_eq]
    exact a.inUse
  have hbefore : a.cells.take before.length = before := by
    have htake : a.entries.take before.length = a.cells.take before.length := by
      rw [entries, List.take_take, Nat.min_eq_left (Nat.le_of_lt hlt)]
    rw [← htake, h, List.take_left]
  refine ⟨_, dif_pos hlt, ?_, ?_⟩
  · show (if before.length < a.nfds - 1 then
      shiftDown a.cells before.length (a.nfds - before.length - 1) else a.cells).take
        (a.nfds - 1) = _
    by_cases hlast : before.length < a.nfds - 1
    · rw [if_pos hlast, take_shiftDown hlt hused, hbefore]
      show before ++ a.entries.drop (before.length + 1) = _
      rw [h, List.drop_append, List.drop_of_length_le (Nat.le_succ _), Nat.add_sub_cancel_left]
      rfl
    · -- the last entry is removed, and nothing is moved
      have hrest : rest = [] := List.length_eq_zero_iff.mp (by omega)
      have hend : a.nfds - 1 = before.length := by omega
      rw [if_neg hlast, hend, hbefore, hrest, List.append_nil]
  · show a.nfds - 1 + 1 = a.nfds
    omega

end PollArray

/-! ## A round of the loop is a step of the sweep -/

section Loop

variable {σ : Type} {env : PollEnv σ} {listenFd : Int}

/-- `accept_client` writes an entry only where there is room, and it is not ready. -/
theorem acceptClient_spec (env : PollEnv σ) (world : σ) (nfds : Nat) :
    (acceptClient env world nfds).2 = .keep ∨
      ∃ fd, (acceptClient env world nfds).2 = .append ⟨fd, false⟩ ∧ nfds < maxFds := by
  unfold acceptClient
  split
  · exact Or.inl rfl
  · next fd world _ =>
      split
      · exact Or.inl rfl
      · next hroom =>
          split
          · exact Or.inl rfl
          · next ip _ =>
              split
              · exact Or.inl rfl
              · exact Or.inr ⟨fd, rfl, Nat.lt_of_not_le hroom⟩

/-- A client's descriptor is kept or removed. -/
theorem serveClient_spec (env : PollEnv σ) (world : σ) (fd : Int) :
    (serveClient env world fd).2 = .keep ∨ (serveClient env world fd).2 = .remove := by
  unfold serveClient
  split
  · exact Or.inr rfl
  · repeat' first | exact Or.inl rfl | exact Or.inr rfl | split

/-- A new entry comes with the listening socket, which stays. -/
theorem handleEntry_spec (env : PollEnv σ) (listenFd : Int) (world : σ) (nfds : Nat)
    (entry : PollFd) :
    (handleEntry env listenFd world nfds entry).2 = .keep ∨
      ((handleEntry env listenFd world nfds entry).2 = .remove ∧ entry.fd ≠ listenFd) ∨
      ∃ fd, (handleEntry env listenFd world nfds entry).2 = .append ⟨fd, false⟩ ∧
        nfds < maxFds ∧ entry.fd = listenFd := by
  unfold handleEntry
  by_cases hlisten : entry.fd = listenFd
  · rw [if_pos hlisten]
    rcases acceptClient_spec env world nfds with hkeep | ⟨fd, happend, hroom⟩
    · exact Or.inl hkeep
    · exact Or.inr (Or.inr ⟨fd, happend, hroom, hlisten⟩)
  · rw [if_neg hlisten]
    rcases serveClient_spec env world entry.fd with hkeep | hremove
    · exact Or.inl hkeep
    · exact Or.inr (Or.inl ⟨hremove, hlisten⟩)

/-- The sweep from where the loop is. -/
def PollLoop.swept (env : PollEnv σ) (listenFd : Int) (s : PollLoop σ) : Swept σ PollFd :=
  sweep PollFd.ready (handleEntry env listenFd) s.array.nfds s.world (s.array.entries.drop s.i)

/-- The loop ends with what the sweep leaves. -/
structure PollLoop.EndsIn (env : PollEnv σ) (listenFd : Int) (s s' : PollLoop σ) : Prop where
  entries : s'.array.entries =
    s.array.entries.take s.i ++ (s.swept env listenFd).kept ++ (s.swept env listenFd).appended
  world : s'.world = (s.swept env listenFd).world
  visits : s'.visits = s.visits ++ (s.swept env listenFd).visits

/-- How far the loop is from its end: an entry that is removed leaves fewer of them, and
any other one is passed. -/
def PollLoop.left (s : PollLoop σ) : Nat := (maxFds + 1) * (maxFds - s.i) + s.array.nfds

variable {array : PollArray} {before rest : List PollFd} {entry : PollFd}

theorem swept_eq (env : PollEnv σ) (listenFd : Int) (h : array.entries = before ++ rest)
    (world : σ) (visits : List (PollFd × Visit PollFd)) :
    PollLoop.swept env listenFd ⟨array, before.length, world, visits⟩ =
      sweep PollFd.ready (handleEntry env listenFd) array.nfds world rest := by
  show sweep _ _ array.nfds world (array.entries.drop before.length) = _
  rw [h, List.drop_left]

theorem take_entries (h : array.entries = before ++ rest) :
    array.entries.take before.length = before := by
  rw [h, List.take_left]

/-- One entry further is closer to the end, with one more entry at most. -/
theorem left_lt {i nfds nfds' : Nat} (hi : i < nfds) (hused : nfds ≤ maxFds)
    (hgrows : nfds' ≤ nfds + 1) :
    (maxFds + 1) * (maxFds - (i + 1)) + nfds' < (maxFds + 1) * (maxFds - i) + nfds := by
  have hpos : 0 < maxFds := by decide
  have hstep : maxFds - i = maxFds - (i + 1) + 1 := by omega
  rw [hstep, Nat.mul_succ]
  omega

/-- Where a visit leaves the loop, it ends as it would from the entry visited. -/
theorem endsIn_visited (h : array.entries = before ++ entry :: rest)
    (hready : entry.ready = true) {array' : PollArray} {world world' : σ}
    {visit : Visit PollFd} {visits : List (PollFd × Visit PollFd)} {s' : PollLoop σ}
    (hhandle : handleEntry env listenFd world array.nfds entry = (world', visit))
    (hentries : array'.entries = before ++ visit.kept entry ++ (rest ++ visit.added))
    (hnfds : array'.nfds = visit.used array.nfds) (hquiet : ∀ b ∈ visit.added, b.ready = false)
    (hs' : PollLoop.EndsIn env listenFd
      ⟨array', (before ++ visit.kept entry).length, world', visits ++ [(entry, visit)]⟩ s') :
    PollLoop.EndsIn env listenFd ⟨array, before.length, world, visits⟩ s' := by
  have hswept := swept_eq env listenFd h world visits
  rw [sweep_ready hready, hhandle] at hswept
  have hlater := swept_eq env listenFd hentries world'
    (visits ++ [(entry, visit)])
  -- the new entry comes last, and is passed over
  rw [sweep_append hquiet, hnfds] at hlater
  obtain ⟨hend, hworld, hvisits⟩ := hs'
  rw [hlater] at hend hworld hvisits
  rw [take_entries hentries] at hend
  refine ⟨?_, ?_, ?_⟩
  · rw [hswept, take_entries h, hend]
    simp only [List.append_assoc]
  · rw [hswept, hworld]
  · rw [hswept, hvisits, List.append_assoc]
    rfl

/-- A round of the loop at an entry. -/
theorem pollBody_reaches (env : PollEnv σ) (listenFd : Int)
    (h : array.entries = before ++ entry :: rest) (world : σ)
    (visits : List (PollFd × Visit PollFd)) :
    CheckedRun.Reaches (pollBody env listenFd) (PollLoop.EndsIn env listenFd) PollLoop.left
      ⟨array, before.length, world, visits⟩ := by
  have hlt : before.length < array.nfds := by
    rw [← array.length_entries, h, List.length_append, List.length_cons]
    omega
  have hnext : before.length + 1 = (before ++ [entry]).length := by
    rw [List.length_append, List.length_singleton]
  have hpassed : array.entries = (before ++ [entry]) ++ rest := by
    rw [h, List.append_assoc]
    rfl
  cases hready : entry.ready with
  | false =>
      refine .next ⟨array, before.length + 1, world, visits⟩ ?_
        (left_lt hlt array.inUse (Nat.le_succ _)) fun s' hs' => ?_
      · unfold pollBody
        rw [if_pos hlt, PollArray.read_eq h]
        simp [hready]
      · rw [hnext] at hs'
        obtain ⟨hentries, hworld, hvisits⟩ := hs'
        rw [swept_eq env listenFd hpassed] at hentries hworld hvisits
        rw [take_entries hpassed] at hentries
        have hswept := swept_eq env listenFd h world visits
        rw [sweep_quiet hready] at hswept
        refine ⟨?_, ?_, ?_⟩
        · rw [hswept, take_entries h, hentries]
          simp
        · rw [hswept, hworld]
        · rw [hswept, hvisits]
  | true =>
      obtain ⟨world', visit, hhandle⟩ :
          ∃ world' visit, handleEntry env listenFd world array.nfds entry = (world', visit) :=
        ⟨_, _, rfl⟩
      have hspec := handleEntry_spec env listenFd world array.nfds entry
      rw [hhandle] at hspec
      rcases hspec with hvisit | ⟨hvisit, -⟩ | ⟨fd, hvisit, hroom, -⟩
      · obtain rfl : visit = .keep := hvisit
        refine .next ⟨array, before.length + 1, world', visits ++ [(entry, .keep)]⟩ ?_
          (left_lt hlt array.inUse (Nat.le_succ _)) fun s' hs' => ?_
        · unfold pollBody
          rw [if_pos hlt, PollArray.read_eq h]
          simp [hready, hhandle]
        · rw [hnext] at hs'
          exact endsIn_visited h hready hhandle (by rw [hpassed, Visit.added, List.append_nil]; rfl)
            rfl (fun b hb => by cases hb) hs'
      · obtain rfl : visit = .remove := hvisit
        obtain ⟨array', hremove, hentries, hnfds⟩ := PollArray.remove_eq h
        refine .next ⟨array', before.length, world', visits ++ [(entry, .remove)]⟩ ?_ ?_
          fun s' hs' => ?_
        · unfold pollBody
          rw [if_pos hlt, PollArray.read_eq h]
          simp [hready, hhandle, hremove]
        · show (maxFds + 1) * (maxFds - before.length) + array'.nfds <
            (maxFds + 1) * (maxFds - before.length) + array.nfds
          omega
        · have hshort : array'.entries = before ++ Visit.remove.kept entry ++
              (rest ++ Visit.remove.added) := by
            rw [hentries, Visit.kept, Visit.added, List.append_nil, List.append_nil]
          refine endsIn_visited h hready hhandle hshort ?_ (fun b hb => by cases hb) ?_
          · show array'.nfds = array.nfds - 1
            omega
          · rw [Visit.kept, List.append_nil]
            exact hs'
      · obtain rfl : visit = .append ⟨fd, false⟩ := hvisit
        obtain ⟨array', happend, hentries⟩ := PollArray.append_eq hroom ⟨fd, false⟩
        have hnfds : array'.nfds = array.nfds + 1 := by
          rw [← array'.length_entries, hentries, List.length_append, array.length_entries]
          rfl
        refine .next ⟨array', before.length + 1, world',
          visits ++ [(entry, .append ⟨fd, false⟩)]⟩ ?_ ?_ fun s' hs' => ?_
        · unfold pollBody
          rw [if_pos hlt, PollArray.read_eq h]
          simp [hready, hhandle, happend]
        · exact left_lt hlt array.inUse (Nat.le_of_eq hnfds)
        · rw [hnext] at hs'
          refine endsIn_visited h hready hhandle ?_ hnfds ?_ hs'
          · rw [hentries, hpassed, List.append_assoc]
            rfl
          · intro b hb
            rw [List.mem_singleton.mp hb]

/-- The last round of the loop. -/
theorem pollBody_stops (s : PollLoop σ) (hend : s.array.nfds ≤ s.i) :
    CheckedRun.Reaches (pollBody env listenFd) (PollLoop.EndsIn env listenFd) PollLoop.left s := by
  have hall : s.array.entries.length ≤ s.i := by
    rw [s.array.length_entries]
    exact hend
  have hswept : s.swept env listenFd = ⟨s.world, [], [], []⟩ := by
    rw [PollLoop.swept, List.drop_of_length_le hall]
    rfl
  refine .stop s (if_neg (Nat.not_lt_of_le hend)) ⟨?_, ?_, ?_⟩
  · rw [hswept, List.take_of_length_le hall, List.append_nil, List.append_nil]
  · rw [hswept]
  · rw [hswept, List.append_nil]

/-- The loop returns, no access leaves the array, and it ends as the sweep does. -/
theorem pollRound_eq_sweep (env : PollEnv σ) (listenFd : Int) (a : PollArray) (world : σ)
    {fuel : Nat} (hfuel : (maxFds + 1) * (maxFds + 1) ≤ fuel) :
    ∃ s', pollRound env listenFd fuel a world = .done s' ∧
      PollLoop.EndsIn env listenFd ⟨a, 0, world, []⟩ s' := by
  have hround : ∀ s, CheckedRun.Reaches (pollBody env listenFd)
      (PollLoop.EndsIn env listenFd) PollLoop.left s := by
    intro s
    by_cases hend : s.array.nfds ≤ s.i
    · exact pollBody_stops s hend
    · -- the entry that the loop has come to
      have hlt : s.i < s.array.entries.length := by
        rw [s.array.length_entries]
        exact Nat.lt_of_not_le hend
      have hsplit : s.array.entries =
          s.array.entries.take s.i ++ s.array.entries[s.i] :: s.array.entries.drop (s.i + 1) := by
        rw [List.getElem_cons_drop, List.take_append_drop]
      have hi : (s.array.entries.take s.i).length = s.i := by
        rw [List.length_take, Nat.min_eq_left (Nat.le_of_lt hlt)]
      have hreaches := pollBody_reaches env listenFd hsplit s.world s.visits
      rw [hi] at hreaches
      exact hreaches
  have hleft : PollLoop.left (⟨a, 0, world, []⟩ : PollLoop σ) < (maxFds + 1) * (maxFds + 1) := by
    show (maxFds + 1) * maxFds + a.nfds < (maxFds + 1) * (maxFds + 1)
    rw [Nat.mul_succ (maxFds + 1) maxFds]
    exact Nat.add_lt_add_left (Nat.lt_succ_of_le a.inUse) _
  exact CheckedRun.loop_returns hround (Nat.lt_of_lt_of_le hleft hfuel)

/-- No entry comes with the descriptors of clients. -/
theorem appended_clients {clients : List PollFd} (hclients : ∀ entry ∈ clients, entry.fd ≠ listenFd)
    (count : Nat) (world : σ) :
    (sweep PollFd.ready (handleEntry env listenFd) count world clients).appended = [] := by
  rw [appended_eq, List.flatMap_eq_nil_iff]
  refine visits_forall (P := fun _ visit => visit.added = []) ?_ count world
  intro world count entry hentry _
  rcases handleEntry_spec env listenFd world count entry with hkeep | ⟨hremove, -⟩ | ⟨_, _, _, hfd⟩
  · rw [hkeep]
    rfl
  · rw [hremove]
    rfl
  · exact absurd hfd (hclients entry hentry)

/-- The listening socket stays the first one, and at most one entry comes with it. -/
theorem swept_listening (env : PollEnv σ) {first : PollFd} (hfirst : first.fd = listenFd)
    (hrest : ∀ entry ∈ rest, entry.fd ≠ listenFd) (count : Nat) (world : σ) :
    (sweep PollFd.ready (handleEntry env listenFd) count world (first :: rest)).kept.head? =
        some first ∧
      (sweep PollFd.ready (handleEntry env listenFd) count world
        (first :: rest)).appended.length ≤ 1 := by
  cases hready : first.ready with
  | false =>
      rw [sweep_quiet hready]
      refine ⟨rfl, ?_⟩
      show (sweep _ _ count world rest).appended.length ≤ 1
      rw [appended_clients hrest]
      exact Nat.zero_le 1
  | true =>
      rw [sweep_ready hready]
      show (Visit.kept first _ ++ _).head? = _ ∧ (Visit.added _ ++ _).length ≤ 1
      rw [appended_clients hrest, List.append_nil]
      rcases handleEntry_spec env listenFd world count first with
        hkeep | ⟨_, hclient⟩ | ⟨fd, happend, -⟩
      · rw [hkeep]
        exact ⟨rfl, Nat.zero_le 1⟩
      · exact absurd hfirst hclient
      · rw [happend]
        exact ⟨rfl, Nat.le_refl 1⟩

/-- With the listening socket at the first place of the array and nowhere else, whatever is
ready and whatever becomes of what is handled: the loop returns without leaving the array,
it has handled each ready entry once, in order, and no other one, and the entries left are
the listening socket, the others that were not removed, and the new one, if there is one. -/
theorem pollRound_servesOnce (env : PollEnv σ) (a : PollArray) (world : σ)
    {first : PollFd} {rest : List PollFd} (hentries : a.entries = first :: rest)
    (hrest : ∀ entry ∈ rest, entry.fd ≠ first.fd)
    {fuel : Nat} (hfuel : (maxFds + 1) * (maxFds + 1) ≤ fuel) :
    ∃ s', pollRound env first.fd fuel a world = .done s' ∧
      s'.visits.map Prod.fst = a.entries.filter PollFd.ready ∧
      s'.array.entries = survivors PollFd.ready a.entries (s'.visits.map Prod.snd) ++
        s'.visits.flatMap (fun visited => visited.2.added) ∧
      (a.entries.Nodup → s'.array.entries =
        a.entries.filter (fun entry => decide ((entry, Visit.remove) ∉ s'.visits)) ++
          s'.visits.flatMap fun visited => visited.2.added) ∧
      s'.array.entries.head? = some first ∧
      (s'.visits.flatMap fun visited => visited.2.added).length ≤ 1 ∧
      1 ≤ s'.array.nfds ∧ s'.array.nfds ≤ maxFds ∧
      PollLoop.EndsIn env first.fd ⟨a, 0, world, []⟩ s' := by
  obtain ⟨s', hrun, hends⟩ := pollRound_eq_sweep env first.fd a world hfuel
  have hswept : PollLoop.swept env first.fd ⟨a, 0, world, []⟩ =
      sweep PollFd.ready (handleEntry env first.fd) a.nfds world a.entries := rfl
  have hvisits : s'.visits = _ := hends.visits.trans (List.nil_append _)
  have hleft : s'.array.entries = _ := hends.entries
  have honce : s'.visits.map Prod.fst = a.entries.filter PollFd.ready := by
    rw [hvisits, hswept]
    exact map_fst_visits a.nfds world a.entries
  have hsurvive : s'.array.entries =
      survivors PollFd.ready a.entries (s'.visits.map Prod.snd) ++
        s'.visits.flatMap (fun visited => visited.2.added) := by
    rw [hleft, List.take_zero, List.nil_append, hvisits, hswept, kept_eq, appended_eq]
  have hlisten := swept_listening env rfl hrest a.nfds world
  rw [← hentries, ← hswept] at hlisten
  obtain ⟨hhead, hone⟩ := hlisten
  have hfirst : s'.array.entries.head? = some first := by
    rw [hleft, List.take_zero, List.nil_append, List.head?_append, hhead]
    rfl
  refine ⟨s', hrun, honce, hsurvive, fun hnodup => ?_, hfirst, ?_, ?_, s'.array.inUse, hends⟩
  · rw [hsurvive, survivors_eq_filter hnodup honce]
  · rw [hvisits, hswept, ← appended_eq, ← hswept]
    exact hone
  · rw [← s'.array.length_entries]
    exact List.length_pos_of_mem (List.mem_of_mem_head? hfirst)

end Loop

/-! ### Two neighbours removed and a connection accepted in one round -/

/-- The listening socket 3, and the descriptors 5 to 8, of which 7 has nothing to read. -/
def crowdedArray : PollArray where
  cells := [⟨3, true⟩, ⟨5, true⟩, ⟨6, true⟩, ⟨7, false⟩, ⟨8, true⟩] ++ List.replicate 251 ⟨0, false⟩
  nfds := 5
  size_eq := by rw [List.length_append, List.length_replicate]; rfl
  inUse := by decide

/-- `accept` returns 9, 5 has hung up, 6 says `OP_BYE` and 8 `OP_CONNECT`. -/
def crowdedEnv : PollEnv Unit where
  accept := fun _ => (some 9, ())
  inetNtop := fun _ => some (lit "10.0.0.1")
  addrBlocked := fun _ _ => false
  recvMessage := fun _ fd =>
    (if fd = 5 then none else some (⟨0, 1, if fd = 6 then opBye else opConnect, 0⟩, none), ())
  isRegisteredClient := fun _ _ => true
  calloc := fun _ => (true, ())
  perform := fun _ _ => ()

theorem pollRound_crowded :
    ∃ s', pollRound crowdedEnv 3 66049 crowdedArray () = .done s' ∧
      s'.visits.map (fun visited => visited.1.fd) = [3, 5, 6, 8] ∧
      s'.array.entries.map PollFd.fd = [3, 7, 8, 9] := by
  have hentries : crowdedArray.entries =
      ⟨3, true⟩ :: [⟨5, true⟩, ⟨6, true⟩, ⟨7, false⟩, ⟨8, true⟩] := rfl
  obtain ⟨s', hrun, honce, -, -, -, -, -, -, hends⟩ :=
    pollRound_servesOnce crowdedEnv crowdedArray () hentries (by decide) (Nat.le_refl 66049)
  refine ⟨s', hrun, ?_, ?_⟩
  · have hfds := congrArg (List.map PollFd.fd) honce
    rw [List.map_map] at hfds
    exact hfds.trans (by decide)
  · rw [hends.entries]
    decide

end SqlCodeGenerator
