import SqlCodeGenerator.Library.Sections
import SqlCodeGenerator.RequestQueue
import SqlCodeGenerator.Wakeups

/-!
# The queue under its lock

The threads with the queue in memory.  In `queue_push` and `queue_pop` every access to
`head`, to `tail`, to a link and to `queue_depth` is a step of its own, and the other
threads take steps between them.

* `pushSection`, `popSection`: the accesses, in their order;
* `LinkedEvent.step`: a step of the threads;
* `Linked.Follows.step`: where only the thread that has the lock goes through the queue,
  the threads follow those whose pushes and pops are single steps;
* `linked_refines_server`: so does the server.
-/

namespace SqlCodeGenerator

open Library

/-! ## The critical sections

What a test has read is not read again. -/

/-- `g_state->queue_depth++`. -/
def countPush : Section QueueState Unit :=
  .read fun s => .write (fun s' => { s' with queueDepth := s.queueDepth + 1 }) (.done ())

/-- `queue_push` while it has the lock, up to `pthread_cond_signal`. -/
def pushSection (r : Address) : Section QueueState Unit :=
  .read fun s =>
    match s.queue.tail with
    | none =>
        -- `q->head = q->tail = r`
        .write (fun s => { s with queue := ⟨s.queue.head, some r⟩ }) <|
          .write (fun s => { s with queue := ⟨some r, s.queue.tail⟩ }) countPush
    | some tail =>
        .write (fun s => { s with
            node := Function.update s.node tail { s.node tail with next := some r } }) <|
          .write (fun s => { s with queue := ⟨s.queue.head, some r⟩ }) countPush

/-- `queue_depth` is counted down, if it is positive. -/
def countPop (r : Address) : Section QueueState (Option Address) :=
  .read fun s =>
    if s.queueDepth > 0 then
      .write (fun s' => { s' with queueDepth := s.queueDepth - 1 }) (.done (some r))
    else
      .done (some r)

/-- `queue_pop` behind its loop, up to `pthread_mutex_unlock`. -/
def popSection : Section QueueState (Option Address) :=
  .read fun s =>
    match s.queue.head with
    | none => .done none
    | some r =>
        .read fun s =>
          .write (fun s' => { s' with queue := ⟨(s.node r).next, s'.queue.tail⟩ }) <|
            .read fun s =>
              if s.queue.head = none then
                .write (fun s => { s with queue := ⟨s.queue.head, none⟩ }) (countPop r)
              else
                countPop r

/-- Without interruption it is `queue_push`. -/
theorem run_pushSection {r : Address} {s : QueueState} (hnext : (s.node r).next = none) :
    (pushSection r).run s = ((), queuePush r s) := by
  have hnode : Function.update s.node r { s.node r with next := none } = s.node := by
    rw [← hnext]
    exact Function.update_eq_self r s.node
  unfold queuePush pushSection
  rw [hnode]
  simp only [Section.run]
  cases s.queue.tail with
  | none => rfl
  | some tail => rfl

/-- And `queue_pop`. -/
theorem run_popSection (s : QueueState) : popSection.run s = queuePop s := by
  unfold queuePop popSection
  simp only [Section.run]
  cases s.queue.head with
  | none => rfl
  | some r =>
      have hcount : ∀ s : QueueState, (countPop r).run s = (some r, { s with
          queueDepth := if s.queueDepth > 0 then s.queueDepth - 1 else s.queueDepth }) := by
        intro s
        unfold countPop
        simp only [Section.run]
        split
        · next hpos => rfl
        · rfl
      simp only [Section.run]
      by_cases hlink : (s.node r).next = none
      · rw [if_pos hlink, if_pos hlink, Section.run, hcount]
      · rw [if_neg hlink, if_neg hlink, hcount]

theorem pushSection_keepsToEnd (r : Address) :
    (pushSection r).KeepsToEnd QueueState.queueDepth := by
  have hcount : countPush.KeepsToEnd QueueState.queueDepth :=
    fun s => ⟨trivial, fun h => by cases h⟩
  intro s
  dsimp only
  split
  · exact ⟨⟨hcount, fun _ _ => rfl⟩, fun _ _ => rfl⟩
  · exact ⟨⟨hcount, fun _ _ => rfl⟩, fun _ _ => rfl⟩

theorem popSection_keepsToEnd : popSection.KeepsToEnd QueueState.queueDepth := by
  have hcount : ∀ r, (countPop r).KeepsToEnd QueueState.queueDepth := by
    intro r s
    dsimp only
    split
    · exact ⟨trivial, fun h => by cases h⟩
    · exact trivial
  intro s
  dsimp only
  split
  · exact trivial
  · next r hhead =>
      intro s
      refine ⟨fun s => ?_, fun _ _ => rfl⟩
      dsimp only
      split
      · exact ⟨hcount r, fun _ _ => rfl⟩
      · exact hcount r

/-! ## The threads -/

/-- The server with its threads and its queue in memory.  The list of requests in `threads`
is not looked at. -/
structure Linked where
  threads : Threads
  node : Address → RequestNode
  queue : LinkedQueue Address
  /-- What is left of `pushSection` and `popSection`. -/
  pushing : Option (Section QueueState Unit)
  popping : Option (Section QueueState (Option Address))
  /-- The worker has a request and is to give the lock back. -/
  returning : Bool
  /-- The requests that `calloc` has returned and the worker has not taken. -/
  allocated : List Address

namespace Linked

/-- After `pthread_create` of the threads. -/
def init (now : Int) (node : Address → RequestNode) : Linked :=
  ⟨.init now, node, ⟨none, none⟩, none, none, false, []⟩

/-- The memory that the lock guards. -/
def memory (c : Linked) : QueueState := ⟨c.node, c.queue, c.threads.server.shared.queueDepth⟩

/-- Is the lock free? -/
def free (c : Linked) : Bool := decide (c.threads.mutex = none) && !c.returning

end Linked

/-- The threads with another `queue_depth`. -/
def Threads.withDepth (s : Threads) (queueDepth : Int) : Threads :=
  { s with server := { s.server with
      shared := { s.server.shared with queueDepth := queueDepth.toNat } } }

/-- The memory after an access. -/
def Linked.withMemory (c : Linked) (m : QueueState) : Linked :=
  { c with threads := c.threads.withDepth m.queueDepth, node := m.node, queue := m.queue }

/-- A step of one of the threads. -/
inductive LinkedEvent where
  /-- A step that leaves the queue alone. -/
  | thread (e : ThreadEvent)
  /-- `queue_push` gets the lock, with a request for which `calloc` has returned an address. -/
  | lockPush (r : Address)
  /-- An access of `queue_push`, and the last one. -/
  | pushAccess
  | append
  /-- The worker tests `q->head == NULL && g_running`. -/
  | test
  /-- An access of `queue_pop`, and the last one if it takes a request. -/
  | popAccess
  | take
  /-- The worker gives the lock back and returns the request. -/
  | unlockPop
  /-- It gives the lock back and returns NULL. -/
  | leave

/-- The steps that leave the queue alone. -/
def ThreadEvent.leavesQueue : ThreadEvent → Bool
  | lockPush => false
  | append => false
  | test => false
  | take => false
  | leave => false
  | _ => true

/-- The steps for which the worker has to have given the lock back. -/
def ThreadEvent.waitsForWorker : ThreadEvent → Bool
  | lockPop => true
  | relock => true
  | lockBroadcast => true
  | work _ => true
  | _ => false

/-- A step. -/
def LinkedEvent.step (c : Linked) : LinkedEvent → Option Linked
  | .thread e =>
      if e.leavesQueue = true ∧ (e.waitsForWorker = true → c.returning = false) then
        (e.step c.threads).map fun threads => { c with threads := threads }
      else
        none
  | .lockPush r =>
      match c.threads.server.pending with
      | none => none
      | some request =>
          if c.threads.ordinary = .polling ∧ c.free = true ∧ r ∉ c.allocated then
            some { c with
              threads := { c.threads with ordinary := .appending, mutex := some .ordinary }
              node := Function.update c.node r ⟨request, none⟩
              pushing := some (pushSection r)
              allocated := c.allocated ++ [r] }
          else
            none
  | .pushAccess =>
      match c.pushing with
      | none => none
      | some p =>
          let (rest, m) := p.access c.memory
          match rest.result? with
          | some _ => none
          | none => some { c.withMemory m with pushing := some rest }
  | .append =>
      match c.pushing with
      | none => none
      | some p =>
          let (rest, m) := p.access c.memory
          match rest.result? with
          | none => none
          | some _ =>
              let threads := c.threads.withDepth m.queueDepth
              some { c.withMemory m with
                threads := { threads with
                  server := { threads.server with pending := none }
                  ordinary := .signalling }
                pushing := none }
  | .test =>
      if c.threads.worker = .testing then
        if c.queue.head = none ∧ c.threads.running = true then
          -- `pthread_cond_wait` gives the lock back
          some { c with threads := { c.threads with worker := .asleep, mutex := none } }
        else
          some { c with
            threads := { c.threads with worker := .taking }
            popping := some popSection }
      else
        none
  | .popAccess =>
      match c.popping with
      | none => none
      | some p =>
          let (rest, m) := p.access c.memory
          match rest.result? with
          | some (some _) => none
          | _ => some { c.withMemory m with popping := some rest }
  | .take =>
      match c.popping with
      | none => none
      | some p =>
          let (rest, m) := p.access c.memory
          match rest.result? with
          | some (some r) =>
              let threads := c.threads.withDepth m.queueDepth
              some { c.withMemory m with
                threads := { threads with
                  server := { threads.server with worker := .popped (m.node r).request }
                  worker := .processing
                  mutex := none }
                popping := none
                returning := true
                allocated := c.allocated.erase r }
          | _ => none
  | .unlockPop => if c.returning then some { c with returning := false } else none
  | .leave =>
      match c.popping with
      | some (.done none) =>
          some { c with
            threads := { c.threads with worker := .ended, mutex := none }
            popping := none }
      | _ => none

/-! ## Steps that leave the queue alone -/

/-- The threads with a list of requests. -/
def Threads.withQueue (s : Threads) (queue : List Request) : Threads :=
  { s with server := { s.server with queue := queue } }

/-- Is it a step of `queue_push` or `queue_pop`? -/
def Event.onQueue : Event → Bool
  | .interface .push => true
  | .pop => true
  | _ => false

theorem Event.step_withQueue {s s' : Server} {e : Event} (hother : e.onQueue = false)
    (h : e.step s = some s') (queue : List Request) :
    e.step { s with queue := queue } = some { s' with queue := queue } := by
  cases Event.step_spec h with
  | connect now fd addr => rfl
  | close fd => rfl
  | receive now fd clientId opId payload hpending hregistered =>
      simp only [Event.step, InterfaceEvent.step, hpending, hregistered, Option.isNone_none,
        Bool.and_self, if_true]
  | push r hpending => cases hother
  | admin connected => rfl
  | cancel clientId => rfl
  | note line => rfl
  | pop r rest hworker hqueue => cases hother
  | begin now r hworker =>
      simp only [Event.step, hworker]
  | handle env r state handled hworker hhandle =>
      simp only [Event.step, hworker, hhandle, Option.map_some]
  | finish now elapsed r handled hworker =>
      simp only [Event.step, hworker]

theorem InterfaceEvent.onQueue_of_byOrdinary {e : InterfaceEvent} (h : e.byOrdinary = true) :
    (Event.interface e).onQueue = false := by
  cases e with
  | push => cases h
  | _ => rfl

theorem InterfaceEvent.onQueue_of_byAdmin {e : InterfaceEvent} (h : e.byAdmin = true) :
    (Event.interface e).onQueue = false := by
  cases e with
  | push => cases h
  | _ => rfl

theorem Event.onQueue_of_ofRequest {e : Event} (h : e.ofRequest = true) : e.onQueue = false := by
  cases e with
  | interface e => cases h
  | pop => cases h
  | _ => rfl

theorem ThreadEvent.step_withQueue {s s' : Threads} {e : ThreadEvent}
    (hother : e.leavesQueue = true) (h : e.step s = some s') (queue : List Request) :
    e.step (s.withQueue queue) = some (s'.withQueue queue) := by
  cases ThreadEvent.step_spec h with
  | ordinary e server hat hpending hkind hserver =>
      have hstep := Event.step_withQueue (InterfaceEvent.onQueue_of_byOrdinary hkind) hserver queue
      have hguard : s.ordinary = .polling ∧ s.server.pending = none ∧ e.byOrdinary = true :=
        ⟨hat, hpending, hkind⟩
      show (if s.ordinary = .polling ∧ s.server.pending = none ∧ e.byOrdinary = true then
        (s.withQueue queue).serverStep (.interface e) else none) = _
      rw [if_pos hguard, Threads.serverStep, Threads.withQueue, hstep]
      rfl
  | admin e server hat hkind hserver =>
      have hstep := Event.step_withQueue (InterfaceEvent.onQueue_of_byAdmin hkind) hserver queue
      simp [ThreadEvent.step, Threads.withQueue, Threads.serverStep, hat, hkind, hstep]
  | work e server hat hkind hserver =>
      have hstep := Event.step_withQueue (Event.onQueue_of_ofRequest hkind) hserver queue
      simp [ThreadEvent.step, Threads.withQueue, Threads.serverStep, hat, hkind, hstep]
  | lockPush hat hpending hfree => cases hother
  | append server hat hserver => cases hother
  | sleep hat hqueue hrunning => cases hother
  | goOn hat htest => cases hother
  | take server hat hserver => cases hother
  | leave hat hqueue => cases hother
  | stop => rfl
  | signal hat => simp [ThreadEvent.step, Threads.withQueue, Threads.wakeWorker, hat]
  | unlockPush hat => simp [ThreadEvent.step, Threads.withQueue, hat]
  | endOrdinary hat hpending => simp [ThreadEvent.step, Threads.withQueue, hat, hpending]
  | endAdmin hat => simp [ThreadEvent.step, Threads.withQueue, hat]
  | enter hat => simp [ThreadEvent.step, Threads.withQueue, hat]
  | lockPop hat hfree => simp [ThreadEvent.step, Threads.withQueue, hat, hfree]
  | wake hat => simp [ThreadEvent.step, Threads.withQueue, hat]
  | relock hat hfree => simp [ThreadEvent.step, Threads.withQueue, hat, hfree]
  | notice hat hrunning => simp [ThreadEvent.step, Threads.withQueue, hat, hrunning]
  | joined hat hordinary hadmin =>
      simp [ThreadEvent.step, Threads.withQueue, hat, hordinary, hadmin]
  | lockBroadcast hat hfree => simp [ThreadEvent.step, Threads.withQueue, hat, hfree]
  | broadcast hat => simp [ThreadEvent.step, Threads.withQueue, Threads.wakeWorker, hat]
  | unlockBroadcast hat => simp [ThreadEvent.step, Threads.withQueue, hat]
  | finish hat hworker => simp [ThreadEvent.step, Threads.withQueue, hat, hworker]

/-- What such a step leaves of the queue's part of the threads. -/
structure Threads.BesideQueue (s s' : Threads) : Prop where
  depth : s'.server.shared.queueDepth = s.server.shared.queueDepth
  appending : s'.ordinary = .appending ↔ s.ordinary = .appending
  taking : s'.worker = .taking ↔ s.worker = .taking
  pending : s.ordinary = .appending → s'.server.pending = s.server.pending

theorem Event.depth_of_onQueue {s s' : Server} {e : Event} (hother : e.onQueue = false)
    (h : e.step s = some s') : s'.shared.queueDepth = s.shared.queueDepth := by
  have hsame : s' = { s' with queue := s.queue } :=
    Option.some.inj (h.symm.trans (Event.step_withQueue hother h s.queue))
  have hqueue : s'.queue = s.queue := (congrArg Server.queue hsame).trans rfl
  rcases Event.step_queue h with ⟨-, hdepth⟩ | ⟨r, hpush, -⟩ | ⟨r, hpop, -⟩
  · exact hdepth
  · have hlength := congrArg List.length (hqueue.symm.trans hpush)
    rw [List.length_append, List.length_singleton] at hlength
    omega
  · have hlength := congrArg List.length (hpop.trans (congrArg (r :: ·) hqueue))
    rw [List.length_cons] at hlength
    omega

theorem ThreadEvent.step_besideQueue {s s' : Threads} {e : ThreadEvent}
    (hother : e.leavesQueue = true) (h : e.step s = some s') : s.BesideQueue s' := by
  have hsame : ∀ {main : MainAt} {running adminEnded : Bool} {mutex : Option Thread},
      s.BesideQueue { s with
        main := main, running := running, adminEnded := adminEnded, mutex := mutex } :=
    ⟨rfl, Iff.rfl, Iff.rfl, fun _ => rfl⟩
  cases ThreadEvent.step_spec h with
  | ordinary e server hat hpending hkind hserver =>
      refine ⟨Event.depth_of_onQueue (InterfaceEvent.onQueue_of_byOrdinary hkind) hserver, Iff.rfl,
        Iff.rfl, fun happending => ?_⟩
      rw [hat] at happending
      cases happending
  | admin e server hat hkind hserver =>
      exact ⟨Event.depth_of_onQueue (InterfaceEvent.onQueue_of_byAdmin hkind) hserver, Iff.rfl,
        Iff.rfl, fun _ => Threads.pending_admin hkind hserver⟩
  | work e server hat hkind hserver =>
      refine ⟨Event.depth_of_onQueue (Event.onQueue_of_ofRequest hkind) hserver, Iff.rfl, ?_,
        fun _ => (Threads.queue_request e hkind hserver).2⟩
      dsimp only
      split
      · simp [hat]
      · simp [hat]
  | lockPush hat hpending hfree => cases hother
  | append server hat hserver => cases hother
  | sleep hat hqueue hrunning => cases hother
  | goOn hat htest => cases hother
  | take server hat hserver => cases hother
  | leave hat hqueue => cases hother
  | signal hat =>
      refine ⟨rfl, by simp [hat], ?_, fun _ => rfl⟩
      simp only [Threads.wakeWorker]
      split
      · next hasleep => simp [hasleep]
      · exact Iff.rfl
  | broadcast hat =>
      refine ⟨rfl, Iff.rfl, ?_, fun _ => rfl⟩
      simp only [Threads.wakeWorker]
      split
      · next hasleep => simp [hasleep]
      · exact Iff.rfl
  | unlockPush hat => exact ⟨rfl, by simp [hat], Iff.rfl, fun _ => rfl⟩
  | endOrdinary hat hpending => exact ⟨rfl, by simp [hat], Iff.rfl, fun _ => rfl⟩
  | enter hat =>
      refine ⟨rfl, Iff.rfl, ?_, fun _ => rfl⟩
      dsimp only
      split
      · simp [hat]
      · simp [hat]
  | lockPop hat hfree => exact ⟨rfl, Iff.rfl, by simp [hat], fun _ => rfl⟩
  | wake hat => exact ⟨rfl, Iff.rfl, by simp [hat], fun _ => rfl⟩
  | relock hat hfree => exact ⟨rfl, Iff.rfl, by simp [hat], fun _ => rfl⟩
  | _ => exact hsame

/-! ## The list of requests -/

namespace Linked

variable {c c' : Linked} {t : Threads} {queue : List (Address × Request)}

/-- What is left of a push brings the list with the request that the interface has built. -/
structure PushBrings (c : Linked) (queue : List (Address × Request))
    (p : Section QueueState Unit) : Prop where
  keeps : p.KeepsToEnd QueueState.queueDepth
  brings : ∃ r request, c.threads.server.pending = some request ∧
    c.allocated = queue.map Prod.fst ++ [r] ∧
    (p.run c.memory).2.Holds (queue ++ [(r, request)])

/-- What is left of a pop brings the list without its first request, and that as the
result. -/
structure PopBrings (c : Linked) (queue : List (Address × Request))
    (p : Section QueueState (Option Address)) : Prop where
  keeps : p.KeepsToEnd QueueState.queueDepth
  allocated : c.allocated = queue.map Prod.fst
  result : (p.run c.memory).1 = (queue.map Prod.fst).head?
  holds : (p.run c.memory).2.Holds queue.tail
  request : ∀ r request rest, queue = (r, request) :: rest →
    ((p.run c.memory).2.node r).request = request

/-- The threads beside those whose queue is a list of requests: while nobody is in the
queue, the memory holds the list. -/
structure Follows (c : Linked) (t : Threads) (queue : List (Address × Request)) : Prop where
  sound : t.Sound
  threads : t = c.threads.withQueue (queue.map Prod.snd)
  depth : c.threads.server.shared.queueDepth = queue.length
  appending : c.pushing.isSome = true ↔ c.threads.ordinary = .appending
  taking : c.popping.isSome = true ↔ c.threads.worker = .taking
  still : c.pushing = none → c.popping = none →
    c.memory.Holds queue ∧ c.allocated = queue.map Prod.fst
  pushes : ∀ p, c.pushing = some p → c.PushBrings queue p
  pops : ∀ p, c.popping = some p → c.PopBrings queue p

/-- Where nobody pushes, or pops, nothing is to be brought. -/
theorem pushes_none (hpushing : c.pushing = none) :
    ∀ p, c.pushing = some p → c.PushBrings queue p := by
  intro p hp
  rw [hpushing] at hp
  cases hp

theorem pops_none (hpopping : c.popping = none) :
    ∀ p, c.popping = some p → c.PopBrings queue p := by
  intro p hp
  rw [hpopping] at hp
  cases hp

/-- `queue_depth` counts a list, so it is a natural number. -/
theorem holds_toNat {m : QueueState} (h : m.Holds queue) :
    QueueState.Holds ⟨m.node, m.queue, (m.queueDepth.toNat : Int)⟩ queue := by
  have hdepth : (m.queueDepth.toNat : Int) = m.queueDepth := by
    rw [h.depth]
    rfl
  rw [hdepth]
  exact h

theorem mutex_of_free (h : c.free = true) : c.threads.mutex = none := by
  simp only [free, Bool.and_eq_true, decide_eq_true_eq] at h
  exact h.1

theorem eq_nil_of_head? (h : none = (queue.map Prod.fst).head?) : queue = [] :=
  List.map_eq_nil_iff.mp (List.head?_eq_none_iff.mp h.symm)

theorem init_follows (now : Int) (node : Address → RequestNode) :
    (Linked.init now node).Follows (.init now) [] where
  sound := Threads.init_sound now
  threads := rfl
  depth := rfl
  appending := by simp [Linked.init, Threads.init]
  taking := by simp [Linked.init, Threads.init]
  still _ _ := ⟨queueInit_holds node, rfl⟩
  pushes := pushes_none rfl
  pops := pops_none rfl

namespace Follows

/-- Who has the lock: `queue_push` and `queue_pop` are not in the queue at once. -/
theorem not_both (h : c.Follows t queue) (hpush : t.holds .ordinary = true)
    (hpop : t.holds .worker = true) : False := by
  have hsame := h.sound.locked.unique hpush hpop
  cases hsame

theorem ordinary_eq (h : c.Follows t queue) : t.ordinary = c.threads.ordinary := by
  rw [h.threads]
  rfl

theorem worker_eq (h : c.Follows t queue) : t.worker = c.threads.worker := by
  rw [h.threads]
  rfl

theorem popping_eq_none (h : c.Follows t queue) (hat : c.threads.worker ≠ .taking) :
    c.popping = none := by
  by_contra hpopping
  exact hat (h.taking.mp (Option.isSome_iff_ne_none.mpr hpopping))

theorem pushing_eq_none (h : c.Follows t queue) (hat : c.threads.ordinary ≠ .appending) :
    c.pushing = none := by
  by_contra hpushing
  exact hat (h.appending.mp (Option.isSome_iff_ne_none.mpr hpushing))

/-- While the interface is in the queue the worker is not. -/
theorem popping_none (h : c.Follows t queue) (happending : c.threads.ordinary = .appending) :
    c.popping = none := by
  refine h.popping_eq_none fun htaking => h.not_both ?_ ?_
  · rw [Threads.holds, h.ordinary_eq, happending]
    rfl
  · rw [Threads.holds, h.worker_eq, htaking]
    rfl

/-- While the worker has the lock the interface is not in the queue. -/
theorem pushing_none (h : c.Follows t queue) (hworker : c.threads.worker.holds = true) :
    c.pushing = none := by
  refine h.pushing_eq_none fun happending => h.not_both ?_ ?_
  · rw [Threads.holds, h.ordinary_eq, happending]
    rfl
  · rw [Threads.holds, h.worker_eq]
    exact hworker

/-- A step that leaves the queue alone. -/
theorem thread (h : c.Follows t queue) {e : ThreadEvent} {threads : Threads}
    (hother : e.leavesQueue = true) (hstep : e.step c.threads = some threads) :
    ∃ t', e.step t = some t' ∧ ({ c with threads := threads } : Linked).Follows t' queue := by
  have hbeside := ThreadEvent.step_besideQueue hother hstep
  have hstep' := ThreadEvent.step_withQueue hother hstep (queue.map Prod.snd)
  rw [← h.threads] at hstep'
  have hmemory : ({ c with threads := threads } : Linked).memory = c.memory := by
    simp only [memory, hbeside.depth]
  refine ⟨_, hstep', ?_⟩
  refine ⟨h.sound.step hstep', rfl, hbeside.depth.trans h.depth,
    h.appending.trans hbeside.appending.symm, h.taking.trans hbeside.taking.symm, ?_, ?_, ?_⟩
  · rw [hmemory]
    exact h.still
  · intro p hp
    obtain ⟨hkeeps, r, request, hpending, hallocated, hholds⟩ := h.pushes p hp
    have happending := h.appending.mp (Option.isSome_iff_exists.mpr ⟨p, hp⟩)
    refine ⟨hkeeps, r, request, (hbeside.pending happending).trans hpending, hallocated, ?_⟩
    rw [hmemory]
    exact hholds
  · intro p hp
    obtain ⟨hkeeps, hallocated, hresult, hholds, hrequest⟩ := h.pops p hp
    rw [← hmemory] at hresult hholds hrequest
    exact ⟨hkeeps, hallocated, hresult, hholds, hrequest⟩

/-! ### Pushing -/

/-- The lock is free, so nobody is in the queue: the request is linked behind the list. -/
theorem lockPush (h : c.Follows t queue) {r : Address} {request : Request}
    (hpending : c.threads.server.pending = some request) (hat : c.threads.ordinary = .polling)
    (hfree : c.threads.mutex = none) (hr : r ∉ c.allocated) :
    ∃ t', ThreadEvent.lockPush.step t = some t' ∧ ({ c with
      threads := { c.threads with ordinary := .appending, mutex := some .ordinary }
      node := Function.update c.node r ⟨request, none⟩
      pushing := some (pushSection r)
      allocated := c.allocated ++ [r] } : Linked).Follows t' queue := by
  have hfree' : t.mutex = none := by rw [h.threads]; exact hfree
  have hidle := h.sound.locked.free hfree' .worker
  have hpopping := h.popping_eq_none fun htaking => by
    rw [Threads.holds, h.worker_eq, htaking] at hidle
    cases hidle
  have hpushing := h.pushing_eq_none (by rw [hat]; decide)
  obtain ⟨hholds, hallocated⟩ := h.still hpushing hpopping
  have hstep : ThreadEvent.lockPush.step t =
      some { t with ordinary := .appending, mutex := some .ordinary } := by
    rw [h.threads]
    simp [ThreadEvent.step, Threads.withQueue, hat, hfree, hpending]
  refine ⟨_, hstep, ⟨h.sound.step hstep, ?_, h.depth, iff_of_true rfl rfl, h.taking, ?_, ?_,
    pops_none hpopping⟩⟩
  · rw [h.threads]
    rfl
  · intro hnone
    cases hnone
  · intro p hp
    obtain rfl := Option.some.inj hp
    refine ⟨pushSection_keepsToEnd r, r, request, hpending, by rw [hallocated], ?_⟩
    rw [run_pushSection (by simp [memory])]
    -- what the section finds is the list, with the request filled in beside it
    rw [hallocated] at hr
    have hpushed := hholds.push hr request
    have hsame : queuePush r { c.memory with
        node := Function.update c.memory.node r { c.memory.node r with request := request } } =
        queuePush r ⟨Function.update c.node r ⟨request, none⟩, c.queue, c.memory.queueDepth⟩ := by
      simp [queuePush, memory]
    rw [hsame] at hpushed
    exact hpushed

/-- An access that leaves `queue_depth`. -/
theorem withMemory_of_depth {m : QueueState} (hdepth : m.queueDepth = c.memory.queueDepth) :
    c.withMemory m = { c with node := m.node, queue := m.queue } ∧
      ({ c with node := m.node, queue := m.queue } : Linked).memory = m := by
  have hthreads : c.threads.withDepth m.queueDepth = c.threads := by
    rw [hdepth]
    rfl
  refine ⟨?_, ?_⟩
  · rw [withMemory, hthreads]
  · show (⟨m.node, m.queue, c.memory.queueDepth⟩ : QueueState) = m
    rw [← hdepth]

theorem pushAccess (h : c.Follows t queue) {p : Section QueueState Unit}
    (hpushing : c.pushing = some p) (hleft : (p.access c.memory).1.result? = none) :
    ({ c.withMemory (p.access c.memory).2 with
      pushing := some (p.access c.memory).1 } : Linked).Follows t queue := by
  obtain ⟨hkeeps, r, request, hpending, hallocated, hholds⟩ := h.pushes p hpushing
  have happending := h.appending.mp (Option.isSome_iff_exists.mpr ⟨p, hpushing⟩)
  have hpopping := h.popping_none happending
  obtain ⟨hsame, hmemory⟩ := withMemory_of_depth (hkeeps.view_eq hleft)
  rw [hsame]
  refine ⟨h.sound, h.threads, h.depth, iff_of_true rfl happending, h.taking, ?_, ?_,
    pops_none hpopping⟩
  · intro hnone
    cases hnone
  · intro p' hp'
    obtain rfl := Option.some.inj hp'
    refine ⟨hkeeps.access _, r, request, hpending, hallocated, ?_⟩
    rw [← p.run_access c.memory] at hholds
    rw [← hmemory] at hholds
    exact hholds

/-- The last access of a push. -/
theorem append (h : c.Follows t queue) {p : Section QueueState Unit} {result : Unit}
    (hpushing : c.pushing = some p) (hlast : (p.access c.memory).1.result? = some result) :
    ∃ t' queue', ThreadEvent.append.step t = some t' ∧
      ({ c.withMemory (p.access c.memory).2 with
        threads := { c.threads.withDepth (p.access c.memory).2.queueDepth with
          server := { (c.threads.withDepth (p.access c.memory).2.queueDepth).server with
            pending := none }
          ordinary := .signalling }
        pushing := none } : Linked).Follows t' queue' := by
  obtain ⟨-, r, request, hpending, hallocated, hholds⟩ := h.pushes p hpushing
  have happending := h.appending.mp (Option.isSome_iff_exists.mpr ⟨p, hpushing⟩)
  have hpopping := h.popping_none happending
  rw [← p.run_access c.memory, Section.run_of_result hlast] at hholds
  generalize (p.access c.memory).2 = m at hholds
  have hdepth : m.queueDepth = (queue ++ [(r, request)]).length := hholds.depth
  have hcount : m.queueDepth.toNat = c.threads.server.shared.queueDepth + 1 := by
    rw [hdepth, h.depth, List.length_append]
    rfl
  have hstep : ThreadEvent.append.step t = some { t with
      server := { t.server with
        shared := { t.server.shared with queueDepth := t.server.shared.queueDepth + 1 }
        queue := t.server.queue ++ [request]
        pending := none }
      ordinary := .signalling } := by
    rw [h.threads]
    simp [ThreadEvent.step, Threads.withQueue, Threads.serverStep, Event.step,
      InterfaceEvent.step, happending, hpending]
  refine ⟨_, queue ++ [(r, request)], hstep, ⟨h.sound.step hstep, ?_, ?_, ?_, h.taking, ?_,
    pushes_none rfl, pops_none hpopping⟩⟩
  · rw [h.threads]
    simp [Threads.withQueue, Threads.withDepth, hcount]
  · show m.queueDepth.toNat = _
    rw [hdepth]
    rfl
  · exact iff_of_false (by simp) (by simp)
  · intro _ _
    exact ⟨holds_toNat hholds, by rw [List.map_append]; exact hallocated⟩

/-! ### Popping -/

/-- While the worker has the lock and is not in the queue, the memory holds the list. -/
theorem holds_testing (h : c.Follows t queue) (hat : c.threads.worker = .testing) :
    c.pushing = none ∧ c.popping = none ∧ c.memory.Holds queue ∧
      c.allocated = queue.map Prod.fst := by
  have hpushing := h.pushing_none (by rw [hat]; rfl)
  have hpopping := h.popping_eq_none (by rw [hat]; decide)
  exact ⟨hpushing, hpopping, h.still hpushing hpopping⟩

/-- `q->head` is NULL where the list is empty. -/
theorem head_eq_none_iff (hholds : c.memory.Holds queue) : c.queue.head = none ↔ queue = [] := by
  rw [← List.map_eq_nil_iff (f := Prod.fst)]
  exact hholds.links.chain.eq_nil_iff.symm

theorem sleep (h : c.Follows t queue) (hat : c.threads.worker = .testing)
    (htest : c.queue.head = none ∧ c.threads.running = true) :
    ∃ t', ThreadEvent.test.step t = some t' ∧ ({ c with
      threads := { c.threads with worker := .asleep, mutex := none } } : Linked).Follows t'
        queue := by
  obtain ⟨hpushing, hpopping, hholds, hallocated⟩ := h.holds_testing hat
  have hempty := (head_eq_none_iff hholds).mp htest.1
  have hstep : ThreadEvent.test.step t = some { t with worker := .asleep, mutex := none } := by
    rw [h.threads, hempty]
    simp [ThreadEvent.step, Threads.withQueue, hat, htest.2]
  refine ⟨_, hstep, ⟨h.sound.step hstep, ?_, h.depth, h.appending, ?_, ?_, pushes_none hpushing,
    pops_none hpopping⟩⟩
  · rw [h.threads]
    rfl
  · rw [hpopping]
    exact iff_of_false (by simp) (by simp)
  · exact fun _ _ => ⟨hholds, hallocated⟩

/-- Behind the loop of `queue_pop`. -/
theorem goOn (h : c.Follows t queue) (hat : c.threads.worker = .testing)
    (htest : ¬ (c.queue.head = none ∧ c.threads.running = true)) :
    ∃ t', ThreadEvent.test.step t = some t' ∧ ({ c with
      threads := { c.threads with worker := .taking }
      popping := some popSection } : Linked).Follows t' queue := by
  obtain ⟨hpushing, hpopping, hholds, hallocated⟩ := h.holds_testing hat
  have htest' : ¬ (t.server.queue = [] ∧ t.running = true) := by
    rintro ⟨hempty, hrunning⟩
    rw [h.threads] at hempty hrunning
    exact htest ⟨(head_eq_none_iff hholds).mpr (List.map_eq_nil_iff.mp hempty), hrunning⟩
  have hstep : ThreadEvent.test.step t = some { t with worker := .taking } := by
    have hat' : t.worker = .testing := h.worker_eq.trans hat
    simp only [ThreadEvent.step, if_pos hat', if_neg htest']
  refine ⟨_, hstep, ⟨h.sound.step hstep, ?_, h.depth, h.appending, iff_of_true rfl rfl, ?_,
    pushes_none hpushing, ?_⟩⟩
  · rw [h.threads]
    rfl
  · intro _ hnone
    cases hnone
  · intro p hp
    obtain rfl := Option.some.inj hp
    have hmemory : ({ c with
        threads := { c.threads with worker := .taking }
        popping := some popSection } : Linked).memory = c.memory := rfl
    have hrun := run_popSection c.memory
    cases queue with
    | nil =>
        rw [hholds.pop_empty] at hrun
        refine ⟨popSection_keepsToEnd, hallocated, ?_, ?_, fun _ _ _ hcons => by cases hcons⟩
        · rw [hmemory, hrun]
          rfl
        · rw [hmemory, hrun]
          exact hholds
    | cons first queue =>
        obtain ⟨r, request⟩ := first
        obtain ⟨hfirst, hrequest, hrest, -⟩ := hholds.pop
        refine ⟨popSection_keepsToEnd, hallocated, ?_, ?_, ?_⟩
        · rw [hmemory, hrun]
          exact hfirst
        · rw [hmemory, hrun]
          exact hrest
        · intro r' request' rest hcons
          obtain ⟨heq, -⟩ := List.cons.inj hcons
          obtain ⟨rfl, rfl⟩ := Prod.mk.inj heq
          rw [hmemory, hrun]
          exact hrequest

/-- An access of a pop that takes nothing. -/
theorem popAccess (h : c.Follows t queue) {p : Section QueueState (Option Address)}
    (hpopping : c.popping = some p)
    (hleft : ∀ r, (p.access c.memory).1.result? ≠ some (some r)) :
    ({ c.withMemory (p.access c.memory).2 with
      popping := some (p.access c.memory).1 } : Linked).Follows t queue := by
  obtain ⟨hkeeps, hallocated, hresult, hholds, hrequest⟩ := h.pops p hpopping
  have htaking := h.taking.mp (Option.isSome_iff_exists.mpr ⟨p, hpopping⟩)
  have hpushing := h.pushing_none (by rw [htaking]; rfl)
  rw [← p.run_access c.memory] at hresult hholds hrequest
  have hdepth : (p.access c.memory).2.queueDepth = c.memory.queueDepth := by
    cases hdone : (p.access c.memory).1.result? with
    | none => exact hkeeps.view_eq hdone
    | some result =>
        -- there was nothing to take
        cases result with
        | some r => exact absurd hdone (hleft r)
        | none =>
            rw [Section.run_of_result hdone] at hresult hholds
            have hempty := eq_nil_of_head? hresult
            rw [hempty] at hholds
            have hzero : c.memory.queueDepth = 0 := by
              show (c.threads.server.shared.queueDepth : Int) = 0
              rw [h.depth, hempty]
              rfl
            exact hholds.depth.trans hzero.symm
  obtain ⟨hsame, hmemory⟩ := withMemory_of_depth hdepth
  rw [hsame]
  refine ⟨h.sound, h.threads, h.depth, h.appending, iff_of_true rfl htaking, ?_,
    pushes_none hpushing, ?_⟩
  · intro _ hnone
    cases hnone
  · intro p' hp'
    obtain rfl := Option.some.inj hp'
    rw [← hmemory] at hresult hholds hrequest
    exact ⟨hkeeps.access _, hallocated, hresult, hholds, hrequest⟩

/-- Where the worker is to take a request it processes none. -/
theorem worker_idle (h : c.Follows t queue) (htaking : c.threads.worker = .taking) :
    c.threads.server.worker = .idle := by
  have hbusy : ¬ t.server.worker.request.isSome = true := by
    rw [h.sound.processing, h.worker_eq, htaking]
    decide
  rw [h.threads] at hbusy
  revert hbusy
  show ¬ c.threads.server.worker.request.isSome = true → _
  cases c.threads.server.worker with
  | idle => exact fun _ => rfl
  | popped r => exact fun hbusy => absurd rfl hbusy
  | begun r => exact fun hbusy => absurd rfl hbusy
  | handled r handled => exact fun hbusy => absurd rfl hbusy

/-- The last access of a pop that takes a request. -/
theorem take (h : c.Follows t queue) {p : Section QueueState (Option Address)} {r : Address}
    (hpopping : c.popping = some p) (hlast : (p.access c.memory).1.result? = some (some r)) :
    ∃ t' queue', ThreadEvent.take.step t = some t' ∧
      ({ c.withMemory (p.access c.memory).2 with
        threads := { c.threads.withDepth (p.access c.memory).2.queueDepth with
          server := { (c.threads.withDepth (p.access c.memory).2.queueDepth).server with
            worker := .popped ((p.access c.memory).2.node r).request }
          worker := .processing
          mutex := none }
        popping := none
        returning := true
        allocated := c.allocated.erase r } : Linked).Follows t' queue' := by
  obtain ⟨-, hallocated, hresult, hholds, hrequest⟩ := h.pops p hpopping
  have htaking := h.taking.mp (Option.isSome_iff_exists.mpr ⟨p, hpopping⟩)
  have hpushing := h.pushing_none (by rw [htaking]; rfl)
  rw [← p.run_access c.memory, Section.run_of_result hlast] at hresult hholds hrequest
  generalize (p.access c.memory).2 = m at hresult hholds hrequest
  cases queue with
  | nil => cases hresult
  | cons first queue =>
      obtain ⟨r', request⟩ := first
      obtain rfl : r = r' := Option.some.inj hresult
      have htaken : (m.node r).request = request := hrequest r request queue rfl
      have hdepth : m.queueDepth = queue.length := hholds.depth
      have hcount : m.queueDepth.toNat = c.threads.server.shared.queueDepth - 1 := by
        rw [hdepth, h.depth]
        rfl
      have hidle := h.worker_idle htaking
      have hstep : ThreadEvent.take.step t = some { t with
          server := { t.server with
            shared := { t.server.shared with queueDepth := t.server.shared.queueDepth - 1 }
            queue := queue.map Prod.snd
            worker := .popped request }
          worker := .processing
          mutex := none } := by
        rw [h.threads]
        simp [ThreadEvent.step, Threads.withQueue, Threads.serverStep, Event.step, htaking, hidle]
      refine ⟨_, queue, hstep, ⟨h.sound.step hstep, ?_, ?_, h.appending, ?_, ?_,
        pushes_none hpushing, pops_none rfl⟩⟩
      · rw [h.threads, htaken]
        simp [Threads.withQueue, Threads.withDepth, hcount]
      · show m.queueDepth.toNat = _
        rw [hdepth]
        rfl
      · exact iff_of_false (by simp) (by simp)
      · intro _ _
        exact ⟨holds_toNat hholds, by rw [hallocated]; exact List.erase_cons_head r _⟩

/-- A pop that has found the queue empty. -/
theorem leave (h : c.Follows t queue) (hpopping : c.popping = some (.done none)) :
    ∃ t', ThreadEvent.leave.step t = some t' ∧ ({ c with
      threads := { c.threads with worker := .ended, mutex := none }
      popping := none } : Linked).Follows t' queue := by
  obtain ⟨-, hallocated, hresult, hholds, -⟩ := h.pops _ hpopping
  have htaking := h.taking.mp (Option.isSome_iff_exists.mpr ⟨_, hpopping⟩)
  have hpushing := h.pushing_none (by rw [htaking]; rfl)
  obtain rfl := eq_nil_of_head? hresult
  have hstep : ThreadEvent.leave.step t = some { t with worker := .ended, mutex := none } := by
    rw [h.threads]
    simp [ThreadEvent.step, Threads.withQueue, htaking]
  refine ⟨_, hstep, ⟨h.sound.step hstep, ?_, h.depth, h.appending, ?_, ?_, pushes_none hpushing,
    pops_none rfl⟩⟩
  · rw [h.threads]
    rfl
  · exact iff_of_false (by simp) (by simp)
  · exact fun _ _ => ⟨hholds, hallocated⟩

theorem unlockPop (h : c.Follows t queue) :
    ({ c with returning := false } : Linked).Follows t queue where
  sound := h.sound
  threads := h.threads
  depth := h.depth
  appending := h.appending
  taking := h.taking
  still := h.still
  pushes p hp := by
    obtain ⟨hkeeps, hbrings⟩ := h.pushes p hp
    exact ⟨hkeeps, hbrings⟩
  pops p hp := by
    obtain ⟨hkeeps, hallocated, hresult, hholds, hrequest⟩ := h.pops p hp
    exact ⟨hkeeps, hallocated, hresult, hholds, hrequest⟩

end Follows

end Linked

/-! ## The runs -/

/-- The steps of the threads inside an access: the last one is the push, or the pop. -/
def LinkedEvent.moves : LinkedEvent → List ThreadEvent
  | thread e => [e]
  | lockPush _ => [.lockPush]
  | append => [.append]
  | test => [.test]
  | take => [.take]
  | leave => [.leave]
  | pushAccess => []
  | popAccess => []
  | unlockPop => []

/-- What a step leaves, said once for each kind of step. -/
inductive LinkedStep (c : Linked) : LinkedEvent → Linked → Prop where
  | thread (e : ThreadEvent) (threads : Threads) (hother : e.leavesQueue = true)
      (hstep : e.step c.threads = some threads) :
      LinkedStep c (.thread e) { c with threads := threads }
  | lockPush (r : Address) (request : Request)
      (hpending : c.threads.server.pending = some request) (hat : c.threads.ordinary = .polling)
      (hfree : c.free = true) (hr : r ∉ c.allocated) :
      LinkedStep c (.lockPush r) { c with
        threads := { c.threads with ordinary := .appending, mutex := some .ordinary }
        node := Function.update c.node r ⟨request, none⟩
        pushing := some (pushSection r)
        allocated := c.allocated ++ [r] }
  | pushAccess (p : Section QueueState Unit) (hpushing : c.pushing = some p)
      (hleft : (p.access c.memory).1.result? = none) :
      LinkedStep c .pushAccess { c.withMemory (p.access c.memory).2 with
        pushing := some (p.access c.memory).1 }
  | append (p : Section QueueState Unit) (result : Unit) (hpushing : c.pushing = some p)
      (hlast : (p.access c.memory).1.result? = some result) :
      LinkedStep c .append { c.withMemory (p.access c.memory).2 with
        threads := { c.threads.withDepth (p.access c.memory).2.queueDepth with
          server := { (c.threads.withDepth (p.access c.memory).2.queueDepth).server with
            pending := none }
          ordinary := .signalling }
        pushing := none }
  | sleep (hat : c.threads.worker = .testing)
      (htest : c.queue.head = none ∧ c.threads.running = true) :
      LinkedStep c .test { c with
        threads := { c.threads with worker := .asleep, mutex := none } }
  | goOn (hat : c.threads.worker = .testing)
      (htest : ¬ (c.queue.head = none ∧ c.threads.running = true)) :
      LinkedStep c .test { c with
        threads := { c.threads with worker := .taking }
        popping := some popSection }
  | popAccess (p : Section QueueState (Option Address)) (hpopping : c.popping = some p)
      (hleft : ∀ r, (p.access c.memory).1.result? ≠ some (some r)) :
      LinkedStep c .popAccess { c.withMemory (p.access c.memory).2 with
        popping := some (p.access c.memory).1 }
  | take (p : Section QueueState (Option Address)) (r : Address) (hpopping : c.popping = some p)
      (hlast : (p.access c.memory).1.result? = some (some r)) :
      LinkedStep c .take { c.withMemory (p.access c.memory).2 with
        threads := { c.threads.withDepth (p.access c.memory).2.queueDepth with
          server := { (c.threads.withDepth (p.access c.memory).2.queueDepth).server with
            worker := .popped ((p.access c.memory).2.node r).request }
          worker := .processing
          mutex := none }
        popping := none
        returning := true
        allocated := c.allocated.erase r }
  | unlockPop : LinkedStep c .unlockPop { c with returning := false }
  | leave (hpopping : c.popping = some (.done none)) :
      LinkedStep c .leave { c with
        threads := { c.threads with worker := .ended, mutex := none }
        popping := none }

theorem LinkedEvent.step_spec {c c' : Linked} {e : LinkedEvent} (h : e.step c = some c') :
    LinkedStep c e c' := by
  cases e with
  | thread e =>
      obtain ⟨hguard, hstep⟩ := Option.ite_none_right_eq_some.mp h
      obtain ⟨threads, hthreads, rfl⟩ := Option.map_eq_some_iff.mp hstep
      exact .thread e threads hguard.1 hthreads
  | lockPush r =>
      simp only [step] at h
      split at h
      · cases h
      · next request hpending =>
          obtain ⟨⟨hat, hfree, hr⟩, hstep⟩ := Option.ite_none_right_eq_some.mp h
          obtain rfl := Option.some.inj hstep
          exact .lockPush r request hpending hat hfree hr
  | pushAccess =>
      simp only [step] at h
      split at h
      · cases h
      · next p hpushing =>
          split at h
          · cases h
          · next hleft =>
              obtain rfl := Option.some.inj h
              exact .pushAccess p hpushing hleft
  | append =>
      simp only [step] at h
      split at h
      · cases h
      · next p hpushing =>
          split at h
          · cases h
          · next result hlast =>
              obtain rfl := Option.some.inj h
              exact .append p result hpushing hlast
  | test =>
      obtain ⟨hat, htest⟩ := Option.ite_none_right_eq_some.mp h
      split at htest
      · next hempty =>
          obtain rfl := Option.some.inj htest
          exact .sleep hat hempty
      · next hon =>
          obtain rfl := Option.some.inj htest
          exact .goOn hat hon
  | popAccess =>
      simp only [step] at h
      split at h
      · cases h
      · next p hpopping =>
          split at h
          · cases h
          · next hleft =>
              obtain rfl := Option.some.inj h
              exact .popAccess p hpopping hleft
  | take =>
      simp only [step] at h
      split at h
      · cases h
      · next p hpopping =>
          split at h
          · next r hlast =>
              obtain rfl := Option.some.inj h
              exact .take p r hpopping hlast
          · cases h
  | unlockPop =>
      obtain ⟨-, hstep⟩ := Option.ite_none_right_eq_some.mp h
      obtain rfl := Option.some.inj hstep
      exact .unlockPop
  | leave =>
      simp only [step] at h
      split at h
      · next hpopping =>
          obtain rfl := Option.some.inj h
          exact .leave hpopping
      · cases h

/-- Every step. -/
theorem Linked.Follows.step {c c' : Linked} {t : Threads} {queue : List (Address × Request)}
    (h : c.Follows t queue) {e : LinkedEvent} (hstep : e.step c = some c') :
    ∃ t' queue', runFrom ThreadEvent.step t e.moves = some t' ∧ c'.Follows t' queue' := by
  -- one step of the threads
  have hone : ∀ {e : ThreadEvent} {t' : Threads}, e.step t = some t' →
      runFrom ThreadEvent.step t [e] = some t' := fun ht =>
    runFrom_cons_eq_some_iff.mpr ⟨_, ht, rfl⟩
  cases LinkedEvent.step_spec hstep with
  | thread e threads hother hthreads =>
      obtain ⟨t', ht, hfollows⟩ := h.thread hother hthreads
      exact ⟨t', queue, hone ht, hfollows⟩
  | lockPush r request hpending hat hfree hr =>
      obtain ⟨t', ht, hfollows⟩ := h.lockPush hpending hat (Linked.mutex_of_free hfree) hr
      exact ⟨t', queue, hone ht, hfollows⟩
  | pushAccess p hpushing hleft => exact ⟨t, queue, rfl, h.pushAccess hpushing hleft⟩
  | append p result hpushing hlast =>
      obtain ⟨t', queue', ht, hfollows⟩ := h.append hpushing hlast
      exact ⟨t', queue', hone ht, hfollows⟩
  | sleep hat htest =>
      obtain ⟨t', ht, hfollows⟩ := h.sleep hat htest
      exact ⟨t', queue, hone ht, hfollows⟩
  | goOn hat htest =>
      obtain ⟨t', ht, hfollows⟩ := h.goOn hat htest
      exact ⟨t', queue, hone ht, hfollows⟩
  | popAccess p hpopping hleft => exact ⟨t, queue, rfl, h.popAccess hpopping hleft⟩
  | take p r hpopping hlast =>
      obtain ⟨t', queue', ht, hfollows⟩ := h.take hpopping hlast
      exact ⟨t', queue', hone ht, hfollows⟩
  | unlockPop => exact ⟨t, queue, rfl, h.unlockPop⟩
  | leave hpopping =>
      obtain ⟨t', ht, hfollows⟩ := h.leave hpopping
      exact ⟨t', queue, hone ht, hfollows⟩

/-- The server with its queue in memory, after a list of steps. -/
def linked (now : Int) (node : Address → RequestNode) (events : List LinkedEvent) :
    Option Linked :=
  runFrom LinkedEvent.step (.init now node) events

/-- Every run of the threads, with the queue in memory, is a run of those whose pushes and
pops are single steps. -/
theorem linked_follows_threads {now : Int} {node : Address → RequestNode}
    {events : List LinkedEvent} {c : Linked} (h : linked now node events = some c) :
    ∃ t queue, threads now (events.flatMap LinkedEvent.moves) = some t ∧ c.Follows t queue := by
  have hstep : ∀ (c : Linked) (t : Threads) (e : LinkedEvent) (c' : Linked), True →
      (∃ queue, c.Follows t queue) → e.step c = some c' →
      ∃ t', runFrom ThreadEvent.step t e.moves = some t' ∧ ∃ queue', c'.Follows t' queue' := by
    rintro c t e c' - ⟨queue, hfollows⟩ hstep
    obtain ⟨t', queue', ht, hfollows'⟩ := hfollows.step hstep
    exact ⟨t', ht, queue', hfollows'⟩
  obtain ⟨t, ht, queue, hfollows⟩ :=
    runFrom_simulates (P := fun _ => True) hstep ⟨[], Linked.init_follows now node⟩
      (fun _ _ => trivial) h
  exact ⟨t, queue, ht, hfollows⟩

/-- Every run of the threads is a run of the server in which a push and a pop are single
steps, although the other threads take steps between the accesses of `queue_push` and
`queue_pop`: never are both in the queue, and while neither is, the memory holds the
requests that the server has queued. -/
theorem linked_refines_server {now : Int} {node : Address → RequestNode}
    {events : List LinkedEvent} {c : Linked} (h : linked now node events = some c) :
    ∃ server queue,
      serve (.init now) ((events.flatMap LinkedEvent.moves).flatMap ThreadEvent.moves) =
          some server ∧
        server = { c.threads.server with queue := queue.map Prod.snd } ∧
        server.shared.queueDepth = queue.length ∧
        (c.pushing = none ∨ c.popping = none) ∧
        (c.pushing = none → c.popping = none → c.memory.Holds queue) := by
  obtain ⟨t, queue, ht, hfollows⟩ := linked_follows_threads h
  refine ⟨t.server, queue, threads_refine_server ht, ?_, ?_, ?_, ?_⟩
  · rw [hfollows.threads]
    rfl
  · rw [hfollows.threads]
    exact hfollows.depth
  · by_cases hpushing : c.pushing = none
    · exact Or.inl hpushing
    · have happending := hfollows.appending.mp (Option.isSome_iff_ne_none.mpr hpushing)
      exact Or.inr (hfollows.popping_none happending)
  · exact fun hpushing hpopping => (hfollows.still hpushing hpopping).1

/-- A request is pushed while the admin writes to the log and the server stops, and popped
while the interface reads the next one, which waits for the lock. -/
def interleavedPushes : List LinkedEvent :=
  [.thread .enter, .thread .lockPop, .test,
    .thread (.ordinary (.connect 0 5 (lit "10.0.0.1"))),
    .thread (.ordinary (.receive 0 5 1 opGenerateSql [])),
    .lockPush 1, .pushAccess, .pushAccess, .thread (.admin (.note [])), .pushAccess,
    .thread .stop, .pushAccess, .append, .thread .signal, .thread .unlockPush,
    .thread .relock, .test, .popAccess, .popAccess,
    .thread (.ordinary (.receive 0 5 1 opGenerateSql [])),
    .popAccess, .popAccess, .popAccess, .popAccess, .take, .unlockPop,
    .lockPush 2, .pushAccess, .pushAccess, .pushAccess, .pushAccess, .append]

/-- The memory before the first request. -/
def emptyNodes : Address → RequestNode := fun _ => ⟨⟨0, 0, 0, 0, none, 0⟩, none⟩

/-- The second request is in the queue. -/
theorem linked_refines_server_interleaved :
    ∃ c, linked 0 emptyNodes interleavedPushes = some c ∧
      c.queue.head = some 2 ∧
      ∃ server queue,
        serve (.init 0)
            ((interleavedPushes.flatMap LinkedEvent.moves).flatMap ThreadEvent.moves) =
            some server ∧
          server = { c.threads.server with queue := queue.map Prod.snd } ∧
          server.shared.queueDepth = queue.length ∧
          (c.pushing = none ∨ c.popping = none) ∧
          (c.pushing = none → c.popping = none → c.memory.Holds queue) := by
  have hrun : ((linked 0 emptyNodes interleavedPushes).map fun c => c.queue.head) =
      some (some 2) := by decide
  obtain ⟨c, hc, hhead⟩ := Option.map_eq_some_iff.mp hrun
  exact ⟨c, hc, hhead, linked_refines_server hc⟩

end SqlCodeGenerator
