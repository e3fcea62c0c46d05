import SqlCodeGenerator.Server

/-!
# The threads of the server

`main` and the threads that it starts: the worker in `worker_main`, the two interface
threads, and the lock and the condition of the request queue between them.  A step is a
call of `pthread_mutex_lock`, what is done while the lock is held, one part of
`process_request`, or something that an interface thread does without the lock.

`g_running` is read by every thread and written by the signal handler, both without the
lock.

* `ThreadEvent.step`: a step, if its thread is where the step begins;
* `ThreadEvent.step_spec`: what each kind of step leaves.
-/

namespace SqlCodeGenerator

open Library

/-- The threads of the server. -/
inductive Thread where
  | main
  | worker
  | ordinary
  | admin
  deriving DecidableEq

/-- Where `main` is, from its loop on. -/
inductive MainAt where
  /-- `while (g_running) sleep(1)`. -/
  | sleeping
  /-- `pthread_join` of the interface threads. -/
  | joining
  /-- At `pthread_mutex_lock` of the queue. -/
  | locking
  /-- It holds the lock, before and after `pthread_cond_broadcast`. -/
  | broadcasting
  | unlocking
  /-- `pthread_join` of the worker. -/
  | joiningWorker
  | returned
  deriving DecidableEq

/-- Where the worker is. -/
inductive WorkerAt where
  /-- At `while (g_running)` of `worker_main`. -/
  | starting
  /-- At `pthread_mutex_lock` of `queue_pop`. -/
  | locking
  /-- It holds the lock, at `while (q->head == NULL && g_running)`. -/
  | testing
  /-- In `pthread_cond_wait`, before and after it is woken. -/
  | asleep
  | woken
  /-- It holds the lock, behind the loop. -/
  | taking
  /-- In `process_request`. -/
  | processing
  | ended
  deriving DecidableEq

/-- Where the ordinary interface is. -/
inductive OrdinaryAt where
  /-- In its loop, outside `queue_push`. -/
  | polling
  /-- It holds the lock: the request is to be appended, the condition to be signalled, the
  lock to be given back. -/
  | appending
  | signalling
  | unlocking
  | ended
  deriving DecidableEq

/-- The server with its threads. -/
structure Threads where
  server : Server
  /-- `g_running`. -/
  running : Bool
  /-- Who holds the lock of the queue. -/
  mutex : Option Thread
  main : MainAt
  worker : WorkerAt
  ordinary : OrdinaryAt
  adminEnded : Bool

/-- After `pthread_create` of the threads. -/
def Threads.init (now : Int) : Threads :=
  ⟨.init now, true, none, .sleeping, .starting, .polling, false⟩

/-- What the ordinary interface does outside `queue_push`. -/
def InterfaceEvent.byOrdinary : InterfaceEvent → Bool
  | connect _ _ _ => true
  | close _ => true
  | receive _ _ _ _ _ => true
  | _ => false

/-- What the admin interface does. -/
def InterfaceEvent.byAdmin : InterfaceEvent → Bool
  | close _ => true
  | admin _ => true
  | cancel _ => true
  | note _ => true
  | _ => false

/-- A part of `process_request`. -/
def Event.ofRequest : Event → Bool
  | begin _ => true
  | handle _ => true
  | finish _ _ => true
  | _ => false

/-- A step of one of the threads. -/
inductive ThreadEvent where
  /-- SIGINT or SIGTERM. -/
  | stop
  /-- The ordinary interface, outside `queue_push`. -/
  | ordinary (e : InterfaceEvent)
  /-- `queue_push`. -/
  | lockPush
  | append
  | signal
  | unlockPush
  /-- The ordinary interface leaves its loop: `g_running` is 0, or `poll` fails. -/
  | endOrdinary
  | admin (e : InterfaceEvent)
  | endAdmin
  /-- The worker reads `g_running`. -/
  | enter
  /-- `queue_pop`. -/
  | lockPop
  | test
  /-- `pthread_cond_wait` wakes up of itself. -/
  | wake
  | relock
  | take
  /-- The queue is empty: NULL is returned. -/
  | leave
  /-- A part of `process_request`. -/
  | work (e : Event)
  /-- `main` reads that `g_running` is 0. -/
  | notice
  | joined
  | lockBroadcast
  | broadcast
  | unlockBroadcast
  /-- The worker is joined. -/
  | finish

/-- A step of the server without its threads. -/
def Threads.serverStep (s : Threads) (e : Event) : Option Threads :=
  (e.step s.server).map fun server => { s with server := server }

/-- `pthread_cond_signal` and `pthread_cond_broadcast`: only the worker waits. -/
def Threads.wakeWorker (s : Threads) : Threads :=
  { s with worker := if s.worker = .asleep then .woken else s.worker }

/-- A step. -/
def ThreadEvent.step (s : Threads) : ThreadEvent → Option Threads
  | .stop => some { s with running := false }
  | .ordinary e =>
      if s.ordinary = .polling ∧ s.server.pending = none ∧ e.byOrdinary = true then
        s.serverStep (.interface e)
      else
        none
  | .lockPush =>
      if s.ordinary = .polling ∧ s.server.pending ≠ none ∧ s.mutex = none then
        some { s with ordinary := .appending, mutex := some .ordinary }
      else
        none
  | .append =>
      if s.ordinary = .appending then
        (s.serverStep (.interface .push)).map fun s => { s with ordinary := .signalling }
      else
        none
  | .signal =>
      if s.ordinary = .signalling then
        some { s.wakeWorker with ordinary := .unlocking }
      else
        none
  | .unlockPush =>
      if s.ordinary = .unlocking then
        some { s with ordinary := .polling, mutex := none }
      else
        none
  | .endOrdinary =>
      if s.ordinary = .polling ∧ s.server.pending = none then
        some { s with ordinary := .ended }
      else
        none
  | .admin e =>
      if s.adminEnded = false ∧ e.byAdmin = true then s.serverStep (.interface e) else none
  | .endAdmin => if s.adminEnded = false then some { s with adminEnded := true } else none
  | .enter =>
      if s.worker = .starting then
        some { s with worker := if s.running then .locking else .ended }
      else
        none
  | .lockPop =>
      if s.worker = .locking ∧ s.mutex = none then
        some { s with worker := .testing, mutex := some .worker }
      else
        none
  | .test =>
      if s.worker = .testing then
        if s.server.queue = [] ∧ s.running = true then
          -- `pthread_cond_wait` gives the lock back
          some { s with worker := .asleep, mutex := none }
        else
          some { s with worker := .taking }
      else
        none
  | .wake => if s.worker = .asleep then some { s with worker := .woken } else none
  | .relock =>
      if s.worker = .woken ∧ s.mutex = none then
        some { s with worker := .testing, mutex := some .worker }
      else
        none
  | .take =>
      if s.worker = .taking then
        (s.serverStep .pop).map fun s => { s with worker := .processing, mutex := none }
      else
        none
  | .leave =>
      if s.worker = .taking ∧ s.server.queue = [] then
        some { s with worker := .ended, mutex := none }
      else
        none
  | .work e =>
      if s.worker = .processing ∧ e.ofRequest = true then
        (s.serverStep e).map fun s =>
          { s with worker := if s.server.worker.request.isSome then .processing else .starting }
      else
        none
  | .notice =>
      if s.main = .sleeping ∧ s.running = false then some { s with main := .joining } else none
  | .joined =>
      if s.main = .joining ∧ s.ordinary = .ended ∧ s.adminEnded = true then
        some { s with main := .locking }
      else
        none
  | .lockBroadcast =>
      if s.main = .locking ∧ s.mutex = none then
        some { s with main := .broadcasting, mutex := some .main }
      else
        none
  | .broadcast =>
      if s.main = .broadcasting then
        some { s.wakeWorker with main := .unlocking }
      else
        none
  | .unlockBroadcast =>
      if s.main = .unlocking then
        some { s with main := .joiningWorker, mutex := none }
      else
        none
  | .finish =>
      if s.main = .joiningWorker ∧ s.worker = .ended then
        some { s with main := .returned }
      else
        none

/-- The server with its threads after a list of steps. -/
def threads (now : Int) (events : List ThreadEvent) : Option Threads :=
  runFrom ThreadEvent.step (.init now) events

/-- What a step leaves, said once for each kind of step. -/
inductive ThreadStep (s : Threads) : ThreadEvent → Threads → Prop where
  | stop : ThreadStep s .stop { s with running := false }
  | ordinary (e : InterfaceEvent) (server : Server) (hat : s.ordinary = .polling)
      (hpending : s.server.pending = none) (hkind : e.byOrdinary = true)
      (hserver : Event.step s.server (.interface e) = some server) :
      ThreadStep s (.ordinary e) { s with server := server }
  | lockPush (hat : s.ordinary = .polling) (hpending : s.server.pending ≠ none)
      (hfree : s.mutex = none) :
      ThreadStep s .lockPush { s with ordinary := .appending, mutex := some .ordinary }
  | append (server : Server) (hat : s.ordinary = .appending)
      (hserver : Event.step s.server (.interface .push) = some server) :
      ThreadStep s .append { s with server := server, ordinary := .signalling }
  | signal (hat : s.ordinary = .signalling) :
      ThreadStep s .signal { s.wakeWorker with ordinary := .unlocking }
  | unlockPush (hat : s.ordinary = .unlocking) :
      ThreadStep s .unlockPush { s with ordinary := .polling, mutex := none }
  | endOrdinary (hat : s.ordinary = .polling) (hpending : s.server.pending = none) :
      ThreadStep s .endOrdinary { s with ordinary := .ended }
  | admin (e : InterfaceEvent) (server : Server) (hat : s.adminEnded = false)
      (hkind : e.byAdmin = true) (hserver : Event.step s.server (.interface e) = some server) :
      ThreadStep s (.admin e) { s with server := server }
  | endAdmin (hat : s.adminEnded = false) : ThreadStep s .endAdmin { s with adminEnded := true }
  | enter (hat : s.worker = .starting) :
      ThreadStep s .enter { s with worker := if s.running then .locking else .ended }
  | lockPop (hat : s.worker = .locking) (hfree : s.mutex = none) :
      ThreadStep s .lockPop { s with worker := .testing, mutex := some .worker }
  | sleep (hat : s.worker = .testing) (hqueue : s.server.queue = []) (hrunning : s.running = true) :
      ThreadStep s .test { s with worker := .asleep, mutex := none }
  | goOn (hat : s.worker = .testing) (htest : ¬ (s.server.queue = [] ∧ s.running = true)) :
      ThreadStep s .test { s with worker := .taking }
  | wake (hat : s.worker = .asleep) : ThreadStep s .wake { s with worker := .woken }
  | relock (hat : s.worker = .woken) (hfree : s.mutex = none) :
      ThreadStep s .relock { s with worker := .testing, mutex := some .worker }
  | take (server : Server) (hat : s.worker = .taking)
      (hserver : Event.step s.server .pop = some server) :
      ThreadStep s .take { s with server := server, worker := .processing, mutex := none }
  | leave (hat : s.worker = .taking) (hqueue : s.server.queue = []) :
      ThreadStep s .leave { s with worker := .ended, mutex := none }
  | work (e : Event) (server : Server) (hat : s.worker = .processing) (hkind : e.ofRequest = true)
      (hserver : e.step s.server = some server) :
      ThreadStep s (.work e)
        { s with
          server := server
          worker := if server.worker.request.isSome then .processing else .starting }
  | notice (hat : s.main = .sleeping) (hrunning : s.running = false) :
      ThreadStep s .notice { s with main := .joining }
  | joined (hat : s.main = .joining) (hordinary : s.ordinary = .ended)
      (hadmin : s.adminEnded = true) : ThreadStep s .joined { s with main := .locking }
  | lockBroadcast (hat : s.main = .locking) (hfree : s.mutex = none) :
      ThreadStep s .lockBroadcast { s with main := .broadcasting, mutex := some .main }
  | broadcast (hat : s.main = .broadcasting) :
      ThreadStep s .broadcast { s.wakeWorker with main := .unlocking }
  | unlockBroadcast (hat : s.main = .unlocking) :
      ThreadStep s .unlockBroadcast { s with main := .joiningWorker, mutex := none }
  | finish (hat : s.main = .joiningWorker) (hworker : s.worker = .ended) :
      ThreadStep s .finish { s with main := .returned }

/-- A step of the server inside a step of its threads. -/
theorem Threads.serverStep_eq_some {s s' : Threads} {e : Event} (h : s.serverStep e = some s') :
    ∃ server, e.step s.server = some server ∧ s' = { s with server := server } := by
  obtain ⟨server, hserver, rfl⟩ := Option.map_eq_some_iff.mp h
  exact ⟨server, hserver, rfl⟩

/-- Inversion of a step. -/
theorem ThreadEvent.step_spec {s s' : Threads} {e : ThreadEvent} (h : e.step s = some s') :
    ThreadStep s e s' := by
  -- what a guarded step leaves
  have hguard : ∀ {P : Prop} [Decidable P] {step : Option Threads},
      (if P then step else none) = some s' → P ∧ step = some s' := by
    intro P _ step hstep
    by_cases hP : P
    · exact ⟨hP, by rwa [if_pos hP] at hstep⟩
    · rw [if_neg hP] at hstep
      cases hstep
  cases e with
  | stop =>
      obtain rfl := Option.some.inj h
      exact .stop
  | ordinary e =>
      obtain ⟨⟨hat, hpending, hkind⟩, hstep⟩ := hguard h
      obtain ⟨server, hserver, rfl⟩ := Threads.serverStep_eq_some hstep
      exact .ordinary e server hat hpending hkind hserver
  | lockPush =>
      obtain ⟨⟨hat, hpending, hfree⟩, hstep⟩ := hguard h
      obtain rfl := Option.some.inj hstep
      exact .lockPush hat hpending hfree
  | append =>
      obtain ⟨hat, hstep⟩ := hguard h
      obtain ⟨middle, hmiddle, rfl⟩ := Option.map_eq_some_iff.mp hstep
      obtain ⟨server, hserver, rfl⟩ := Threads.serverStep_eq_some hmiddle
      exact .append server hat hserver
  | signal =>
      obtain ⟨hat, hstep⟩ := hguard h
      obtain rfl := Option.some.inj hstep
      exact .signal hat
  | unlockPush =>
      obtain ⟨hat, hstep⟩ := hguard h
      obtain rfl := Option.some.inj hstep
      exact .unlockPush hat
  | endOrdinary =>
      obtain ⟨⟨hat, hpending⟩, hstep⟩ := hguard h
      obtain rfl := Option.some.inj hstep
      exact .endOrdinary hat hpending
  | admin e =>
      obtain ⟨⟨hat, hkind⟩, hstep⟩ := hguard h
      obtain ⟨server, hserver, rfl⟩ := Threads.serverStep_eq_some hstep
      exact .admin e server hat hkind hserver
  | endAdmin =>
      obtain ⟨hat, hstep⟩ := hguard h
      obtain rfl := Option.some.inj hstep
      exact .endAdmin hat
  | enter =>
      obtain ⟨hat, hstep⟩ := hguard h
      obtain rfl := Option.some.inj hstep
      exact .enter hat
  | lockPop =>
      obtain ⟨⟨hat, hfree⟩, hstep⟩ := hguard h
      obtain rfl := Option.some.inj hstep
      exact .lockPop hat hfree
  | test =>
      obtain ⟨hat, hstep⟩ := hguard h
      by_cases htest : s.server.queue = [] ∧ s.running = true
      · rw [if_pos htest] at hstep
        obtain rfl := Option.some.inj hstep
        exact .sleep hat htest.1 htest.2
      · rw [if_neg htest] at hstep
        obtain rfl := Option.some.inj hstep
        exact .goOn hat htest
  | wake =>
      obtain ⟨hat, hstep⟩ := hguard h
      obtain rfl := Option.some.inj hstep
      exact .wake hat
  | relock =>
      obtain ⟨⟨hat, hfree⟩, hstep⟩ := hguard h
      obtain rfl := Option.some.inj hstep
      exact .relock hat hfree
  | take =>
      obtain ⟨hat, hstep⟩ := hguard h
      obtain ⟨middle, hmiddle, rfl⟩ := Option.map_eq_some_iff.mp hstep
      obtain ⟨server, hserver, rfl⟩ := Threads.serverStep_eq_some hmiddle
      exact .take server hat hserver
  | leave =>
      obtain ⟨⟨hat, hqueue⟩, hstep⟩ := hguard h
      obtain rfl := Option.some.inj hstep
      exact .leave hat hqueue
  | work e =>
      obtain ⟨⟨hat, hkind⟩, hstep⟩ := hguard h
      obtain ⟨middle, hmiddle, rfl⟩ := Option.map_eq_some_iff.mp hstep
      obtain ⟨server, hserver, rfl⟩ := Threads.serverStep_eq_some hmiddle
      exact .work e server hat hkind hserver
  | notice =>
      obtain ⟨⟨hat, hrunning⟩, hstep⟩ := hguard h
      obtain rfl := Option.some.inj hstep
      exact .notice hat hrunning
  | joined =>
      obtain ⟨⟨hat, hordinary, hadmin⟩, hstep⟩ := hguard h
      obtain rfl := Option.some.inj hstep
      exact .joined hat hordinary hadmin
  | lockBroadcast =>
      obtain ⟨⟨hat, hfree⟩, hstep⟩ := hguard h
      obtain rfl := Option.some.inj hstep
      exact .lockBroadcast hat hfree
  | broadcast =>
      obtain ⟨hat, hstep⟩ := hguard h
      obtain rfl := Option.some.inj hstep
      exact .broadcast hat
  | unlockBroadcast =>
      obtain ⟨hat, hstep⟩ := hguard h
      obtain rfl := Option.some.inj hstep
      exact .unlockBroadcast hat
  | finish =>
      obtain ⟨⟨hat, hworker⟩, hstep⟩ := hguard h
      obtain rfl := Option.some.inj hstep
      exact .finish hat hworker

end SqlCodeGenerator
