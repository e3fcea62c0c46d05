import SqlCodeGenerator.Threads

/-!
# The lock of the queue

What the lock and the condition of the request queue guarantee, in every run of the
threads.

* `Threads.Sound`: who holds the lock, and what holds while a thread is where it is;
* `Threads.wakeups_kept`: a request in the queue, and the end of the server, find the
  worker awake;
* `threads_refine_server`: what the threads do to the server is a run of it.
-/

namespace SqlCodeGenerator

open Library

/-! ## Who holds the lock -/

/-- `main` is inside its critical section. -/
def MainAt.holds : MainAt → Bool
  | broadcasting => true
  | unlocking => true
  | _ => false

/-- The worker is. -/
def WorkerAt.holds : WorkerAt → Bool
  | testing => true
  | taking => true
  | _ => false

/-- The ordinary interface is. -/
def OrdinaryAt.holds : OrdinaryAt → Bool
  | appending => true
  | signalling => true
  | unlocking => true
  | _ => false

/-- A thread is inside its critical section. -/
def Threads.holds (s : Threads) : Thread → Bool
  | .main => s.main.holds
  | .worker => s.worker.holds
  | .ordinary => s.ordinary.holds
  | .admin => false

/-- The lock says who is inside. -/
def Threads.Locked (s : Threads) : Prop := ∀ t, s.mutex = some t ↔ s.holds t = true

/-- The steps of `main` that are left, when it has stopped the server. -/
def MainAt.left : MainAt → Nat
  | sleeping => 6
  | joining => 5
  | locking => 4
  | broadcasting => 3
  | unlocking => 2
  | joiningWorker => 1
  | returned => 0

/-- What holds while the threads are where they are. -/
structure Threads.Sound (s : Threads) : Prop where
  locked : s.Locked
  /-- The worker has a request exactly while it processes one. -/
  processing : s.server.worker.request.isSome = true ↔ s.worker = .processing
  /-- The request that the ordinary interface has built is the one it pushes. -/
  appending : s.ordinary = .appending → s.server.pending ≠ none
  /-- Behind its loop the worker has a request to take, or the server stops. -/
  taking : s.worker = .taking → s.server.queue ≠ [] ∨ s.running = false
  stopped : s.main ≠ .sleeping → s.running = false
  ended : s.worker = .ended → s.running = false
  joined : s.main.left ≤ 4 → s.ordinary = .ended ∧ s.adminEnded = true
  /-- Who sleeps has nothing to do, or is about to be woken. -/
  idle : s.worker = .asleep → s.server.queue = [] ∨ s.ordinary = .signalling
  woken : s.worker = .asleep → 2 < s.main.left
  returned : s.main = .returned → s.worker = .ended

namespace Threads

variable {s s' : Threads} {e : ThreadEvent}

theorem Locked.free (h : s.Locked) (hfree : s.mutex = none) (t : Thread) : s.holds t = false := by
  by_contra hholds
  have howner := (h t).mpr (by simpa using hholds)
  rw [hfree] at howner
  cases howner

/-- At most one thread is inside. -/
theorem Locked.unique (h : s.Locked) {t u : Thread} (ht : s.holds t = true)
    (hu : s.holds u = true) : t = u :=
  Option.some.inj (((h t).mpr ht).symm.trans ((h u).mpr hu))

theorem init_sound (now : Int) : (Threads.init now).Sound where
  locked t := by cases t <;> simp [init, holds, MainAt.holds, WorkerAt.holds, OrdinaryAt.holds]
  processing := by simp [init, Server.init, Worker.request]
  appending h := by cases h
  taking h := by cases h
  stopped h := absurd rfl h
  ended h := by cases h
  joined h := by simp [init, MainAt.left] at h
  idle h := by cases h
  woken h := by cases h
  returned h := by cases h

/-- A thread that takes the free lock, while the others stay where they are. -/
theorem Locked.take (hs : s.Locked) (hfree : s.mutex = none) {t : Thread}
    (hmutex : s'.mutex = some t) (hholds : s'.holds t = true)
    (hothers : ∀ u, u ≠ t → s'.holds u = s.holds u) : s'.Locked := by
  intro u
  rw [hmutex]
  by_cases hu : u = t
  · subst hu
    exact iff_of_true rfl hholds
  · rw [hothers u hu, hs.free hfree u]
    simp [Ne.symm hu]

/-- The thread that has the lock gives it back. -/
theorem Locked.release (hs : s.Locked) {t : Thread} (hheld : s.holds t = true)
    (hmutex : s'.mutex = none) (hholds : s'.holds t = false)
    (hothers : ∀ u, u ≠ t → s'.holds u = s.holds u) : s'.Locked := by
  intro u
  rw [hmutex]
  by_cases hu : u = t
  · subst hu
    simp [hholds]
  · have hout : s.holds u ≠ true := fun hin => hu (hs.unique hin hheld)
    simp [hothers u hu, hout]

/-- Nobody takes the lock or gives it back. -/
theorem Locked.keep (hs : s.Locked) (hmutex : s'.mutex = s.mutex)
    (hholds : ∀ u, s'.holds u = s.holds u) : s'.Locked := by
  intro u
  rw [hmutex, hholds u]
  exact hs u

/-- Who wakes up does not hold the lock yet. -/
theorem holds_wakeWorker (s : Threads) : s.wakeWorker.worker.holds = s.worker.holds := by
  unfold wakeWorker
  split
  · next hasleep => rw [hasleep]; rfl
  · rfl

/-- The lock is taken when it is free, and given back by who has it. -/
theorem Locked.step (hs : s.Locked) (h : ThreadStep s e s') : s'.Locked := by
  cases h with
  | stop => exact hs
  | ordinary e server hat hpending hkind hserver => exact hs
  | admin e server hat hkind hserver => exact hs
  | endAdmin hat => exact hs
  | lockPush hat hpending hfree =>
      refine hs.take hfree (t := .ordinary) rfl rfl fun u hu => ?_
      cases u <;> first | rfl | exact absurd rfl hu
  | lockPop hat hfree =>
      refine hs.take hfree (t := .worker) rfl rfl fun u hu => ?_
      cases u <;> first | rfl | exact absurd rfl hu
  | relock hat hfree =>
      refine hs.take hfree (t := .worker) rfl rfl fun u hu => ?_
      cases u <;> first | rfl | exact absurd rfl hu
  | lockBroadcast hat hfree =>
      refine hs.take hfree (t := .main) rfl rfl fun u hu => ?_
      cases u <;> first | rfl | exact absurd rfl hu
  | unlockPush hat =>
      refine hs.release (t := .ordinary) (by simp [holds, hat, OrdinaryAt.holds]) rfl rfl
        fun u hu => ?_
      cases u <;> first | rfl | exact absurd rfl hu
  | sleep hat hqueue hrunning =>
      refine hs.release (t := .worker) (by simp [holds, hat, WorkerAt.holds]) rfl rfl
        fun u hu => ?_
      cases u <;> first | rfl | exact absurd rfl hu
  | take server hat hserver =>
      refine hs.release (t := .worker) (by simp [holds, hat, WorkerAt.holds]) rfl rfl
        fun u hu => ?_
      cases u <;> first | rfl | exact absurd rfl hu
  | leave hat hqueue =>
      refine hs.release (t := .worker) (by simp [holds, hat, WorkerAt.holds]) rfl rfl
        fun u hu => ?_
      cases u <;> first | rfl | exact absurd rfl hu
  | unlockBroadcast hat =>
      refine hs.release (t := .main) (by simp [holds, hat, MainAt.holds]) rfl rfl
        fun u hu => ?_
      cases u <;> first | rfl | exact absurd rfl hu
  | append server hat hserver =>
      refine hs.keep rfl fun u => ?_
      cases u <;> simp [holds, hat, OrdinaryAt.holds]
  | signal hat =>
      refine hs.keep rfl fun u => ?_
      cases u with
      | worker => exact holds_wakeWorker s
      | ordinary => simp [holds, hat, OrdinaryAt.holds]
      | main => rfl
      | admin => rfl
  | endOrdinary hat hpending =>
      refine hs.keep rfl fun u => ?_
      cases u <;> simp [holds, hat, OrdinaryAt.holds]
  | enter hat =>
      refine hs.keep rfl fun u => ?_
      cases u with
      | worker => cases hrunning : s.running <;> simp [holds, hat, WorkerAt.holds]
      | _ => rfl
  | goOn hat htest =>
      refine hs.keep rfl fun u => ?_
      cases u <;> simp [holds, hat, WorkerAt.holds]
  | wake hat =>
      refine hs.keep rfl fun u => ?_
      cases u <;> simp [holds, hat, WorkerAt.holds]
  | work e server hat hkind hserver =>
      refine hs.keep rfl fun u => ?_
      cases u with
      | worker =>
          cases hbusy : server.worker.request.isSome <;>
            simp [holds, hat, WorkerAt.holds]
      | _ => rfl
  | notice hat hrunning =>
      refine hs.keep rfl fun u => ?_
      cases u <;> simp [holds, hat, MainAt.holds]
  | joined hat hordinary hadmin =>
      refine hs.keep rfl fun u => ?_
      cases u <;> simp [holds, hat, MainAt.holds]
  | broadcast hat =>
      refine hs.keep rfl fun u => ?_
      cases u with
      | worker => exact holds_wakeWorker s
      | main => simp [holds, hat, MainAt.holds]
      | ordinary => rfl
      | admin => rfl
  | finish hat hworker =>
      refine hs.keep rfl fun u => ?_
      cases u <;> simp [holds, hat, MainAt.holds]

/-! ## What holds while a thread is where it is -/

/-- Nothing but a push puts a request into the queue, and nothing that an interface does
concerns the worker. -/
theorem queue_interface {t t' : Server} {e : InterfaceEvent}
    (hkind : e.byOrdinary = true ∨ e.byAdmin = true)
    (h : Event.step t (.interface e) = some t') : t'.queue = t.queue ∧ t'.worker = t.worker := by
  refine ⟨?_, (InterfaceEvent.step_frame h).2.1⟩
  cases Event.step_spec h with
  | push r hpending => simp [InterfaceEvent.byOrdinary, InterfaceEvent.byAdmin] at hkind
  | _ => rfl

/-- The admin interface builds no request. -/
theorem pending_admin {t t' : Server} {e : InterfaceEvent} (hkind : e.byAdmin = true)
    (h : Event.step t (.interface e) = some t') : t'.pending = t.pending := by
  cases Event.step_spec h with
  | receive now fd clientId opId payload hpending hregistered =>
      simp [InterfaceEvent.byAdmin] at hkind
  | push r hpending => simp [InterfaceEvent.byAdmin] at hkind
  | _ => rfl

/-- `process_request` does nothing to the queue or to the request being built. -/
theorem queue_request {t t' : Server} (e : Event) (hkind : e.ofRequest = true)
    (h : e.step t = some t') : t'.queue = t.queue ∧ t'.pending = t.pending := by
  cases Event.step_spec h with
  | begin now r hworker => exact ⟨rfl, rfl⟩
  | handle env r state handled hworker hhandle => exact ⟨rfl, rfl⟩
  | finish now elapsed r handled hworker => exact ⟨rfl, rfl⟩
  | _ => cases hkind

theorem Sound.processing_step (hs : s.Sound) (h : ThreadStep s e s') :
    s'.server.worker.request.isSome = true ↔ s'.worker = .processing := by
  have hbefore := hs.processing
  cases h with
  | ordinary e server hat hpending hkind hserver =>
      rwa [(queue_interface (Or.inl hkind) hserver).2]
  | admin e server hat hkind hserver =>
      rwa [(queue_interface (Or.inr hkind) hserver).2]
  | append server hat hserver =>
      cases Event.step_spec hserver with
      | push r hpending => exact hbefore
  | take server hat hserver =>
      cases Event.step_spec hserver with
      | pop r rest hworker hqueue => exact iff_of_true rfl rfl
  | work e server hat hkind hserver =>
      cases hbusy : server.worker.request.isSome <;> simp
  | signal hat => grind [wakeWorker]
  | broadcast hat => grind [wakeWorker]
  | enter hat =>
      rw [hat] at hbefore
      cases hrunning : s.running <;> simpa [hrunning] using hbefore
  | _ => simp_all

theorem Sound.appending_step (hs : s.Sound) (h : ThreadStep s e s') :
    s'.ordinary = .appending → s'.server.pending ≠ none := by
  intro hat'
  cases h with
  | ordinary e server hat hpending hkind hserver => rw [hat] at hat'; cases hat'
  | admin e server hat hkind hserver =>
      rw [pending_admin hkind hserver]
      exact hs.appending hat'
  | lockPush hat hpending hfree => exact hpending
  | take server hat hserver =>
      cases Event.step_spec hserver with
      | pop r rest hworker hqueue => exact hs.appending hat'
  | work e server hat hkind hserver =>
      rw [(queue_request e hkind hserver).2]
      exact hs.appending hat'
  | append | signal | unlockPush | endOrdinary => cases hat'
  | _ => exact hs.appending hat'

/-- The server stops once, and for good: what is known of it when `main` or the worker
have seen it stays. -/
theorem Sound.stopped_step (hs : s.Sound) (h : ThreadStep s e s') :
    s'.main ≠ .sleeping → s'.running = false := by
  intro hmain
  cases h with
  | stop => rfl
  | notice hat hrunning => exact hrunning
  | joined hat hordinary hadmin => exact hs.stopped (by rw [hat]; decide)
  | lockBroadcast hat hfree => exact hs.stopped (by rw [hat]; decide)
  | broadcast hat => exact hs.stopped (by rw [hat]; decide)
  | unlockBroadcast hat => exact hs.stopped (by rw [hat]; decide)
  | finish hat hworker => exact hs.stopped (by rw [hat]; decide)
  | _ => exact hs.stopped hmain

/-- Nobody else touches the queue while the worker holds the lock. -/
theorem Sound.taking_step (hs : s.Sound) (h : ThreadStep s e s') :
    s'.worker = .taking → s'.server.queue ≠ [] ∨ s'.running = false := by
  intro hat'
  cases h with
  | stop => exact Or.inr rfl
  | ordinary e server hat hpending hkind hserver =>
      rw [(queue_interface (Or.inl hkind) hserver).1]
      exact hs.taking hat'
  | admin e server hat hkind hserver =>
      rw [(queue_interface (Or.inr hkind) hserver).1]
      exact hs.taking hat'
  | append server hat hserver =>
      have htaking : s.worker = .taking := hat'
      have hworker : s.holds .worker = true := by simp [holds, htaking, WorkerAt.holds]
      have hordinary : s.holds .ordinary = true := by simp [holds, hat, OrdinaryAt.holds]
      cases hs.locked.unique hworker hordinary
  | goOn hat htest =>
      by_cases hqueue : s.server.queue = []
      · exact Or.inr (by simpa using fun hrunning => htest ⟨hqueue, hrunning⟩)
      · exact Or.inl hqueue
  | signal hat => exact hs.taking (by grind [wakeWorker])
  | broadcast hat => exact hs.taking (by grind [wakeWorker])
  | enter hat => cases hrunning : s.running <;> simp [hrunning] at hat'
  | work e server hat hkind hserver =>
      cases hbusy : server.worker.request.isSome <;> simp [hbusy] at hat'
  | lockPop | sleep | wake | relock | take | leave => cases hat'
  | _ => exact hs.taking hat'

theorem Sound.ended_step (hs : s.Sound) (h : ThreadStep s e s') :
    s'.worker = .ended → s'.running = false := by
  intro hat'
  cases h with
  | stop => rfl
  | enter hat =>
      cases hrunning : s.running with
      | false => rfl
      | true => simp [hrunning] at hat'
  | leave hat hqueue => exact (hs.taking hat).resolve_left (fun hne => hne hqueue)
  | signal hat => exact hs.ended (by grind [wakeWorker])
  | broadcast hat => exact hs.ended (by grind [wakeWorker])
  | work e server hat hkind hserver =>
      cases hbusy : server.worker.request.isSome <;> simp [hbusy] at hat'
  | lockPop | sleep | goOn | wake | relock | take => cases hat'
  | _ => exact hs.ended hat'

/-- The interface threads do not come back. -/
theorem Sound.joined_step (hs : s.Sound) (h : ThreadStep s e s') :
    s'.main.left ≤ 4 → s'.ordinary = .ended ∧ s'.adminEnded = true := by
  intro hleft
  cases h with
  | joined hat hordinary hadmin => exact ⟨hordinary, hadmin⟩
  | lockPush hat hpending hfree => rw [(hs.joined hleft).1] at hat; cases hat
  | append server hat hserver => rw [(hs.joined hleft).1] at hat; cases hat
  | signal hat => rw [(hs.joined hleft).1] at hat; cases hat
  | unlockPush hat => rw [(hs.joined hleft).1] at hat; cases hat
  | endOrdinary hat hpending => exact ⟨rfl, (hs.joined hleft).2⟩
  | endAdmin hat => exact ⟨(hs.joined hleft).1, rfl⟩
  | notice hat hrunning => simp [MainAt.left] at hleft
  | lockBroadcast hat hfree => exact hs.joined (by rw [hat]; decide)
  | broadcast hat => exact hs.joined (by rw [hat]; decide)
  | unlockBroadcast hat => exact hs.joined (by rw [hat]; decide)
  | finish hat hworker => exact hs.joined (by rw [hat]; decide)
  | _ => exact hs.joined hleft

/-- The worker falls asleep on an empty queue, and a request that is appended is followed
by the signal before anybody else has the lock. -/
theorem Sound.idle_step (hs : s.Sound) (h : ThreadStep s e s') :
    s'.worker = .asleep → s'.server.queue = [] ∨ s'.ordinary = .signalling := by
  intro hat'
  cases h with
  | ordinary e server hat hpending hkind hserver =>
      rw [(queue_interface (Or.inl hkind) hserver).1]
      exact hs.idle hat'
  | admin e server hat hkind hserver =>
      rw [(queue_interface (Or.inr hkind) hserver).1]
      exact hs.idle hat'
  | append server hat hserver => exact Or.inr rfl
  | sleep hat hqueue hrunning => exact Or.inl hqueue
  | signal hat => grind [wakeWorker]
  | broadcast hat => grind [wakeWorker]
  | lockPush hat hpending hfree =>
      exact Or.inl ((hs.idle hat').resolve_right (by rw [hat]; decide))
  | unlockPush hat => exact Or.inl ((hs.idle hat').resolve_right (by rw [hat]; decide))
  | endOrdinary hat hpending =>
      exact Or.inl ((hs.idle hat').resolve_right (by rw [hat]; decide))
  | enter hat => cases hrunning : s.running <;> simp [hrunning] at hat'
  | work e server hat hkind hserver =>
      cases hbusy : server.worker.request.isSome <;> simp [hbusy] at hat'
  | lockPop | goOn | wake | relock | take | leave => cases hat'
  | _ => exact hs.idle hat'

/-- The worker does not fall asleep any more when the server has stopped, and the broadcast
wakes it. -/
theorem Sound.woken_step (hs : s.Sound) (h : ThreadStep s e s') :
    s'.worker = .asleep → 2 < s'.main.left := by
  intro hat'
  cases h with
  | sleep hat hqueue hrunning =>
      have hmain : s.main = .sleeping := by
        by_contra hmain
        rw [hs.stopped hmain] at hrunning
        cases hrunning
      rw [hmain]
      decide
  | signal hat => grind [wakeWorker]
  | broadcast hat => grind [wakeWorker]
  | notice | joined | lockBroadcast => simp [MainAt.left]
  | unlockBroadcast hat =>
      have hleft := hs.woken hat'
      rw [hat] at hleft
      exact absurd hleft (by decide)
  | finish hat hworker => rw [hworker] at hat'; cases hat'
  | enter hat => cases hrunning : s.running <;> simp [hrunning] at hat'
  | work e server hat hkind hserver =>
      cases hbusy : server.worker.request.isSome <;> simp [hbusy] at hat'
  | lockPop | goOn | wake | relock | take | leave => cases hat'
  | _ => exact hs.woken hat'

theorem Sound.returned_step (hs : s.Sound) (h : ThreadStep s e s') :
    s'.main = .returned → s'.worker = .ended := by
  intro hmain
  cases h with
  | finish hat hworker => exact hworker
  | notice | joined | lockBroadcast | broadcast | unlockBroadcast => cases hmain
  | signal hat =>
      have hended := hs.returned hmain
      grind [wakeWorker]
  | enter hat => rw [hs.returned hmain] at hat; cases hat
  | lockPop hat => rw [hs.returned hmain] at hat; cases hat
  | sleep hat => rw [hs.returned hmain] at hat; cases hat
  | goOn hat => rw [hs.returned hmain] at hat; cases hat
  | wake hat => rw [hs.returned hmain] at hat; cases hat
  | relock hat => rw [hs.returned hmain] at hat; cases hat
  | take server hat => rw [hs.returned hmain] at hat; cases hat
  | leave hat => rfl
  | work e server hat => rw [hs.returned hmain] at hat; cases hat
  | _ => exact hs.returned hmain

theorem Sound.step (hs : s.Sound) (h : e.step s = some s') : s'.Sound :=
  have h := ThreadEvent.step_spec h
  { locked := hs.locked.step h
    processing := hs.processing_step h
    appending := hs.appending_step h
    taking := hs.taking_step h
    stopped := hs.stopped_step h
    ended := hs.ended_step h
    joined := hs.joined_step h
    idle := hs.idle_step h
    woken := hs.woken_step h
    returned := hs.returned_step h }

/-- A request is pushed while the worker sleeps, and the server stops before the worker
takes it. -/
def stoppedEarly : List ThreadEvent :=
  [.enter, .lockPop, .test,
    .ordinary (.connect 0 5 (lit "10.0.0.1")), .ordinary (.receive 0 5 1 opGenerateSql []),
    .lockPush, .append, .signal, .unlockPush, .relock, .stop, .test, .take,
    .endOrdinary, .endAdmin, .notice, .joined]

/-- In every run the threads are sound. -/
theorem sound_of_run {now : Int} {events : List ThreadEvent} (h : threads now events = some s) :
    s.Sound :=
  runFrom_invariant (fun _ _ _ hs h => Sound.step hs h) (init_sound now) h

/-- No wakeup is lost, in any run: at most one thread is inside its critical section;
where requests are queued while the worker sleeps, the ordinary interface holds the lock
and signals next; and the worker does not sleep any more once `main` has broadcast. -/
theorem wakeups_kept {now : Int} {events : List ThreadEvent}
    (h : threads now events = some s) :
    (∀ t u, s.holds t = true → s.holds u = true → t = u) ∧
      (s.worker = .asleep → s.server.queue ≠ [] →
        s.mutex = some .ordinary ∧ s.ordinary = .signalling) ∧
      (s.worker = .asleep → s.running = false →
        s.main = .sleeping ∨ s.main = .joining ∨ s.main = .locking ∨ s.main = .broadcasting) := by
  have hs := sound_of_run h
  refine ⟨fun t u => hs.locked.unique, fun hasleep hqueue => ?_, fun hasleep _ => ?_⟩
  · have hsignalling := (hs.idle hasleep).resolve_left hqueue
    refine ⟨(hs.locked .ordinary).mpr ?_, hsignalling⟩
    rw [holds, hsignalling]
    rfl
  · have hleft := hs.woken hasleep
    cases hmain : s.main <;> simp [hmain, MainAt.left] at hleft ⊢

/-- The request has been appended and the worker is not yet woken. -/
theorem wakeups_kept_append :
    ∃ s, threads 0 (stoppedEarly.take 7) = some s ∧ s.worker = .asleep ∧ s.server.queue ≠ [] ∧
      s.mutex = some .ordinary ∧ s.ordinary = .signalling := by
  have hrun : ((threads 0 (stoppedEarly.take 7)).map fun s =>
      (s.worker, s.server.queue.length)) = some (.asleep, 1) := by decide
  obtain ⟨s, hs, hview⟩ := Option.map_eq_some_iff.mp hrun
  obtain ⟨hasleep, hlength⟩ := Prod.mk.inj hview
  have hqueue : s.server.queue ≠ [] := List.ne_nil_of_length_eq_add_one hlength
  exact ⟨s, hs, hasleep, hqueue, (wakeups_kept hs).2.1 hasleep hqueue⟩

end Threads

/-! ## The threads and the server -/

/-- The steps of the server inside a step of its threads. -/
def ThreadEvent.moves : ThreadEvent → List Event
  | ordinary e => [.interface e]
  | append => [.interface .push]
  | admin e => [.interface e]
  | take => [.pop]
  | work e => [e]
  | _ => []

theorem ThreadEvent.step_moves {s s' : Threads} {e : ThreadEvent} (h : e.step s = some s') :
    runFrom Event.step s.server e.moves = some s'.server := by
  -- one step of the server
  have hone : ∀ {e : Event} {server : Server}, e.step s.server = some server →
      runFrom Event.step s.server [e] = some server := fun hserver =>
    runFrom_cons_eq_some_iff.mpr ⟨_, hserver, rfl⟩
  cases ThreadEvent.step_spec h with
  | ordinary e server hat hpending hkind hserver => exact hone hserver
  | append server hat hserver => exact hone hserver
  | admin e server hat hkind hserver => exact hone hserver
  | take server hat hserver => exact hone hserver
  | work e server hat hkind hserver => exact hone hserver
  | _ => rfl

/-- Every run of the threads is a run of the server. -/
theorem threads_refine_server {now : Int} {events : List ThreadEvent} {s : Threads}
    (h : threads now events = some s) :
    serve (.init now) (events.flatMap ThreadEvent.moves) = some s.server := by
  have hstep : ∀ (s : Threads) (t : Server) (e : ThreadEvent) (s' : Threads), True →
      t = s.server → e.step s = some s' →
      ∃ t', runFrom Event.step t e.moves = some t' ∧ t' = s'.server := by
    rintro s t e s' - rfl h
    exact ⟨s'.server, ThreadEvent.step_moves h, rfl⟩
  obtain ⟨t', hrun, rfl⟩ :=
    runFrom_simulates (P := fun _ => True) hstep rfl (fun _ _ => trivial) h
  exact hrun

end SqlCodeGenerator
