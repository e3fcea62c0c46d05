import SqlCodeGenerator.Library.Ledgers
import SqlCodeGenerator.Wakeups

/-!
# Stopping the server

SIGINT and SIGTERM set `g_running` to 0; `main` joins the interface threads, broadcasts and
joins the worker.

* `Threads.stopped_processing`: which requests are processed, and which are left in the
  queue;
* `Threads.main_returns`: `main` comes to its end.
-/

namespace SqlCodeGenerator

open Library

/-! ## What is processed -/

/-- The request that a step appends to the queue. -/
def Threads.pushed (s : Threads) : ThreadEvent → List Request
  | .append => s.server.pending.toList
  | _ => []

/-- The request that a step takes from the queue. -/
def Threads.popped (s : Threads) : ThreadEvent → List Request
  | .take => s.server.queue.head?.toList
  | _ => []

/-- The request that a step is the end of. -/
def Threads.finished (s : Threads) : ThreadEvent → List Request
  | .work (.finish _ _) => s.server.worker.request.toList
  | _ => []

/-- A worker that has read `g_running` goes on to the queue. -/
def WorkerAt.mayTake : WorkerAt → Nat
  | locking => 1
  | testing => 1
  | asleep => 1
  | woken => 1
  | taking => 1
  | _ => 0

/-- The request that the worker has, and those in the queue. -/
def Threads.held (s : Threads) : List Request := s.server.worker.request.toList ++ s.server.queue

namespace Threads

variable {s s' : Threads}

theorem held_step {e : ThreadEvent} (h : e.step s = some s') :
    s.held ++ s.pushed e = s.finished e ++ s'.held := by
  cases ThreadEvent.step_spec h with
  | ordinary e server hat hpending hkind hserver =>
      obtain ⟨hqueue, hworker⟩ := queue_interface (Or.inl hkind) hserver
      simp [held, pushed, finished, hqueue, hworker]
  | admin e server hat hkind hserver =>
      obtain ⟨hqueue, hworker⟩ := queue_interface (Or.inr hkind) hserver
      simp [held, pushed, finished, hqueue, hworker]
  | append server hat hserver =>
      cases Event.step_spec hserver with
      | push r hpending => simp [held, pushed, finished, hpending]
  | take server hat hserver =>
      cases Event.step_spec hserver with
      | pop r rest hworker hqueue =>
          simp [held, pushed, finished, hqueue, hworker, Worker.request]
  | work e server hat hkind hserver =>
      cases Event.step_spec hserver with
      | begin now r hworker => simp [held, pushed, finished, hworker, Worker.request]
      | handle env r state handled hworker hhandle =>
          simp [held, pushed, finished, hworker, Worker.request]
      | finish now elapsed r handled hworker =>
          simp [held, pushed, finished, hworker, Worker.request]
      | _ => cases hkind
  | signal => simp [held, pushed, finished, wakeWorker]
  | broadcast => simp [held, pushed, finished, wakeWorker]
  | _ => simp [held, pushed, finished]

/-- The requests that the worker may still take when `g_running` is 0: one, if it has read
`g_running` before. -/
def budget (s : Threads) : Nat := s.worker.mayTake

theorem budget_le (s : Threads) : s.budget ≤ 1 := by
  unfold budget
  cases s.worker <;> decide

theorem mayTake_wakeWorker (s : Threads) :
    s.wakeWorker.worker.mayTake = s.worker.mayTake := by
  unfold wakeWorker
  split
  · next hasleep => rw [hasleep]; rfl
  · rfl

/-- The server does not start again. -/
theorem running_step {e : ThreadEvent} (hstopped : s.running = false) (h : e.step s = some s') :
    s'.running = false := by
  cases ThreadEvent.step_spec h with
  | stop => rfl
  | _ => exact hstopped

theorem budget_step {e : ThreadEvent} (hstopped : s.running = false) (h : e.step s = some s') :
    (s.popped e).length + s'.budget ≤ s.budget := by
  cases ThreadEvent.step_spec h with
  | enter hat => simp [popped, budget, hat, hstopped, WorkerAt.mayTake]
  | lockPop hat hfree => simp [popped, budget, hat, WorkerAt.mayTake]
  | sleep hat hqueue hrunning => rw [hstopped] at hrunning; cases hrunning
  | goOn hat htest => simp [popped, budget, hat, WorkerAt.mayTake]
  | wake hat => simp [popped, budget, hat, WorkerAt.mayTake]
  | relock hat hfree => simp [popped, budget, hat, WorkerAt.mayTake]
  | take server hat hserver =>
      cases Event.step_spec hserver with
      | pop r rest hworker hqueue => simp [popped, budget, hat, hqueue, WorkerAt.mayTake]
  | leave hat hqueue => simp [popped, budget, hat, WorkerAt.mayTake]
  | work e server hat hkind hserver =>
      cases hbusy : server.worker.request.isSome <;>
        simp [popped, budget, hat, WorkerAt.mayTake]
  | signal hat => simp [popped, budget, mayTake_wakeWorker]
  | broadcast hat => simp [popped, budget, mayTake_wakeWorker]
  | _ => simp [popped, budget]

/-- In every run the requests pushed are those that the worker has finished, the one it is
at and those in the queue, in that order.  When `main` returns, the worker is at none.
After SIGINT or SIGTERM the worker takes one more request at the most. -/
theorem stopped_processing {now : Int} {events : List ThreadEvent}
    (h : threads now events = some s) :
    collected ThreadEvent.step pushed (.init now) events =
        collected ThreadEvent.step finished (.init now) events ++ s.held ∧
      (s.main = .returned → s.server.worker.request = none) ∧
      ∀ before after, events = before ++ .stop :: after → ∃ middle,
        threads now before = some middle ∧
          (collected ThreadEvent.step popped { middle with running := false }
            after).length ≤ 1 := by
  refine ⟨?_, fun hreturned => ?_, ?_⟩
  · have hbalance := @collected_balance _ _ _ ThreadEvent.step (fun _ => True) held
      pushed finished (fun _ _ _ _ _ => trivial) (fun _ _ _ _ h => held_step h) _ _ _ trivial h
    simpa [held, init, Server.init, Worker.request] using hbalance
  · have hs := sound_of_run h
    have hidle : ¬ s.server.worker.request.isSome = true := by
      rw [hs.processing, hs.returned hreturned]
      decide
    simpa using hidle
  · rintro before after rfl
    rw [threads, runFrom_append] at h
    obtain ⟨middle, hbefore, -⟩ := Option.bind_eq_some_iff.mp h
    refine ⟨middle, hbefore, ?_⟩
    have hpaid : ∀ t : Threads, t.running = false →
        (collected ThreadEvent.step popped t after).length ≤ t.budget := fun t ht =>
      @length_collected_le _ _ _ ThreadEvent.step (fun t => t.running = false) budget popped
        (fun _ _ _ ht h => running_step ht h) (fun _ _ _ ht h => budget_step ht h) t ht after
    exact (hpaid _ rfl).trans (budget_le _)

/-- The request of that run is taken after the signal. -/
theorem stopped_processing_early :
    ∃ s, threads 0 stoppedEarly = some s ∧ s.held.length = 1 ∧
      collected ThreadEvent.step pushed (.init 0) stoppedEarly =
        collected ThreadEvent.step finished (.init 0) stoppedEarly ++ s.held := by
  have hrun : ((threads 0 stoppedEarly).map fun s => s.held.length) = some 1 := by decide
  obtain ⟨s, hs, hheld⟩ := Option.map_eq_some_iff.mp hrun
  exact ⟨s, hs, hheld, (stopped_processing hs).1⟩

end Threads

/-! ## `main` returns -/

/-- The steps that the worker has left when the server has stopped. -/
def Threads.workerLeft (s : Threads) : Nat :=
  match s.worker with
  | .ended => 0
  | .starting => 1
  | .processing =>
      match s.server.worker with
      | .idle => 2
      | .handled _ _ => 2
      | .begun _ => 3
      | .popped _ => 4
  | .taking => 6
  | .testing => 7
  | .locking => 8
  | .woken => 8
  | .asleep => 9

/-- A signal when the server has stopped. -/
def ThreadEvent.isStop : ThreadEvent → Bool
  | stop => true
  | _ => false

/-- The calls of a request that all fail. -/
def failingEnv : RequestEnv where
  createUpload := .error []
  openUpload := .error []
  writeUpload := .error []
  uploadFile := ⟨false, false, .ok 0, false, false, []⟩
  cjsonParse := fun _ => none
  download := ⟨.error [], .ok (), .ok (), false, [], false⟩
  child := ⟨false, false, false, false, fun _ => none⟩
  pgQueryParse := fun _ => none

/-- With these the operation of a request comes to its end. -/
theorem handleRequest_failingEnv (r : Request) (state : SharedState) :
    (handleRequest failingEnv r state).isSome = true := by
  have hinsert : (handleValidateInsert failingEnv r state).isSome = true := by
    unfold handleValidateInsert insertVerdict
    cases r.payload <;> rfl
  unfold handleRequest dispatchRequest
  split
  · rfl
  split
  · rfl
  split
  · rfl
  split
  · rfl
  split
  · rfl
  split
  · rfl
  split
  · exact hinsert
  · rfl

namespace Threads

variable {s s' : Threads}

/-- The interface threads are joined. -/
structure Stopping (s : Threads) : Prop where
  sound : s.Sound
  joined : s.main.left ≤ 4

theorem Stopping.step {e : ThreadEvent} (hs : s.Stopping) (h : e.step s = some s') :
    s'.Stopping where
  sound := hs.sound.step h
  joined := by
    have hleft := hs.joined
    cases ThreadEvent.step_spec h with
    | notice hat hrunning => rw [hat] at hleft; exact absurd hleft (by decide)
    | joined => exact Nat.le_refl 4
    | lockBroadcast => simp [MainAt.left]
    | broadcast => simp [MainAt.left]
    | unlockBroadcast => simp [MainAt.left]
    | finish => simp [MainAt.left]
    | signal => exact hleft
    | _ => exact hleft

/-- What `main` and the worker have left to do. -/
def left (s : Threads) : Nat := s.main.left + s.workerLeft

theorem workerLeft_le (s : Threads) : s.workerLeft ≤ 9 := by
  unfold workerLeft
  split <;> try decide
  split <;> decide

theorem Stopping.running (hs : s.Stopping) : s.running = false := by
  refine hs.sound.stopped fun hmain => ?_
  have hleft := hs.joined
  rw [hmain] at hleft
  exact absurd hleft (by decide)

/-- When it has stopped, every step of the server is one of `main` or the worker, and
brings it nearer to its end. -/
theorem Stopping.left_lt {e : ThreadEvent} (hs : s.Stopping) (he : e.isStop = false)
    (h : e.step s = some s') : s'.left < s.left := by
  obtain ⟨hordinary, hadmin⟩ := hs.sound.joined hs.joined
  have hrunning := hs.running
  have hmain := hs.joined
  cases ThreadEvent.step_spec h with
  | stop => cases he
  | ordinary e server hat => rw [hordinary] at hat; cases hat
  | lockPush hat => rw [hordinary] at hat; cases hat
  | append server hat => rw [hordinary] at hat; cases hat
  | signal hat => rw [hordinary] at hat; cases hat
  | unlockPush hat => rw [hordinary] at hat; cases hat
  | endOrdinary hat => rw [hordinary] at hat; cases hat
  | admin e server hat => rw [hadmin] at hat; cases hat
  | endAdmin hat => rw [hadmin] at hat; cases hat
  | enter hat => simp [left, workerLeft, hat, hrunning]
  | lockPop hat hfree => simp [left, workerLeft, hat]
  | sleep hat hqueue hrun => rw [hrunning] at hrun; cases hrun
  | goOn hat htest => simp [left, workerLeft, hat]
  | wake hat => simp [left, workerLeft, hat]
  | relock hat hfree => simp [left, workerLeft, hat]
  | take server hat hserver =>
      cases Event.step_spec hserver with
      | pop r rest hworker hqueue => simp [left, workerLeft, hat]
  | leave hat hqueue => simp [left, workerLeft, hat]
  | work e server hat hkind hserver =>
      cases Event.step_spec hserver with
      | begin now r hworker => simp [left, workerLeft, hat, hworker, Worker.request]
      | handle env r state handled hworker hhandle =>
          simp [left, workerLeft, hat, hworker, Worker.request]
      | finish now elapsed r handled hworker =>
          simp [left, workerLeft, hat, hworker, Worker.request]
      | _ => cases hkind
  | notice hat => rw [hat] at hmain; exact absurd hmain (by decide)
  | joined hat => rw [hat] at hmain; exact absurd hmain (by decide)
  | lockBroadcast hat hfree => simp [left, workerLeft, hat, MainAt.left]
  | broadcast hat =>
      cases hworker : s.worker <;> simp [left, workerLeft, wakeWorker, hat, hworker, MainAt.left]
  | unlockBroadcast hat => simp [left, workerLeft, hat, MainAt.left]
  | finish hat hworker => simp [left, workerLeft, hat, MainAt.left]

/-- Some thread can take a step, signals apart. -/
def CanGoOn (s : Threads) : Prop :=
  ∃ e : ThreadEvent, e.isStop = false ∧ (e.step s).isSome = true

/-- A worker inside its critical section can go on. -/
theorem Sound.worker_inside (hs : s.Sound) (hinside : s.worker.holds = true) : s.CanGoOn := by
  cases hat : s.worker with
  | testing =>
      refine ⟨.test, rfl, ?_⟩
      by_cases htest : s.server.queue = [] ∧ s.running = true
      · simp [ThreadEvent.step, hat, htest]
      · rw [ThreadEvent.step, if_pos hat, if_neg htest]
        rfl
  | taking =>
      cases hqueue : s.server.queue with
      | nil => exact ⟨.leave, rfl, by simp [ThreadEvent.step, hat, hqueue]⟩
      | cons r rest =>
          have hidle : s.server.worker = .idle := by
            have hnone : ¬ s.server.worker.request.isSome = true := by
              rw [hs.processing, hat]
              decide
            cases hworker : s.server.worker with
            | idle => rfl
            | _ => simp [hworker, Worker.request] at hnone
          exact ⟨.take, rfl, by simp [ThreadEvent.step, serverStep, Event.step, hat, hqueue, hidle]⟩
  | _ => rw [hat] at hinside; cases hinside

/-- So can a worker in `process_request`. -/
theorem Sound.worker_processing (hs : s.Sound) (hat : s.worker = .processing) : s.CanGoOn := by
  have hsome := hs.processing.mpr hat
  -- a part of `process_request` that can be performed
  have hwork : ∀ {e : Event}, e.ofRequest = true → (e.step s.server).isSome = true →
      s.CanGoOn := by
    intro e hkind hserver
    exact ⟨.work e, rfl, by simpa [ThreadEvent.step, serverStep, hat, hkind] using hserver⟩
  cases hworker : s.server.worker with
  | idle => simp [hworker, Worker.request] at hsome
  | popped r => exact hwork (e := .begin 0) rfl (by simp [Event.step, hworker])
  | begun r =>
      refine hwork (e := .handle failingEnv) rfl ?_
      simpa [Event.step, hworker] using handleRequest_failingEnv r s.server.shared
  | handled r h => exact hwork (e := .finish 0 0) rfl (by simp [Event.step, hworker])

/-- The lock is free, or the worker has it. -/
theorem Stopping.lock_free (hs : s.Stopping) (hmain : s.main.holds = false)
    (hworker : s.worker.holds = false) : s.mutex = none := by
  cases hmutex : s.mutex with
  | none => rfl
  | some t =>
      have hheld := (hs.sound.locked t).mp hmutex
      cases t with
      | main => simp [holds, hmain] at hheld
      | worker => simp [holds, hworker] at hheld
      | ordinary =>
          rw [holds, (hs.sound.joined hs.joined).1] at hheld
          cases hheld
      | admin => cases hheld

/-- Until `main` returns, `main` or the worker can go on. -/
theorem Stopping.progress (hs : s.Stopping) (hreturned : s.main ≠ .returned) : s.CanGoOn := by
  cases hinside : s.worker.holds with
  | true => exact hs.sound.worker_inside hinside
  | false =>
      cases hmain : s.main with
      | sleeping =>
          have hleft := hs.joined
          rw [hmain] at hleft
          exact absurd hleft (by decide)
      | joining =>
          have hleft := hs.joined
          rw [hmain] at hleft
          exact absurd hleft (by decide)
      | locking =>
          have hfree := hs.lock_free (by rw [hmain]; rfl) hinside
          exact ⟨.lockBroadcast, rfl, by simp [ThreadEvent.step, hmain, hfree]⟩
      | broadcasting => exact ⟨.broadcast, rfl, by simp [ThreadEvent.step, hmain]⟩
      | unlocking => exact ⟨.unlockBroadcast, rfl, by simp [ThreadEvent.step, hmain]⟩
      | joiningWorker =>
          have hfree := hs.lock_free (by rw [hmain]; rfl) hinside
          cases hworker : s.worker with
          | starting => exact ⟨.enter, rfl, by simp [ThreadEvent.step, hworker]⟩
          | locking => exact ⟨.lockPop, rfl, by simp [ThreadEvent.step, hworker, hfree]⟩
          | woken => exact ⟨.relock, rfl, by simp [ThreadEvent.step, hworker, hfree]⟩
          | asleep =>
              -- it has been woken by the broadcast
              have hleft := hs.sound.woken hworker
              rw [hmain] at hleft
              exact absurd hleft (by decide)
          | processing => exact hs.sound.worker_processing hworker
          | ended => exact ⟨.finish, rfl, by simp [ThreadEvent.step, hmain, hworker]⟩
          | testing => rw [hworker] at hinside; cases hinside
          | taking => rw [hworker] at hinside; cases hinside
      | returned => exact absurd hmain hreturned

/-- When the interface threads are joined, `main` returns: in whatever order the threads go
on, they take 13 steps at the most, further signals apart, and at every point there is a
way on until `main` has returned. -/
theorem main_returns {now : Int} {events : List ThreadEvent} (h : threads now events = some s)
    (hjoined : s.main.left ≤ 4) {events' : List ThreadEvent}
    (hrun : runFrom ThreadEvent.step s events' = some s') :
    (events'.filter fun e => !e.isStop).length ≤ 13 ∧
      ∃ rest s'', runFrom ThreadEvent.step s' rest = some s'' ∧ s''.main = .returned := by
  have hs : s.Stopping := ⟨sound_of_run h, hjoined⟩
  have hkept : ∀ (s : Threads) (e : ThreadEvent) (s' : Threads), s.Stopping → e.step s = some s' →
      s'.Stopping := fun _ _ _ hs h => hs.step h
  have hlower : ∀ (s : Threads) (e : ThreadEvent) (s' : Threads), s.Stopping →
      e.isStop = false → e.step s = some s' → s'.left < s.left :=
    fun _ _ _ hs he h => hs.left_lt he h
  have hidle : ∀ (s : Threads) (e : ThreadEvent) (s' : Threads), s.Stopping →
      e.isStop = true → e.step s = some s' → s' = s := by
    intro s e s' hs he h
    cases e with
    | stop =>
        obtain rfl := Option.some.inj h
        simp [← hs.running]
    | _ => cases he
  constructor
  · have hlength := length_le_measure hkept hidle hlower hs hrun
    have hmain := hs.joined
    have hworker := s.workerLeft_le
    unfold left at hlength
    omega
  · have hs' : s'.Stopping := runFrom_invariant hkept hs hrun
    refine run_of_measure hkept hlower (fun t ht hfinal => ?_) hs'
    obtain ⟨e, he, hsome⟩ := ht.progress hfinal
    obtain ⟨t', ht'⟩ := Option.isSome_iff_exists.mp hsome
    exact ⟨e, t', he, ht'⟩

/-- It does so after that run, whose worker has a request to process. -/
theorem main_returns_early :
    ∃ s, threads 0 stoppedEarly = some s ∧ s.worker = .processing ∧
      ∃ rest s'', runFrom ThreadEvent.step s rest = some s'' ∧ s''.main = .returned := by
  have hrun : ((threads 0 stoppedEarly).map fun s => (s.worker, s.main)) =
      some (.processing, .locking) := by decide
  obtain ⟨s, hs, hview⟩ := Option.map_eq_some_iff.mp hrun
  obtain ⟨hworker, hmain⟩ := Prod.mk.inj hview
  have hjoined : s.main.left ≤ 4 := by rw [hmain]; decide
  have hreturns := main_returns hs hjoined (runFrom_nil ThreadEvent.step s)
  exact ⟨s, hs, hworker, hreturns.2⟩

end Threads

end SqlCodeGenerator
