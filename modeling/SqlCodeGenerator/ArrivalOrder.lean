import SqlCodeGenerator.Effects
import SqlCodeGenerator.Library.Deferral
import SqlCodeGenerator.Runs

/-!
# Requests take effect in the order of their arrival

The queue of the server puts requests off: a job is created when its request is
built, and the operation follows when the worker comes to it.

* `requestDeferral_settled`: creating a job commutes with processing a request that
  was built before.
* `HostEvent.step_follows`: a host follows the system that puts requests off.
* `arrivalOrder_decides`: without cancellations, what the requests leave behind
  depends on their order alone, and it is what processing them one after the other
  leaves.
-/

namespace SqlCodeGenerator

open Library

/-! ## Requests that are put off -/

/-- The effects of a request at its arrival and at its turn. -/
def requestDeferral (p : Parsers) : Deferral Effects Request Arrival where
  accept := Effects.accept
  perform := Effects.perform p

/-- The job of the request has been created, if it has one. -/
def Issued (next : Nat) (r : Request) : Prop := r.jobId = 0 ∨ r.jobId < next

namespace Effects

/-- Of two results of one job the later one stays. -/
theorem record_record (e : Effects) (jobId : Nat) (status status' : JobStatus)
    (result result' : CString) :
    (e.record jobId status result).record jobId status' result' =
      e.record jobId status' result' := by
  refine Effects.ext rfl rfl rfl (funext fun slot => ?_) rfl rfl
  simp only [record]
  by_cases hslot : 0 < jobId ∧ (e.jobs slot).jobId = jobId
  · simp only [if_pos hslot]
  · simp only [if_neg hslot]

/-- The mark of a running job is gone when it ends. -/
theorem settle_of_mark_eq {e e' : Effects} {r : Request} (hmark : e.mark r = e'.mark r)
    {o : JobOutcome} (ho : o.jobId = r.jobId) : e.settle o = e'.settle o := by
  have houtcomes : (e.mark r).outcomes = (e'.mark r).outcomes := by rw [hmark]
  have hrecord : e.record r.jobId o.status o.response = e'.record r.jobId o.status o.response := by
    rw [← e.record_record r.jobId .running _ (lit "running"),
      ← e'.record_record r.jobId .running _ (lit "running")]
    exact congrArg (fun marked : Effects => marked.record r.jobId o.status o.response) hmark
  unfold settle
  rw [ho, hrecord]
  exact Effects.ext rfl rfl rfl rfl rfl (congrArg (· ++ [o]) houtcomes)

/-- An operation looks at no job. -/
theorem operate_congr {p : Parsers} {e e' : Effects} (htables : e'.tables = e.tables)
    (hcancel : e'.cancelClientId = e.cancelClientId) (hdisk : e'.disk = e.disk) (r : Request) :
    e'.operate p r = e.operate p r := by
  unfold operate bare
  rw [htables, hcancel, hdisk]

/-- A new job and the record of an older one are written in either order. -/
theorem accept_record {e : Effects} {jobId : Nat} (hjob : jobId = 0 ∨ jobId < e.nextJobId)
    (status : JobStatus) (result : CString) (a : Arrival) :
    (e.record jobId status result).accept a =
      ((e.accept a).1, (e.accept a).2.record jobId status result) := by
  unfold accept
  cases isProcessingOp a.opId with
  | false => rfl
  | true =>
      refine Prod.ext rfl (Effects.ext rfl rfl rfl (funext fun slot => ?_) rfl rfl)
      simp only [if_true, record]
      by_cases hslot : slot = ringPlace maxJobs e.nextJobId
      · have hnew : ¬ (0 < jobId ∧ e.nextJobId = jobId) := by omega
        simp only [if_pos hslot, if_neg hnew]
      · simp only [if_neg hslot]

/-- What has been reported plays no part in a new job. -/
theorem accept_outcomes (e : Effects) (outcomes : List JobOutcome) (a : Arrival) :
    Effects.accept { e with outcomes := outcomes } a =
      ((e.accept a).1, { (e.accept a).2 with outcomes := outcomes }) := by
  unfold accept
  cases isProcessingOp a.opId with
  | false => rfl
  | true => rfl

theorem accept_settle {e : Effects} {o : JobOutcome} (ho : o.jobId = 0 ∨ o.jobId < e.nextJobId)
    (a : Arrival) : (e.settle o).accept a = ((e.accept a).1, (e.accept a).2.settle o) := by
  have houtcomes : (e.accept a).2.outcomes = e.outcomes := by
    unfold accept
    cases isProcessingOp a.opId with
    | false => rfl
    | true => rfl
  unfold settle
  rw [accept_outcomes, accept_record ho, houtcomes]

theorem accept_nextJobId_le (e : Effects) (a : Arrival) :
    e.nextJobId ≤ (e.accept a).2.nextJobId := by
  unfold accept
  cases isProcessingOp a.opId with
  | false => exact Nat.le_refl _
  | true => exact Nat.le_succ _

/-- The request that an arrival becomes depends on the next job alone. -/
theorem accept_request_congr {e e' : Effects} (hnext : e'.nextJobId = e.nextJobId) (a : Arrival) :
    (e'.accept a).1 = (e.accept a).1 := by
  unfold accept
  rw [hnext]
  cases isProcessingOp a.opId with
  | false => rfl
  | true => rfl

theorem accept_change (e : Effects) (r : Request) (o : Operated) (a : Arrival) :
    (e.accept a).2.change r o = ((e.change r o).accept a).2 := by
  unfold accept
  cases isProcessingOp a.opId with
  | false => rfl
  | true => rfl

/-- A request that is performed has an outcome for its own job. -/
theorem operate_jobId {p : Parsers} {e : Effects} {r : Request} {o : Operated}
    (h : e.operate p r = some o) : o.outcome.jobId = r.jobId := by
  obtain ⟨result, -, rfl⟩ := Option.map_eq_some_iff.mp h
  rfl

/-- A new job and the operation of an older request commute. -/
theorem perform_accept (p : Parsers) {e : Effects} {r : Request} (hr : Issued e.nextJobId r)
    (a : Arrival) :
    (e.accept a).2.perform p r = (e.perform p r).map fun e' => (e'.accept a).2 := by
  have hoperate : (e.accept a).2.operate p r = e.operate p r := by
    unfold accept
    cases isProcessingOp a.opId with
    | false => rfl
    | true => exact operate_congr rfl rfl rfl r
  unfold perform
  rw [hoperate, Option.map_map]
  cases ho : e.operate p r with
  | none => rfl
  | some o =>
      have hissued : o.outcome.jobId = 0 ∨ o.outcome.jobId < (e.change r o).nextJobId := by
        rw [operate_jobId ho]
        exact hr
      simp only [Option.map_some, Function.comp_apply, accept_settle hissued, accept_change]

end Effects

/-- Requests may be put off. -/
theorem requestDeferral_settled (p : Parsers) :
    (requestDeferral p).Settled fun e r => Issued e.nextJobId r where
  accepted e a := by
    show Issued (e.accept a).2.nextJobId (e.accept a).1
    unfold Effects.accept
    cases isProcessingOp a.opId with
    | false => exact Or.inl rfl
    | true => exact Or.inr (Nat.lt_succ_self _)
  accept e a r hr := hr.imp_right fun hlt => Nat.lt_of_lt_of_le hlt (e.accept_nextJobId_le a)
  perform e r r' e' hperform hr' := by
    obtain ⟨o, -, rfl⟩ := Option.map_eq_some_iff.mp hperform
    exact hr'
  task e a r e' hperform := by
    obtain ⟨o, -, rfl⟩ := Option.map_eq_some_iff.mp hperform
    have hnext : ((e.change r o).settle o.outcome).nextJobId = e.nextJobId := rfl
    exact Effects.accept_request_congr hnext a
  comm e a r hr := Effects.perform_accept p hr a

/-! ## The jobs of the requests that are not finished -/

/-- The requests that are built and not finished. -/
def Server.unfinished (s : Server) : List Request := s.worker.request.toList ++ s.ahead

/-- A request that is not finished was there before, or the step has built it for a
registered client. -/
theorem Event.step_unfinished {s s' : Server} {e : Event} (h : e.step s = some s') :
    ∀ r ∈ s'.unfinished, r ∈ s.unfinished ∨ ∃ now fd clientId opId payload,
      receiveRequest now fd clientId opId payload s.shared = (r, s'.shared) ∧
        isRegisteredClient s.shared clientId = true := by
  intro r hr
  rcases List.mem_append.mp hr with hr | hr
  · rcases Event.step_request h (Option.mem_toList.mp hr) with hold | hold
    · exact Or.inl (List.mem_append_left _ (Option.mem_toList.mpr hold))
    · exact Or.inl (List.mem_append_right _ hold)
  · exact (Event.step_ahead h r hr).imp_left fun hold => List.mem_append_right _ hold

/-- What holds of every request that is built for a registered client, a step keeps of
those that are not finished. -/
theorem Event.step_forall_unfinished {P : Request → Prop} {s s' : Server} {e : Event}
    (h : e.step s = some s')
    (hbuilt : ∀ now fd clientId opId payload, isRegisteredClient s.shared clientId = true →
      P (receiveRequest now fd clientId opId payload s.shared).1)
    (hs : ∀ r ∈ s.unfinished, P r) : ∀ r ∈ s'.unfinished, P r := by
  intro r hr
  rcases Event.step_unfinished h r hr with
    hold | ⟨now, fd, clientId, opId, payload, hreceive, hregistered⟩
  · exact hs r hold
  · have hnew := hbuilt now fd clientId opId payload hregistered
    rwa [hreceive] at hnew

/-- The records are a ring, and every request that is not finished has its job. -/
structure Server.Tracked (s : Server) : Prop where
  ring : JobRing s.shared
  issued : ∀ r ∈ s.unfinished, Issued s.shared.nextJobId r

theorem Event.step_tracked {s s' : Server} {e : Event} (hs : s.Tracked)
    (h : e.step s = some s') : s'.Tracked where
  ring := Event.step_jobRing hs.ring h
  issued r hr := by
    rcases Event.step_unfinished h r hr with hold | ⟨now, fd, clientId, opId, payload, hbuilt, -⟩
    · exact (hs.issued r hold).imp_right fun hlt =>
        Nat.lt_of_lt_of_le hlt (Event.step_nextJobId_le h)
    · have hrequest : _ = r := congrArg Prod.fst hbuilt
      have hshared : _ = s'.shared := congrArg Prod.snd hbuilt
      rw [← hrequest, ← hshared]
      unfold receiveRequest
      cases isProcessingOp opId with
      | false => exact Or.inl rfl
      | true => exact Or.inr (Nat.lt_succ_self _)

/-- In every reachable server every request that is not finished has its job. -/
theorem serve_tracked {now : Int} {events : List Event} {s : Server}
    (hreach : serve (Server.init now) events = some s) : s.Tracked := by
  have hinit : (Server.init now).Tracked :=
    ⟨serve_jobRing (show serve (Server.init now) [] = some _ from rfl), fun _ h => by cases h⟩
  exact runFrom_invariant (fun _ _ _ hs h => Event.step_tracked hs h) hinit hreach

/-! ## A host puts its requests off -/

/-- The request whose operation the worker has still to perform. -/
def Worker.waiting : Worker → List Request
  | idle => []
  | popped r => [r]
  | begun r => [r]
  | handled _ _ => []

/-- The effects, with the outcome of an operation that has been performed. -/
def Worker.settled (e : Effects) : Worker → Effects
  | handled r h => e.settle (h.outcome r)
  | _ => e

/-- The effects, with the mark of a request that has begun. -/
def Worker.marked (e : Effects) : Worker → Effects
  | begun r => e.mark r
  | _ => e

/-- The backlog of a host.  A request whose operation has been performed counts as
settled. -/
def Host.backlog (host : Host) : Backlog Effects Request where
  state := host.server.worker.settled host.effects
  waiting := (host.server.worker.waiting ++ host.server.ahead).map Request.anonymous

/-- The host has that backlog, but for the mark of a request that has begun. -/
structure Host.Matches (host : Host) (b : Backlog Effects Request) : Prop where
  waiting : b.waiting = host.backlog.waiting
  state : host.server.worker.marked b.state = host.server.worker.marked host.backlog.state

/-- The steps of the system that puts requests off, for a step of the host. -/
def HostEvent.moves : HostEvent → List (Deferral.Step Arrival)
  | .interface (.receive _ _ clientId opId payload) => [.arrive ⟨clientId, opId, payload⟩]
  | .handle _ => [.perform]
  | _ => []

theorem HostEvent.filterMap_moves (events : List HostEvent) :
    (events.flatMap HostEvent.moves).filterMap Deferral.Step.arrival =
      events.filterMap HostEvent.arrival := by
  induction events with
  | nil => rfl
  | cons e events ih =>
      rw [List.flatMap_cons, List.filterMap_append, ih]
      cases e with
      | interface e => cases e <;> rfl
      | _ => rfl

/-- The interface steps that are no arrival and no cancellation. -/
theorem InterfaceEvent.step_quiet {s s' : Server} {e : InterfaceEvent}
    (harrival : (HostEvent.interface e).arrival = none)
    (hcancels : (HostEvent.interface e).cancels = false) (h : e.step s = some s') :
    s'.worker = s.worker ∧ s'.ahead = s.ahead ∧ ∀ disk outcomes,
      Work.effects ⟨s'.shared, disk, outcomes⟩ = Work.effects ⟨s.shared, disk, outcomes⟩ := by
  have hspec : EventSpec s (.interface e) s' := Event.step_spec h
  cases hspec with
  | connect now fd addr =>
      refine ⟨rfl, rfl, fun disk outcomes => ?_⟩
      obtain ⟨_, _, _, hframe⟩ := connectClient_frame now fd addr s.shared
      rw [hframe]
      rfl
  | close fd =>
      refine ⟨rfl, rfl, fun disk outcomes => ?_⟩
      obtain ⟨_, _, hframe⟩ := clientRemoveFd_frame fd s.shared
      rw [hframe]
      rfl
  | receive now fd clientId opId payload hpending hregistered => cases harrival
  | push built hpending =>
      refine ⟨rfl, ?_, fun _ _ => rfl⟩
      simp only [Server.ahead, hpending, Option.toList_some, Option.toList_none, List.append_nil]
  | cancel clientId => cases hcancels
  | _ => exact ⟨rfl, rfl, fun _ _ => rfl⟩

section Worker

variable {e : Effects} {w : Worker}

theorem Worker.marked_nextJobId : (w.marked e).nextJobId = e.nextJobId := by
  cases w with
  | _ => rfl

theorem Worker.settled_nextJobId : (w.settled e).nextJobId = e.nextJobId := by
  cases w with
  | _ => rfl

/-- A job may be created while the worker is at another request. -/
theorem Worker.accept_marked (hw : ∀ r ∈ w.request.toList, Issued e.nextJobId r) (a : Arrival) :
    (w.marked e).accept a = ((e.accept a).1, w.marked (e.accept a).2) := by
  cases w with
  | begun r => exact Effects.accept_record (hw r List.mem_cons_self) _ _ a
  | _ => rfl

theorem Worker.accept_settled (hw : ∀ r ∈ w.request.toList, Issued e.nextJobId r) (a : Arrival) :
    (w.settled e).accept a = ((e.accept a).1, w.settled (e.accept a).2) := by
  cases w with
  | handled r h =>
      have hissued : (h.outcome r).jobId = 0 ∨ (h.outcome r).jobId < e.nextJobId :=
        hw r List.mem_cons_self
      exact Effects.accept_settle hissued a
  | _ => rfl

end Worker

section Follows

variable {p : Parsers} {host host' : Host} {b : Backlog Effects Request}

theorem Host.matches_backlog (host : Host) : host.Matches host.backlog := ⟨rfl, rfl⟩

theorem Host.Matches.nextJobId (h : host.Matches b) :
    b.state.nextJobId = host.effects.nextJobId := by
  have hnext := congrArg Effects.nextJobId h.state
  rw [Worker.marked_nextJobId, Worker.marked_nextJobId] at hnext
  exact hnext.trans Worker.settled_nextJobId

/-- Steps that touch nothing of this leave the backlog as it is. -/
theorem Host.Matches.congr (h : host.Matches b) (hworker : host'.server.worker = host.server.worker)
    (hahead : host'.server.ahead = host.server.ahead) (heffects : host'.effects = host.effects) :
    host'.Matches b := by
  refine ⟨h.waiting.trans ?_, ?_⟩
  · unfold Host.backlog
    rw [hworker, hahead]
  · have hstate := h.state
    unfold Host.backlog at hstate ⊢
    rw [hworker, heffects]
    exact hstate

/-- An arrival goes to the end of the backlog. -/
theorem Host.Matches.receive (h : host.Matches b) (htracked : host.server.Tracked)
    {now fd : Int} {clientId opId : UInt32} {payload : List UInt8}
    (hstep : (HostEvent.interface (.receive now fd clientId opId payload)).step p host =
      some host') :
    ∃ b', (requestDeferral p).step b (.arrive ⟨clientId, opId, payload⟩) = some b' ∧
      host'.Matches b' := by
  obtain ⟨server, hserver, rfl⟩ := Option.map_eq_some_iff.mp hstep
  cases Event.step_spec hserver with
  | receive _ _ _ _ _ hnone hregistered =>
      let a : Arrival := ⟨clientId, opId, payload⟩
      have haccept : host.effects.accept a = _ := effects_receiveRequest now fd a
      have hw : ∀ r ∈ host.server.worker.request.toList, Issued host.effects.nextJobId r :=
        fun r hr => htracked.issued r (List.mem_append_left _ hr)
      have hw' : ∀ r ∈ host.server.worker.request.toList, Issued b.state.nextJobId r :=
        h.nextJobId ▸ hw
      refine ⟨_, rfl, ?_, ?_⟩
      · -- the request is the one that is now pending
        show b.waiting ++ [(b.state.accept a).1] = _
        rw [h.waiting, Effects.accept_request_congr h.nextJobId a, haccept]
        unfold Host.backlog Server.ahead
        simp only [hnone, Option.toList_none, Option.toList_some, List.append_nil,
          List.map_append, List.map_cons, List.map_nil, List.append_assoc]
        rfl
      · have hsettled : ∀ r ∈ host.server.worker.request.toList,
            Issued (host.server.worker.settled host.effects).nextJobId r := by
          rw [Worker.settled_nextJobId]
          exact hw
        -- the arrival is moved over the mark, then over what the worker has to settle
        calc host.server.worker.marked (b.state.accept a).2
            = ((host.server.worker.marked b.state).accept a).2 := by rw [Worker.accept_marked hw']
          _ = ((host.server.worker.marked host.backlog.state).accept a).2 := by rw [h.state]
          _ = host.server.worker.marked (host.backlog.state.accept a).2 :=
              congrArg Prod.snd (Worker.accept_marked hsettled a)
          _ = host.server.worker.marked (host.server.worker.settled (host.effects.accept a).2) :=
              congrArg (fun e : Request × Effects => host.server.worker.marked e.2)
                (Worker.accept_settled hw a)
          _ = _ := by
              rw [haccept]
              rfl

/-- The next request is the head of the backlog. -/
theorem Host.Matches.pop (h : host.Matches b) (hstep : HostEvent.pop.step p host = some host') :
    host'.Matches b := by
  obtain ⟨server, hserver, rfl⟩ := Option.map_eq_some_iff.mp hstep
  cases Event.step_spec hserver with
  | pop r rest hworker hqueue =>
      obtain ⟨hwaiting, hstate⟩ := h
      unfold Host.backlog Server.ahead at hwaiting
      unfold Host.backlog at hstate
      rw [hworker] at hwaiting hstate
      rw [hqueue] at hwaiting
      exact ⟨hwaiting, hstate⟩

/-- A request that begins is only marked. -/
theorem Host.Matches.begin (h : host.Matches b) (hring : JobRing host.server.shared) {now : Int}
    (hstep : (HostEvent.begin now).step p host = some host') : host'.Matches b := by
  obtain ⟨server, hserver, rfl⟩ := Option.map_eq_some_iff.mp hstep
  cases Event.step_spec hserver with
  | begin _ r hworker =>
      obtain ⟨hwaiting, hstate⟩ := h
      unfold Host.backlog at hwaiting hstate
      rw [hworker] at hwaiting hstate
      refine ⟨hwaiting, ?_⟩
      have hbegin : Work.effects ⟨beginRequest now r host.server.shared, host.disk, host.outcomes⟩ =
          host.effects.mark r := effects_beginRequest hring now
      -- a second mark of the same job changes nothing
      calc b.state.mark r
          = host.effects.mark r := congrArg (fun e : Effects => e.mark r) hstate
        _ = (host.effects.mark r).mark r := (Effects.record_record _ _ _ _ _ _).symm
        _ = (Work.effects ⟨beginRequest now r host.server.shared, host.disk,
              host.outcomes⟩).mark r := by rw [hbegin]

/-- The operation of a request performs the head of the backlog. -/
theorem Host.Matches.handle (h : host.Matches b) {rounds : List ReadRound}
    (hstep : (HostEvent.handle rounds).step p host = some host') :
    ∃ b', (requestDeferral p).step b .perform = some b' ∧ host'.Matches b' := by
  obtain ⟨r, state, handled, hworker, hreads, hhandle, rfl⟩ := HostEvent.step_handle hstep
  obtain ⟨hwaiting, hstate⟩ := h
  unfold Host.backlog at hwaiting hstate
  rw [hworker] at hwaiting hstate
  have hmark : b.state.mark r = host.effects.mark r := hstate
  let o : Operated := operated r (state, handled)
  have hoperate : b.state.operate p r = some o := by
    have hhost : host.effects.operate p r = _ := operate_effects hreads
    rw [hhandle] at hhost
    calc b.state.operate p r
        = (b.state.mark r).operate p r := rfl
      _ = (host.effects.mark r).operate p r := by rw [hmark]
      _ = some o := hhost
  have hchange : (b.state.change r o).mark r = (host.effects.change r o).mark r :=
    congrArg (fun e : Effects => e.change r o) hmark
  have hafter : Work.effects ⟨state, host.disk.after r host.server.shared, host.outcomes⟩ =
      host.effects.change r o := effects_handleRequest hhandle
  refine ⟨⟨(b.state.change r o).settle o.outcome, host.server.ahead.map Request.anonymous⟩,
    ?_, rfl, ?_⟩
  · have hperform : b.state.perform p r.anonymous =
        some ((b.state.change r o).settle o.outcome) := by
      show (b.state.operate p r).map _ = _
      rw [hoperate]
      rfl
    have hhead : b.waiting = r.anonymous :: host.server.ahead.map Request.anonymous := hwaiting
    simp only [Deferral.step, hhead]
    show (b.state.perform p r.anonymous).map _ = _
    rw [hperform]
    rfl
  · -- what the operation has come to is written over the mark
    show (b.state.change r o).settle o.outcome = Effects.settle _ (handled.outcome r)
    rw [Effects.settle_of_mark_eq hchange rfl, ← hafter]
    rfl

/-- The end of a request settles it. -/
theorem Host.Matches.finish (h : host.Matches b) (hring : JobRing host.server.shared)
    {now elapsed : Int} (hstep : (HostEvent.finish now elapsed).step p host = some host') :
    host'.Matches b := by
  obtain ⟨r, handled, hworker, rfl⟩ := HostEvent.step_finish hstep
  obtain ⟨hwaiting, hstate⟩ := h
  unfold Host.backlog at hwaiting hstate
  rw [hworker] at hwaiting hstate
  have hfinish : Work.effects ⟨(finishRequest now elapsed r handled host.server.shared).1,
      host.disk, host.outcomes ++ [handled.outcome r]⟩ =
      host.effects.settle (handled.outcome r) := effects_finishRequest hring now elapsed handled
  exact ⟨hwaiting, hstate.trans hfinish.symm⟩

/-- Every step without a cancellation is followed by the system that puts requests
off. -/
theorem HostEvent.step_follows {e : HostEvent} (hcancels : e.cancels = false)
    (h : host.server.Tracked ∧ host.Matches b) (hstep : e.step p host = some host') :
    ∃ b', runFrom (requestDeferral p).step b e.moves = some b' ∧
      host'.server.Tracked ∧ host'.Matches b' := by
  obtain ⟨htracked, hmatches⟩ := h
  obtain ⟨event, hevent⟩ := HostEvent.step_server hstep
  have htracked' : host'.server.Tracked := Event.step_tracked htracked hevent
  cases e with
  | interface e =>
      cases harrival : (HostEvent.interface e).arrival with
      | none =>
          obtain ⟨server, hserver, rfl⟩ := Option.map_eq_some_iff.mp hstep
          obtain ⟨hworker, hahead, heffects⟩ := InterfaceEvent.step_quiet harrival hcancels hserver
          refine ⟨b, ?_, htracked', hmatches.congr hworker hahead (heffects _ _)⟩
          cases e with
          | receive now fd clientId opId payload => cases harrival
          | _ => rfl
      | some a =>
          cases e with
          | receive now fd clientId opId payload =>
              obtain ⟨b', hb, hmatches'⟩ := hmatches.receive htracked hstep
              refine ⟨b', ?_, htracked', hmatches'⟩
              exact runFrom_cons_eq_some_iff.mpr ⟨b', hb, rfl⟩
          | _ => cases harrival
  | pop => exact ⟨b, rfl, htracked', hmatches.pop hstep⟩
  | begin now => exact ⟨b, rfl, htracked', hmatches.begin htracked.ring hstep⟩
  | handle rounds =>
      obtain ⟨b', hb, hmatches'⟩ := hmatches.handle hstep
      exact ⟨b', runFrom_cons_eq_some_iff.mpr ⟨b', hb, rfl⟩, htracked', hmatches'⟩
  | finish now elapsed => exact ⟨b, rfl, htracked', hmatches.finish htracked.ring hstep⟩

end Follows

/-! ## One request after the other -/

section Sequence

variable {p : Parsers}

theorem jobRing_receiveRequest {state : SharedState} (hring : JobRing state) (now fd : Int)
    (clientId opId : UInt32) (payload : List UInt8) :
    JobRing (receiveRequest now fd clientId opId payload state).2 := by
  unfold receiveRequest
  cases isProcessingOp opId with
  | false => exact hring
  | true => exact hring.jobCreate now clientId opId

theorem Work.process_ring {work work' : Work} {r : Request} (hring : JobRing work.shared)
    (h : work.process p r = some work') : JobRing work'.shared := by
  obtain ⟨⟨state, handled⟩, hhandle, rfl⟩ := Option.map_eq_some_iff.mp h
  have hbegun := (keepsRecords_beginRequest 0 r work.shared).jobRing hring
  have hhandled := (keepsRecords_handleRequest hhandle).jobRing hbegun
  exact (keepsRecords_finishRequest 0 0 r handled state).jobRing hhandled

/-- `process_request` by its effects. -/
theorem Work.process_effects {work : Work} (hring : JobRing work.shared) (r : Request) :
    (work.process p r).map Work.effects = work.effects.perform p r := by
  let begun : SharedState := beginRequest 0 r work.shared
  have hbegin : Work.effects ⟨begun, work.disk, work.outcomes⟩ = work.effects.mark r :=
    effects_beginRequest hring 0
  have hbegun : JobRing begun := (keepsRecords_beginRequest 0 r work.shared).jobRing hring
  have hreads : ReadsGenerated begun r [.bytes (generatedSql begun.tables) true] := by
    intro _ _
    refine ⟨fun round hround => ?_, List.append_nil _⟩
    obtain rfl := List.mem_singleton.mp hround
    rfl
  -- an operation does not see that the job is marked as running
  have hoperate : work.effects.operate p r = _ :=
    (show work.effects.operate p r = (work.effects.mark r).operate p r from rfl).trans
      (hbegin ▸ operate_effects hreads)
  unfold Work.process Effects.perform
  rw [hoperate, Option.map_map, Option.map_map]
  cases hhandle : handleRequest
      (p.env work.disk r [.bytes (generatedSql begun.tables) true]) r begun with
  | none => rfl
  | some result =>
      obtain ⟨state, handled⟩ := result
      let o : Operated := operated r (state, handled)
      have hstate : JobRing state := (keepsRecords_handleRequest hhandle).jobRing hbegun
      have hfinish : Work.effects ⟨(finishRequest 0 0 r handled state).1, work.disk.after r begun,
          work.outcomes ++ [handled.outcome r]⟩ = _ := effects_finishRequest hstate 0 0 handled
      have hchange : ((work.effects.mark r).change r o).mark r = (work.effects.change r o).mark r :=
        congrArg (fun e : Effects => e.change r o) (Effects.record_record _ _ _ _ _ _)
      have hafter : Work.effects ⟨state, work.disk.after r begun, work.outcomes⟩ =
          (work.effects.mark r).change r o := hbegin ▸ effects_handleRequest hhandle
      refine congrArg some (hfinish.trans ?_)
      rw [hafter]
      exact Effects.settle_of_mark_eq hchange rfl

/-- The creation of a job and `process_request` by their effects. -/
theorem Work.receive_effects {work : Work} (hring : JobRing work.shared) (a : Arrival) :
    (work.receive p a).map Work.effects = (requestDeferral p).atOnce work.effects a := by
  have haccept : work.effects.accept a = _ := effects_receiveRequest 0 0 a
  unfold Work.receive
  rw [Work.process_effects (jobRing_receiveRequest hring 0 0 a.clientId a.opId a.payload)]
  show _ = Effects.perform p (work.effects.accept a).2 (work.effects.accept a).1
  rw [haccept]
  rfl

theorem Work.receive_ring {work work' : Work} {a : Arrival} (hring : JobRing work.shared)
    (h : work.receive p a = some work') : JobRing work'.shared :=
  Work.process_ring (jobRing_receiveRequest hring 0 0 a.clientId a.opId a.payload) h

theorem runFrom_perform_anonymous (e : Effects) (requests : List Request) :
    runFrom (Effects.perform p) e (requests.map Request.anonymous) =
      runFrom (Effects.perform p) e requests :=
  List.foldlM_map

/-- A list of requests, and the arrivals after it, by their effects. -/
theorem process_receive_effects (work : Work) (hring : JobRing work.shared)
    (requests : List Request) (arrivals : List Arrival) :
    ((runFrom (Work.process p) work requests).bind fun work =>
        runFrom (Work.receive p) work arrivals).map Work.effects =
      (requestDeferral p).oneByOne ⟨work.effects, requests.map Request.anonymous⟩ arrivals := by
  have hprocess : ∀ work r work', JobRing work.shared → Work.process p work r = some work' →
      JobRing work'.shared := fun _ _ _ hring h => Work.process_ring hring h
  have hreceive : ∀ work a work', JobRing work.shared → Work.receive p work a = some work' →
      JobRing work'.shared := fun _ _ _ hring h => Work.receive_ring hring h
  have hrequests : (runFrom (Work.process p) work requests).map Work.effects =
      runFrom (Effects.perform p) work.effects requests :=
    runFrom_map hprocess (fun _ r hring => Work.process_effects hring r) hring requests
  unfold Deferral.oneByOne
  show _ = (runFrom (Effects.perform p) work.effects (requests.map Request.anonymous)).bind _
  rw [runFrom_perform_anonymous, ← hrequests, Option.bind_map, Option.map_bind]
  cases hrun : runFrom (Work.process p) work requests with
  | none => rfl
  | some middle =>
      exact runFrom_map hreceive (fun _ a hring => Work.receive_effects hring a)
        (runFrom_invariant hprocess hring hrun) arrivals

/-- What a host comes to, one request after the other, by its effects. -/
theorem sequentially_effects {host : Host} (hring : JobRing host.server.shared)
    (arrivals : List Arrival) :
    (sequentially p host arrivals).map Work.effects =
      (requestDeferral p).oneByOne host.backlog arrivals := by
  have hprocess : ∀ r, ((host.work.process p r).bind fun work =>
      (runFrom (Work.process p) work host.server.ahead).bind fun work =>
        runFrom (Work.receive p) work arrivals).map Work.effects =
      (requestDeferral p).oneByOne
        ⟨host.effects, r.anonymous :: host.server.ahead.map Request.anonymous⟩ arrivals := by
    intro r
    have hall := process_receive_effects (p := p) host.work hring (r :: host.server.ahead) arrivals
    rw [runFrom_cons, Option.bind_assoc] at hall
    exact hall
  unfold sequentially Host.backlog
  cases host.server.worker with
  | idle => exact process_receive_effects host.work hring host.server.ahead arrivals
  | popped r => exact hprocess r
  | begun r => exact hprocess r
  -- the operation is done, and its outcome is still to be settled
  | handled r h =>
      have hfinish : Work.effects (host.work.finish r h) = host.effects.settle (h.outcome r) :=
        effects_finishRequest hring 0 0 h
      have hrecords := (keepsRecords_finishRequest 0 0 r h host.server.shared).jobRing hring
      have hafter := process_receive_effects (p := p) (host.work.finish r h) hrecords
        host.server.ahead arrivals
      rw [hfinish] at hafter
      exact hafter

end Sequence

/-! ## Timing does not matter -/

/-- Everything that was enqueued has been processed. -/
structure Server.Finished (s : Server) : Prop where
  worker : s.worker = .idle
  queue : s.queue = []
  pending : s.pending = none

instance Worker.decidableIdle : ∀ w : Worker, Decidable (w = .idle)
  | .idle => isTrue rfl
  | .popped _ => isFalse nofun
  | .begun _ => isFalse nofun
  | .handled _ _ => isFalse nofun

instance Server.decidableFinished (s : Server) : Decidable s.Finished :=
  decidable_of_iff (s.worker = .idle ∧ s.queue = [] ∧ s.pending = none)
    ⟨fun h => ⟨h.1, h.2.1, h.2.2⟩, fun h => ⟨h.worker, h.queue, h.pending⟩⟩

/-- What a run without a cancellation leaves behind, when it has processed all its
requests. -/
theorem host_effects {p : Parsers} {now : Int} {before : List Event} {host host' : Host}
    {events : List HostEvent} (hreach : serve (Server.init now) before = some host.server)
    (hcancels : ∀ e ∈ events, e.cancels = false)
    (hrun : runFrom (HostEvent.step p) host events = some host')
    (hdone : host'.server.Finished) :
    (sequentially p host (events.filterMap HostEvent.arrival)).map Work.effects =
      some host'.effects := by
  have htracked := serve_tracked hreach
  obtain ⟨b, hfollows, -, hmatches⟩ := runFrom_simulates
    (fun _ _ _ _ hcancels hR hstep => HostEvent.step_follows hcancels hR hstep)
    ⟨htracked, host.matches_backlog⟩ hcancels hrun
  have hknown : Deferral.Known (fun e r => Issued e.nextJobId r) host.backlog := by
    intro r hr
    obtain ⟨r', hr', rfl⟩ := List.mem_map.mp hr
    have hunfinished : r' ∈ host.server.unfinished := by
      unfold Server.unfinished
      cases hworker : host.server.worker with
      | handled r h =>
          rw [hworker] at hr'
          exact List.mem_append_right _ hr'
      | _ =>
          rw [hworker] at hr'
          exact hr'
    show Issued (host.server.worker.settled host.effects).nextJobId r'
    rw [Worker.settled_nextJobId]
    exact htracked.issued r' hunfinished
  -- the worker is idle and nothing waits: all that has arrived has been performed
  obtain ⟨hwaiting, hstate⟩ := hmatches
  unfold Host.backlog Server.ahead at hwaiting hstate
  rw [hdone.worker] at hwaiting hstate
  rw [hdone.queue, hdone.pending] at hwaiting
  have hone := (requestDeferral_settled p).run_eq_oneByOne hknown hfollows hwaiting
  rw [HostEvent.filterMap_moves] at hone
  rw [sequentially_effects htracked.ring, hone]
  exact congrArg some hstate

/-- Without cancellations, what the requests leave behind depends on the order of
their arrival alone: tables, files and jobs, and the identifier, status and response
reported for each, are those of processing them one after the other. -/
theorem arrivalOrder_decides {p : Parsers} {now : Int} {before : List Event}
    {host host₁ host₂ : Host} {events₁ events₂ : List HostEvent}
    (hreach : serve (Server.init now) before = some host.server)
    (hcancels₁ : ∀ e ∈ events₁, e.cancels = false) (hcancels₂ : ∀ e ∈ events₂, e.cancels = false)
    (hrun₁ : runFrom (HostEvent.step p) host events₁ = some host₁)
    (hrun₂ : runFrom (HostEvent.step p) host events₂ = some host₂)
    (hsame : events₁.filterMap HostEvent.arrival = events₂.filterMap HostEvent.arrival)
    (hdone₁ : host₁.server.Finished) (hdone₂ : host₂.server.Finished) :
    host₁.effects = host₂.effects ∧
      (sequentially p host (events₁.filterMap HostEvent.arrival)).map Work.effects =
        some host₁.effects := by
  have hfirst := host_effects hreach hcancels₁ hrun₁ hdone₁
  have hsecond := host_effects hreach hcancels₂ hrun₂ hdone₂
  rw [← hsame] at hsecond
  exact ⟨Option.some.inj (hfirst.symm.trans hsecond), hfirst⟩

/-! ### Two clients, and two schedules -/

/-- libpg_query accepts every text. -/
def sampleParsers : Parsers := ⟨sampleParse, fun _ => none⟩

/-- Two clients are connected. -/
def twoClients : List Event :=
  [.interface (.connect 0 5 (lit "10.0.0.1")), .interface (.connect 0 6 (lit "10.0.0.2"))]

/-- The DDL of the sample document. -/
def sampleDdl : List UInt8 :=
  generatedSql (loadErJson sampleParse (stateInit 0) (.holding sampleText)).1.tables

/-- A request is built and pushed. -/
def enqueueEvents (now fd : Int) (clientId opId : UInt32) (payload : List UInt8) :
    List HostEvent :=
  [.interface (.receive now fd clientId opId payload), .interface .push]

/-- The worker's steps over one request. -/
def turnEvents (now : Int) (rounds : List ReadRound) : List HostEvent :=
  [.pop, .begin now, .handle rounds, .finish (now + 1) 1]

/-- An upload in two chunks, while another client asks for the DDL and inserts rows:
everything is enqueued before the worker takes its first turn. -/
def lateSchedule : List HostEvent :=
  enqueueEvents 1 5 1 opUploadBegin [] ++
    enqueueEvents 1 5 1 opUploadChunk (sampleText.take 40) ++
    enqueueEvents 1 6 2 opValidateInsert ((lit "INSERT INTO u VALUES (1)").map Subtype.val) ++
    enqueueEvents 2 5 1 opUploadChunk (sampleText.drop 40) ++
    enqueueEvents 2 5 1 opUploadEnd [] ++
    enqueueEvents 2 6 2 opDownloadSql [] ++
    enqueueEvents 3 6 2 opValidateInsert ((lit "INSERT INTO u VALUES (1)").map Subtype.val) ++
    turnEvents 4 [] ++ turnEvents 5 [] ++ turnEvents 6 [] ++ turnEvents 7 [] ++ turnEvents 8 [] ++
    turnEvents 9 [.bytes sampleDdl true] ++ turnEvents 10 []

/-- The same requests, each processed as soon as it is there, but for the last two;
the download reads its file in pieces. -/
def promptSchedule : List HostEvent :=
  enqueueEvents 1 5 1 opUploadBegin [] ++ turnEvents 2 [] ++
    enqueueEvents 3 5 1 opUploadChunk (sampleText.take 40) ++ turnEvents 4 [] ++
    enqueueEvents 5 6 2 opValidateInsert ((lit "INSERT INTO u VALUES (1)").map Subtype.val) ++
    turnEvents 6 [] ++
    enqueueEvents 7 5 1 opUploadChunk (sampleText.drop 40) ++ turnEvents 8 [] ++
    enqueueEvents 9 5 1 opUploadEnd [] ++ turnEvents 10 [] ++
    enqueueEvents 11 6 2 opDownloadSql [] ++ [.pop, .begin 12] ++
    enqueueEvents 13 6 2 opValidateInsert ((lit "INSERT INTO u VALUES (1)").map Subtype.val) ++
    [.handle [.bytes (sampleDdl.take 20) true, .interrupted, .bytes (sampleDdl.drop 20) true],
      .finish 14 2] ++
    turnEvents 15 []

/-- What is to be reported: the insertion before the end of the upload fails. -/
def sampleStatuses : List (Nat × JobStatus) :=
  [(0, .done), (0, .done), (1, .error), (0, .done), (2, .done), (3, .done), (4, .done)]

theorem schedules_run :
    ((serve (Server.init 0) twoClients).bind fun server =>
      (runFrom (HostEvent.step sampleParsers) ⟨server, fun _ => none, []⟩ lateSchedule).bind
        fun late =>
          (runFrom (HostEvent.step sampleParsers) ⟨server, fun _ => none, []⟩ promptSchedule).map
            fun prompt => decide (late.server.Finished ∧ prompt.server.Finished ∧
              late.outcomes.map (fun o => (o.jobId, o.status)) = sampleStatuses)) =
      some true := by
  decide +kernel

/-- Both schedules leave the same behind. -/
theorem schedules_agree :
    ∃ host late prompt : Host, serve (Server.init 0) twoClients = some host.server ∧
      runFrom (HostEvent.step sampleParsers) host lateSchedule = some late ∧
      runFrom (HostEvent.step sampleParsers) host promptSchedule = some prompt ∧
      late.outcomes.map (fun o => (o.jobId, o.status)) = sampleStatuses ∧
      late.effects = prompt.effects ∧
      (sequentially sampleParsers host (lateSchedule.filterMap HostEvent.arrival)).map
        Work.effects = some late.effects := by
  obtain ⟨server, hreach, hrest⟩ := Option.bind_eq_some_iff.mp schedules_run
  obtain ⟨late, hlate, hrest⟩ := Option.bind_eq_some_iff.mp hrest
  obtain ⟨prompt, hprompt, hall⟩ := Option.map_eq_some_iff.mp hrest
  obtain ⟨hdone, hdone', hstatuses⟩ := of_decide_eq_true hall
  have hcancels : (∀ e ∈ lateSchedule, e.cancels = false) ∧
      ∀ e ∈ promptSchedule, e.cancels = false := by decide +kernel
  have hsame : lateSchedule.filterMap HostEvent.arrival =
      promptSchedule.filterMap HostEvent.arrival := by decide +kernel
  have hagree := arrivalOrder_decides hreach hcancels.1 hcancels.2 hlate hprompt hsame hdone hdone'
  exact ⟨⟨server, fun _ => none, []⟩, late, prompt, hreach, hlate, hprompt, hstatuses, hagree⟩

end SqlCodeGenerator
