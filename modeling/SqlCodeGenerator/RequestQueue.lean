import SqlCodeGenerator.Library.LinkedQueues
import SqlCodeGenerator.RequestEffects
import SqlCodeGenerator.Server

/-!
# The request queue

`queue_init`, `queue_push` and `queue_pop` of `server.c` on the memory of the requests.
The lock makes each of them one step (`QueueSections`).  A request is pushed when it is not
in the queue: `ordinary_interface_main` pushes what `calloc` has just returned, and only
what has been popped is freed.

* `QueueOp.fifo`: what the queue is for, a list of requests;
* `QueueRun.Refines.perform`: an operation on the memory is one on that list;
* `requestQueue_refines`: so is every sequence of them;
* `serve_queued`: the queue of the server is such a list.
-/

namespace SqlCodeGenerator

open Library

/-- The address of a request.  NULL is `none`. -/
abbrev Address := Nat

/-- `Request` in memory, with the link of the queue. -/
structure RequestNode where
  request : Request
  next : Option Address

/-- The queue, the memory it links, and the counter in the shared state. -/
structure QueueState where
  node : Address → RequestNode
  queue : LinkedQueue Address
  queueDepth : Int

/-- `queue_init`, on a shared state that `state_init` has set to 0. -/
def queueInit (node : Address → RequestNode) : QueueState := ⟨node, ⟨none, none⟩, 0⟩

/-- `queue_push`. -/
def queuePush (r : Address) (s : QueueState) : QueueState :=
  let node := Function.update s.node r { s.node r with next := none }
  match s.queue.tail with
  | none => ⟨node, ⟨some r, some r⟩, s.queueDepth + 1⟩
  | some tail =>
      ⟨Function.update node tail { node tail with next := some r }, ⟨s.queue.head, some r⟩,
        s.queueDepth + 1⟩

/-- `queue_pop`.  On an empty queue it waits, or returns NULL when the server stops. -/
def queuePop (s : QueueState) : Option Address × QueueState :=
  match s.queue.head with
  | none => (none, s)
  | some r =>
      let head := (s.node r).next
      (some r, { s with
        queue := ⟨head, if head = none then none else s.queue.tail⟩
        queueDepth := if s.queueDepth > 0 then s.queueDepth - 1 else s.queueDepth })

/-- An operation on the queue: the interface has filled a request and pushes it, or the
worker pops one. -/
inductive QueueOp where
  | push (r : Address) (request : Request)
  | pop

/-- The queue, and what `queue_pop` has returned, with what was there. -/
structure QueueRun where
  state : QueueState
  returned : List (Address × Request)

namespace QueueOp

/-- The operation on the memory. -/
def perform (run : QueueRun) : QueueOp → QueueRun
  | push r request =>
      { run with
        state := queuePush r { run.state with
          node := Function.update run.state.node r { run.state.node r with request := request } } }
  | pop =>
      match queuePop run.state with
      | (none, state) => { run with state := state }
      | (some r, state) => ⟨state, run.returned ++ [(r, (state.node r).request)]⟩

/-- The operation on a list of requests.  A request is not pushed a second time while it
is in the list. -/
def fifo (queue : List (Address × Request)) : QueueOp → Option (List (Address × Request))
  | push r request =>
      if r ∈ queue.map Prod.fst then none else some (queue ++ [(r, request)])
  | pop => some queue.tail

end QueueOp

/-- The requests that are pushed, in order. -/
def pushes (ops : List QueueOp) : List (Address × Request) :=
  ops.filterMap fun
    | .push r request => some (r, request)
    | .pop => none

/-- The queue after a list of operations from `queue_init` on. -/
def queueAfter (node : Address → RequestNode) (ops : List QueueOp) : QueueRun :=
  ops.foldl QueueOp.perform ⟨queueInit node, []⟩

/-! ## The memory and the list -/

/-- The links of the memory. -/
def QueueState.next (s : QueueState) (r : Address) : Option Address := (s.node r).next

/-- The memory holds a list of requests, and the counter counts them. -/
structure QueueState.Holds (s : QueueState) (queue : List (Address × Request)) : Prop where
  links : s.queue.Represents s.next (queue.map Prod.fst)
  requests : ∀ r request, (r, request) ∈ queue → (s.node r).request = request
  depth : s.queueDepth = queue.length

theorem queueInit_holds (node : Address → RequestNode) : (queueInit node).Holds [] where
  links := .empty _
  requests r request hmem := by cases hmem
  depth := rfl

/-- A change of one link, said of all of them. -/
theorem next_update (node : Address → RequestNode) (r : Address) (n : RequestNode) :
    (fun p => (Function.update node r n p).next) =
      Function.update (fun p => (node p).next) r n.next := by
  ext1 p
  by_cases hp : p = r
  · subst hp
    rw [Function.update_self, Function.update_self]
  · rw [Function.update_of_ne hp, Function.update_of_ne hp]

/-- The links and the queue after `queue_push`. -/
theorem queuePush_links (r : Address) (s : QueueState) :
    (queuePush r s).next = LinkedQueue.linkLast s.next s.queue r ∧
      (queuePush r s).queue = s.queue.push r := by
  unfold queuePush LinkedQueue.linkLast LinkedQueue.push
  cases s.queue.tail with
  | none => exact ⟨next_update .., rfl⟩
  | some tail =>
      refine ⟨(next_update _ tail _).trans ?_, rfl⟩
      exact congrArg (Function.update · tail (some r)) (next_update ..)

/-- No link changes what is requested. -/
theorem queuePush_request (r : Address) (s : QueueState) (p : Address) :
    ((queuePush r s).node p).request = (s.node p).request := by
  have hlink : ∀ (node : Address → RequestNode) (q : Address) (link : Option Address),
      (Function.update node q { node q with next := link } p).request = (node p).request := by
    intro node q link
    by_cases hp : p = q
    · subst hp
      rw [Function.update_self]
    · rw [Function.update_of_ne hp]
  unfold queuePush
  cases s.queue.tail with
  | none => exact hlink s.node r none
  | some tail => exact (hlink _ tail (some r)).trans (hlink s.node r none)

theorem queuePush_depth (r : Address) (s : QueueState) :
    (queuePush r s).queueDepth = s.queueDepth + 1 := by
  unfold queuePush
  cases s.queue.tail <;> rfl

namespace QueueState.Holds

variable {s : QueueState} {queue : List (Address × Request)}

/-- A request that is filled and pushed is the last one. -/
theorem push (h : s.Holds queue) {r : Address} (hr : r ∉ queue.map Prod.fst)
    (request : Request) :
    (queuePush r { s with
      node := Function.update s.node r { s.node r with request := request } }).Holds
        (queue ++ [(r, request)]) := by
  have hfilled : ({ s with
      node := Function.update s.node r { s.node r with request := request } } :
        QueueState).next = s.next := by
    show (fun p => (Function.update s.node r _ p).next) = _
    rw [next_update]
    exact Function.update_eq_self r s.next
  refine ⟨?_, ?_, ?_⟩
  · obtain ⟨hnext, hqueue⟩ := queuePush_links r { s with
      node := Function.update s.node r { s.node r with request := request } }
    rw [hnext, hqueue, hfilled, List.map_append, List.map_singleton]
    exact h.links.push hr
  · intro p request' hmem
    rw [queuePush_request]
    show (Function.update s.node r _ p).request = request'
    rcases List.mem_append.mp hmem with hqueued | hnew
    · -- another request, which is not written to
      have hp : p ≠ r := by
        rintro rfl
        exact hr (List.mem_map_of_mem hqueued)
      rw [Function.update_of_ne hp]
      exact h.requests p request' hqueued
    · obtain ⟨rfl, rfl⟩ := Prod.mk.inj (List.mem_singleton.mp hnew)
      rw [Function.update_self]
  · rw [queuePush_depth, List.length_append, List.length_singleton]
    show s.queueDepth + 1 = _
    rw [h.depth]
    omega

/-- The first request is popped, and the guard of the counter does not take effect. -/
theorem pop {r : Address} {request : Request} (h : s.Holds ((r, request) :: queue)) :
    (queuePop s).1 = some r ∧ ((queuePop s).2.node r).request = request ∧
      (queuePop s).2.Holds queue ∧ 0 < s.queueDepth := by
  obtain ⟨hhead, hlinks⟩ := h.links.pop
  have hdepth : s.queueDepth = queue.length + 1 := h.depth
  have hpos : s.queueDepth > 0 := by omega
  have hpop : queuePop s = (some r, { s with
      queue := s.queue.pop (s.next r)
      queueDepth := s.queueDepth - 1 }) := by
    unfold queuePop
    rw [hhead]
    simp only [if_pos hpos]
    rfl
  rw [hpop]
  refine ⟨rfl, h.requests r request List.mem_cons_self, ⟨hlinks, ?_, ?_⟩, hpos⟩
  · intro p request' hmem
    exact h.requests p request' (List.mem_cons_of_mem _ hmem)
  · show s.queueDepth - 1 = queue.length
    omega

/-- An empty queue stays as it is. -/
theorem pop_empty (h : s.Holds []) : queuePop s = (none, s) := by
  have hhead : s.queue.head = none := h.links.chain.eq_nil_iff.mp rfl
  unfold queuePop
  rw [hhead]

end QueueState.Holds

/-- The memory holds the list, and what was pushed has been returned or is in it. -/
structure QueueRun.Refines (run : QueueRun) (pushed queue : List (Address × Request)) : Prop where
  holds : run.state.Holds queue
  order : pushed = run.returned ++ queue

/-- An operation on the memory is the operation on the list. -/
theorem QueueRun.Refines.perform {run : QueueRun} {pushed queue queue' : List (Address × Request)}
    (h : run.Refines pushed queue) {op : QueueOp} (hop : op.fifo queue = some queue') :
    (op.perform run).Refines (pushed ++ pushes [op]) queue' := by
  cases op with
  | push r request =>
      rw [QueueOp.fifo] at hop
      by_cases hr : r ∈ queue.map Prod.fst
      · rw [if_pos hr] at hop
        cases hop
      · rw [if_neg hr] at hop
        obtain rfl := Option.some.inj hop
        refine ⟨h.holds.push hr request, ?_⟩
        show pushed ++ [(r, request)] = run.returned ++ (queue ++ [(r, request)])
        rw [h.order, List.append_assoc]
  | pop =>
      obtain rfl := Option.some.inj hop
      have hpushes : pushed ++ pushes [.pop] = pushed := List.append_nil pushed
      rw [hpushes]
      -- an empty queue returns nothing and is left as it is
      cases queue with
      | nil =>
          have hpop := h.holds.pop_empty
          have hrun : QueueOp.pop.perform run = run := by
            unfold QueueOp.perform
            rw [hpop]
          rw [hrun]
          exact h
      | cons first queue =>
          obtain ⟨r, request⟩ := first
          obtain ⟨hfirst, hrequest, hholds, -⟩ := h.holds.pop
          have hrun : QueueOp.pop.perform run =
              ⟨(queuePop run.state).2, run.returned ++ [(r, request)]⟩ := by
            unfold QueueOp.perform
            cases hpop : queuePop run.state with
            | mk popped state =>
                rw [hpop] at hfirst hrequest
                obtain rfl : popped = some r := hfirst
                have hheld : (state.node r).request = request := hrequest
                simp only [hheld]
          rw [hrun]
          refine ⟨hholds, ?_⟩
          show pushed = run.returned ++ [(r, request)] ++ queue
          rw [h.order, List.append_assoc]
          rfl

/-- A sequence of operations on the memory is one on the list. -/
theorem QueueRun.Refines.run {run : QueueRun} {pushed queue queue' : List (Address × Request)}
    (h : run.Refines pushed queue) {ops : List QueueOp}
    (hrun : runFrom QueueOp.fifo queue ops = some queue') :
    (ops.foldl QueueOp.perform run).Refines (pushed ++ pushes ops) queue' := by
  induction ops generalizing run pushed queue with
  | nil =>
      obtain rfl := Option.some.inj hrun
      rw [pushes, List.filterMap_nil, List.append_nil]
      exact h
  | cons op ops ih =>
      obtain ⟨middle, hop, hrest⟩ := runFrom_cons_eq_some_iff.mp hrun
      have hpushes : pushes (op :: ops) = pushes [op] ++ pushes ops := by
        show pushes ([op] ++ ops) = _
        exact List.filterMap_append
      rw [hpushes, ← List.append_assoc]
      exact ih (h.perform hop) hrest

/-- After every sequence of operations in which no request is pushed while it is in the
queue: what is reached from `head` are the requests pushed and not yet popped, in the order
of the pushes, `tail` is the last of them, the counter is their number, and what was popped
are the requests pushed before them, in that order. -/
theorem requestQueue_refines (node : Address → RequestNode) (ops : List QueueOp)
    {queue : List (Address × Request)}
    (hfifo : runFrom QueueOp.fifo [] ops = some queue) :
    pushes ops = (queueAfter node ops).returned ++ queue ∧
      Chain (queueAfter node ops).state.next (queueAfter node ops).state.queue.head
        (queue.map Prod.fst) ∧
      (∀ r request, (r, request) ∈ queue →
        ((queueAfter node ops).state.node r).request = request) ∧
      (queueAfter node ops).state.queue.tail = (queue.map Prod.fst).getLast? ∧
      ((queueAfter node ops).state.queue.tail = none ↔
        (queueAfter node ops).state.queue.head = none) ∧
      (queueAfter node ops).state.queueDepth = queue.length ∧
      ((queueAfter node ops).state.queue.head ≠ none →
        (queueAfter node ops).state.queueDepth > 0) := by
  have hinit : (⟨queueInit node, []⟩ : QueueRun).Refines [] [] := ⟨queueInit_holds node, rfl⟩
  obtain ⟨hholds, horder⟩ := hinit.run hfifo
  refine ⟨horder, hholds.links.chain, hholds.requests, hholds.links.tail,
    hholds.links.tail_eq_none_iff, hholds.depth, fun hhead => ?_⟩
  have hdepth : (queueAfter node ops).state.queueDepth = queue.length := hholds.depth
  have hne : queue ≠ [] := by
    rintro rfl
    exact hhead (hholds.links.chain.eq_nil_iff.mp rfl)
  have hpos := List.length_pos_iff.mpr hne
  omega

/-! ### Two requests, and the place of the first one used again -/

/-- The first request is popped and its place is pushed again, behind the second one. -/
def reusedPlace : List QueueOp :=
  [.push 1 ⟨5, 1, opGenerateSql, 1, none, 0⟩, .push 2 ⟨6, 2, opGenerateSql, 2, none, 0⟩, .pop,
    .push 1 ⟨5, 1, opDownloadSql, 3, none, 0⟩, .pop]

theorem requestQueue_reusedPlace :
    Chain (queueAfter (fun _ => ⟨⟨0, 0, 0, 0, none, 0⟩, some 7⟩) reusedPlace).state.next
        (queueAfter (fun _ => ⟨⟨0, 0, 0, 0, none, 0⟩, some 7⟩) reusedPlace).state.queue.head [1] ∧
      (queueAfter (fun _ => ⟨⟨0, 0, 0, 0, none, 0⟩, some 7⟩) reusedPlace).state.queueDepth = 1 := by
  have hfifo : runFrom QueueOp.fifo [] reusedPlace =
      some [(1, ⟨5, 1, opDownloadSql, 3, none, 0⟩)] := by decide
  obtain ⟨-, hchain, -, -, -, hdepth, -⟩ :=
    requestQueue_refines (fun _ => ⟨⟨0, 0, 0, 0, none, 0⟩, some 7⟩) reusedPlace hfifo
  exact ⟨hchain, hdepth⟩

/-! ## The queue of the server -/

theorem queueDepth_beginRequest (now : Int) (r : Request) (state : SharedState) :
    (beginRequest now r state).queueDepth = state.queueDepth := by
  obtain ⟨_, _, _, _, _, hframe⟩ := beginRequest_frame now r state
  rw [hframe]

theorem queueDepth_finishRequest (now elapsed : Int) (r : Request) (h : Handled)
    (state : SharedState) :
    (finishRequest now elapsed r h state).1.queueDepth = state.queueDepth := by
  obtain ⟨_, _, _, _, _, _, _, hframe⟩ := finishRequest_frame now elapsed r h state
  rw [hframe]

/-- A step of the server leaves its queue, adds a request at the end or takes the first
one, and the counter goes with it. -/
theorem Event.step_queue {s s' : Server} {e : Event} (h : e.step s = some s') :
    (s'.queue = s.queue ∧ s'.shared.queueDepth = s.shared.queueDepth) ∨
      (∃ r, s'.queue = s.queue ++ [r] ∧ s'.shared.queueDepth = s.shared.queueDepth + 1) ∨
      ∃ r, s.queue = r :: s'.queue ∧ s'.shared.queueDepth = s.shared.queueDepth - 1 := by
  cases Event.step_spec h with
  | push r hpending => exact Or.inr (Or.inl ⟨r, rfl, rfl⟩)
  | pop r rest hworker hqueue => exact Or.inr (Or.inr ⟨r, hqueue, rfl⟩)
  -- no other step calls `queue_push` or `queue_pop`
  | connect now fd addr =>
      obtain ⟨_, _, _, hframe⟩ := connectClient_frame now fd addr s.shared
      refine Or.inl ⟨rfl, ?_⟩
      rw [hframe]
  | close fd =>
      obtain ⟨_, _, hframe⟩ := clientRemoveFd_frame fd s.shared
      refine Or.inl ⟨rfl, ?_⟩
      rw [hframe]
  | receive now fd clientId opId payload hpending hregistered =>
      refine Or.inl ⟨rfl, ?_⟩
      unfold receiveRequest
      cases isProcessingOp opId <;> rfl
  | admin connected => exact Or.inl ⟨rfl, rfl⟩
  | cancel clientId =>
      obtain ⟨_, _, _, hframe⟩ := adminCancel_frame clientId s.shared
      refine Or.inl ⟨rfl, ?_⟩
      rw [hframe]
  | note line => exact Or.inl ⟨rfl, rfl⟩
  | begin now r hworker => exact Or.inl ⟨rfl, queueDepth_beginRequest now r s.shared⟩
  | handle env r state h hworker hhandle =>
      obtain ⟨_, _, _, _, _, _, rfl⟩ := handleRequest_effect hhandle
      exact Or.inl ⟨rfl, rfl⟩
  | finish now elapsed r handled hworker =>
      exact Or.inl ⟨rfl, queueDepth_finishRequest now elapsed r handled s.shared⟩

/-- The requests are a list that operations on the memory make, each pushed at a place
of its own. -/
def QueueMade (requests : List Request) : Prop :=
  ∃ ops queue, runFrom QueueOp.fifo [] ops = some queue ∧ queue.map Prod.snd = requests ∧
    ∀ r ∈ queue.map Prod.fst, r < (pushes ops).length

theorem QueueMade.push {requests : List Request} (h : QueueMade requests) (request : Request) :
    QueueMade (requests ++ [request]) := by
  obtain ⟨ops, queue, hrun, rfl, hplaces⟩ := h
  have hfresh : (pushes ops).length ∉ queue.map Prod.fst := fun hmem =>
    Nat.lt_irrefl _ (hplaces _ hmem)
  have hpushes : pushes (ops ++ [.push (pushes ops).length request]) =
      pushes ops ++ [((pushes ops).length, request)] := List.filterMap_append
  refine ⟨ops ++ [.push (pushes ops).length request],
    queue ++ [((pushes ops).length, request)], ?_, ?_, ?_⟩
  · rw [runFrom_append, hrun]
    show (QueueOp.fifo queue (.push (pushes ops).length request)).bind _ = _
    rw [QueueOp.fifo, if_neg hfresh]
    rfl
  · rw [List.map_append]
    rfl
  · intro r hr
    rw [hpushes, List.length_append, List.length_singleton]
    rw [List.map_append] at hr
    rcases List.mem_append.mp hr with hqueued | hnew
    · exact Nat.lt_succ_of_lt (hplaces r hqueued)
    · have heq : r = (pushes ops).length := List.mem_singleton.mp hnew
      exact Nat.lt_succ_of_le (Nat.le_of_eq heq)

theorem QueueMade.pop {request : Request} {requests : List Request}
    (h : QueueMade (request :: requests)) : QueueMade requests := by
  obtain ⟨ops, queue, hrun, hqueue, hplaces⟩ := h
  have hpushes : pushes (ops ++ [.pop]) = pushes ops := by
    rw [pushes, List.filterMap_append]
    exact List.append_nil _
  refine ⟨ops ++ [.pop], queue.tail, ?_, ?_, ?_⟩
  · rw [runFrom_append, hrun]
    rfl
  · rw [List.map_tail, hqueue]
    rfl
  · intro r hr
    rw [hpushes]
    rw [List.map_tail] at hr
    exact hplaces r (List.mem_of_mem_tail hr)

/-- The queue of the server is a list that operations on the memory make, and its counter
is the number of the requests in it. -/
structure Server.Queued (s : Server) : Prop where
  made : QueueMade s.queue
  depth : s.shared.queueDepth = s.queue.length

theorem Event.step_queued {s s' : Server} {e : Event} (hs : s.Queued) (h : e.step s = some s') :
    s'.Queued := by
  obtain ⟨hmade, hdepth⟩ := hs
  rcases Event.step_queue h with ⟨hsame, hcount⟩ | ⟨r, hpush, hcount⟩ | ⟨r, hpop, hcount⟩
  · exact ⟨hsame ▸ hmade, by rw [hcount, hdepth, hsame]⟩
  · refine ⟨hpush ▸ hmade.push r, ?_⟩
    rw [hcount, hdepth, hpush, List.length_append, List.length_singleton]
  · rw [hpop] at hmade hdepth
    refine ⟨hmade.pop, ?_⟩
    rw [hcount, hdepth, List.length_cons, Nat.add_sub_cancel]

theorem serve_queued {now : Int} {events : List Event} {s : Server}
    (hreach : serve (Server.init now) events = some s) : s.Queued := by
  have hinit : (Server.init now).Queued :=
    ⟨⟨[], [], rfl, rfl, fun r hr => (by cases hr)⟩, rfl⟩
  exact runFrom_invariant (fun _ _ _ hs h => Event.step_queued hs h) hinit hreach

end SqlCodeGenerator
