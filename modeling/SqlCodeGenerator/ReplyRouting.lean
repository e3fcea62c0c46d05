import SqlCodeGenerator.InsertRequests
import SqlCodeGenerator.Registrations

/-!
# Where replies go

Every request that is popped is answered once.  Its messages go to whoever has its
descriptor when they are sent: the connection it was read from, or none, unless the
number of the descriptor has been given out again.

* `repliesRouted`: as long as no descriptor is given out that an outstanding
  request carries, no message reaches another connection.
* `reusedDescriptor_misrouted`: a client hangs up before its request is processed,
  and the next client gets the reply.
-/

namespace SqlCodeGenerator

open Library

/-- The messages sent for a request, by its place in the order of pops. -/
def Network.sentFor (net : Network) (n : Nat) : List Message :=
  (net.delivered.filter fun d => d.request = n).map Delivery.message

/-- No message goes to a connection other than the one its request was read from,
and every request popped gets one terminal reply: one when the worker has done with
it, and never more. -/
structure RepliesRouted (net : Network) : Prop where
  routed : ∀ d ∈ net.delivered, d.receiver = none ∨ d.receiver = some ⟨d.origin, false⟩
  answered : ∀ n < net.popped, n + 1 < net.popped ∨ net.server.worker = .idle ∧ net.outbox = [] →
    (net.sentFor n).countP Message.terminal = 1
  once : ∀ n, (net.sentFor n).countP Message.terminal ≤ 1

/-- A descriptor that is given out is that of no outstanding request and of no
message about to be sent. -/
def freshDescriptor (net : Network) : NetworkEvent → Bool
  | .accept fd => net.outstanding.all (·.fd ≠ fd) && net.outbox.all (·.fd ≠ fd)
  | .acceptAdmin fd => net.outstanding.all (·.fd ≠ fd) && net.outbox.all (·.fd ≠ fd)
  | _ => true

/-! ## One terminal reply -/

theorem Answers.countP {r : Request} {messages : List Message} (h : Answers r messages) :
    messages.countP Message.terminal = 1 := by
  obtain ⟨before, last, rfl, hlast, hbefore⟩ := h.terminal
  have hzero : before.countP Message.terminal = 0 := by
    rw [List.countP_eq_zero]
    intro m hm
    rw [hbefore m hm]
    decide
  rw [List.countP_append, hzero, List.countP_singleton, hlast]
  rfl

/-- The request that was popped last, by where the worker is with it. -/
def CurrentReply (net : Network) : Prop :=
  match net.server.worker with
  | .idle => net.popped = 0 ∧ net.outbox = [] ∨
      0 < net.popped ∧ ∃ r, Answers r (net.sentFor (net.popped - 1) ++ net.outbox)
  | .popped _ => 0 < net.popped ∧ net.sentFor (net.popped - 1) = [] ∧ net.outbox = []
  | .begun _ => 0 < net.popped ∧ net.sentFor (net.popped - 1) = [] ∧ net.outbox = []
  | .handled r h => 0 < net.popped ∧ net.sentFor (net.popped - 1) ++ net.outbox = h.messages ∧
      Answers r (h.sent r)

/-- Earlier requests have been answered, and the last one is being answered. -/
structure Replying (net : Network) : Prop where
  bound : ∀ d ∈ net.delivered, d.request < net.popped
  earlier : ∀ n, n + 1 < net.popped → ∃ r, Answers r (net.sentFor n)
  current : CurrentReply net

theorem replying_init (now : Int) : Replying (Network.init now) where
  bound d h := by cases h
  earlier n h := by cases h
  current := Or.inl ⟨rfl, rfl⟩

/-- Steps that send nothing and leave the worker where it is. -/
theorem Replying.congr {net net' : Network} (h : Replying net)
    (hdelivered : net'.delivered = net.delivered) (hpopped : net'.popped = net.popped)
    (houtbox : net'.outbox = net.outbox) (hworker : net'.server.worker = net.server.worker) :
    Replying net' := by
  obtain ⟨hbound, hearlier, hcurrent⟩ := h
  unfold CurrentReply Network.sentFor at hcurrent
  unfold Network.sentFor at hearlier
  refine ⟨?_, ?_, ?_⟩
  · rw [hdelivered, hpopped]
    exact hbound
  · unfold Network.sentFor
    rw [hdelivered, hpopped]
    exact hearlier
  · unfold CurrentReply Network.sentFor
    rw [hdelivered, hpopped, houtbox, hworker]
    exact hcurrent

/-- Nothing has been sent for a request that is not popped. -/
theorem Replying.sentFor_eq_nil {net : Network} (h : Replying net) {n : Nat}
    (hn : net.popped ≤ n) : net.sentFor n = [] := by
  unfold Network.sentFor
  rw [List.map_eq_nil_iff, List.filter_eq_nil_iff]
  intro d hd heq
  have hlt := h.bound d hd
  have hrequest : d.request = n := of_decide_eq_true heq
  omega

/-- The network after its next message is sent. -/
def Network.transmitted (net : Network) (m : Message) (rest : List Message) : Network :=
  { net with
    outbox := rest
    delivered := net.delivered ++ [⟨net.popped - 1, net.origins.worker, net.owner m.fd, m⟩] }

/-- A message goes to the end of those sent for the last request. -/
theorem Network.sentFor_transmitted (net : Network) (m : Message) (rest : List Message) (n : Nat) :
    (net.transmitted m rest).sentFor n =
      net.sentFor n ++ if net.popped - 1 = n then [m] else [] := by
  unfold transmitted sentFor
  rw [List.filter_append, List.map_append]
  by_cases hn : net.popped - 1 = n
  · simp [hn]
  · simp [hn]

/-- Something is only to be sent for a request. -/
theorem Replying.popped_pos {net : Network} (h : Replying net) {m : Message}
    {rest : List Message} (houtbox : net.outbox = m :: rest) : 0 < net.popped := by
  have hcurrent := h.current
  unfold CurrentReply at hcurrent
  rw [houtbox] at hcurrent
  split at hcurrent
  · rcases hcurrent with ⟨-, hnil⟩ | ⟨hpos, -⟩
    · cases hnil
    · exact hpos
  · exact hcurrent.1
  · exact hcurrent.1
  · exact hcurrent.1

theorem Replying.transmit {net : Network} (h : Replying net) {m : Message} {rest : List Message}
    (houtbox : net.outbox = m :: rest) : Replying (net.transmitted m rest) := by
  have hpos := h.popped_pos houtbox
  refine ⟨fun d hd => ?_, fun n hn => ?_, ?_⟩
  · rcases List.mem_append.mp hd with hd | hd
    · exact h.bound d hd
    · obtain rfl := List.mem_singleton.mp hd
      show net.popped - 1 < net.popped
      omega
  · have hearlier : n + 1 < net.popped := hn
    rw [net.sentFor_transmitted, if_neg (by omega), List.append_nil]
    exact h.earlier n hearlier
  · -- what was to be sent and what has been sent make up the same answer
    have hsent : (net.transmitted m rest).sentFor (net.popped - 1) ++ rest =
        net.sentFor (net.popped - 1) ++ net.outbox := by
      rw [net.sentFor_transmitted, if_pos rfl, houtbox, List.append_assoc]
      rfl
    have hcurrent := h.current
    have hne : net.outbox ≠ [] := houtbox ▸ List.cons_ne_nil m rest
    unfold CurrentReply at hcurrent ⊢
    show match net.server.worker with
      | .idle => net.popped = 0 ∧ rest = [] ∨ 0 < net.popped ∧
          ∃ r, Answers r ((net.transmitted m rest).sentFor (net.popped - 1) ++ rest)
      | .popped _ => _
      | .begun _ => _
      | .handled r h => 0 < net.popped ∧
          (net.transmitted m rest).sentFor (net.popped - 1) ++ rest = h.messages ∧
          Answers r (h.sent r)
    rw [hsent]
    split at hcurrent
    · exact Or.inr (hcurrent.resolve_left fun hnone => hne hnone.2)
    · exact absurd hcurrent.2.2 hne
    · exact absurd hcurrent.2.2 hne
    · exact hcurrent

theorem Replying.step {net net' : Network} {e : NetworkEvent} (h : Replying net)
    (hstep : StepSpec net e net') : Replying net' := by
  cases hstep with
  | pop r rest hworker hqueue houtbox =>
      have hcurrent := h.current
      unfold CurrentReply at hcurrent
      rw [hworker] at hcurrent
      refine ⟨fun d hd => Nat.lt_succ_of_lt (h.bound d hd), fun n hn => ?_, ?_⟩
      · -- the worker was done with the one before
        rcases hcurrent with ⟨hzero, -⟩ | ⟨hpos, r', hanswers⟩
        · simp only at hn
          omega
        · by_cases hlast : n = net.popped - 1
          · rw [houtbox, List.append_nil] at hanswers
            exact ⟨r', hlast ▸ hanswers⟩
          · simp only at hn
            exact h.earlier n (by omega)
      · exact ⟨Nat.succ_pos _, h.sentFor_eq_nil (Nat.le_refl _), houtbox⟩
  | begin now r hworker =>
      have hcurrent := h.current
      unfold CurrentReply at hcurrent
      rw [hworker] at hcurrent
      exact ⟨h.bound, h.earlier, hcurrent⟩
  | handle env r state h' hworker hhandle =>
      have hcurrent := h.current
      unfold CurrentReply at hcurrent
      rw [hworker] at hcurrent
      obtain ⟨hpos, hsent, houtbox⟩ := hcurrent
      refine ⟨h.bound, h.earlier, hpos, ?_, handleRequest_answers hhandle⟩
      show net.sentFor (net.popped - 1) ++ (net.outbox ++ h'.messages) = h'.messages
      rw [hsent, houtbox, List.nil_append, List.nil_append]
  | finish now elapsed r h' hworker houtbox =>
      have hcurrent := h.current
      unfold CurrentReply at hcurrent
      rw [hworker, houtbox, List.append_nil] at hcurrent
      obtain ⟨hpos, hsent, hanswers⟩ := hcurrent
      refine ⟨h.bound, h.earlier, Or.inr ⟨hpos, r, ?_⟩⟩
      show Answers r (net.sentFor (net.popped - 1) ++ h'.reply r)
      rw [hsent]
      exact hanswers
  | transmit m rest houtbox => exact h.transmit houtbox
  -- the interfaces leave the worker and its messages alone
  | _ => exact h.congr rfl rfl rfl rfl

theorem Replying.once {net : Network} (h : Replying net) (n : Nat) :
    (net.sentFor n).countP Message.terminal ≤ 1 := by
  by_cases hlast : n + 1 = net.popped
  · -- what has been sent for the last request is a part of its answer
    obtain rfl : n = net.popped - 1 := by omega
    have hcurrent := h.current
    unfold CurrentReply at hcurrent
    split at hcurrent
    · rcases hcurrent with ⟨hzero, -⟩ | ⟨-, r, hanswers⟩
      · omega
      · have htotal := hanswers.countP
        rw [List.countP_append] at htotal
        omega
    · rw [hcurrent.2.1]
      exact Nat.zero_le 1
    · rw [hcurrent.2.1]
      exact Nat.zero_le 1
    · obtain ⟨-, hsent, hanswers⟩ := hcurrent
      have htotal := hanswers.countP
      rw [Handled.sent, ← hsent, List.countP_append, List.countP_append] at htotal
      omega
  · by_cases hearlier : n + 1 < net.popped
    · obtain ⟨r, hanswers⟩ := h.earlier n hearlier
      exact Nat.le_of_eq hanswers.countP
    · rw [h.sentFor_eq_nil (by omega)]
      exact Nat.zero_le 1

theorem Replying.answered {net : Network} (h : Replying net) {n : Nat} (hn : n < net.popped)
    (hdone : n + 1 < net.popped ∨ net.server.worker = .idle ∧ net.outbox = []) :
    (net.sentFor n).countP Message.terminal = 1 := by
  by_cases hearlier : n + 1 < net.popped
  · obtain ⟨r, hanswers⟩ := h.earlier n hearlier
    exact hanswers.countP
  · obtain ⟨hidle, houtbox⟩ := hdone.resolve_left hearlier
    obtain rfl : n = net.popped - 1 := by omega
    have hcurrent := h.current
    unfold CurrentReply at hcurrent
    rw [hidle, houtbox, List.append_nil] at hcurrent
    rcases hcurrent with ⟨hzero, -⟩ | ⟨-, r, hanswers⟩
    · omega
    · exact hanswers.countP

/-! ## Descriptors -/

/-- The descriptor is that of the connection, or of none. -/
def Reaches (net : Network) (fd : Int) (c : Nat) : Prop :=
  net.owner fd = none ∨ net.owner fd = some ⟨c, false⟩

/-- Outstanding requests and messages about to be sent go to the connection that the
request was read from, or to none. -/
structure Routing (net : Network) : Prop where
  requests : Tagged (fun r c => Reaches net r.fd c) net
  outbox : ∀ m ∈ net.outbox, Reaches net m.fd net.origins.worker
  delivered : ∀ d ∈ net.delivered, d.receiver = none ∨ d.receiver = some ⟨d.origin, false⟩

theorem routing_init (now : Int) : Routing (Network.init now) where
  requests := tagged_init _ now
  outbox m h := by cases h
  delivered d h := by cases h

/-- A step that gives out no descriptor in use takes none away from its connection
but by closing it. -/
theorem StepSpec.reaches {net net' : Network} {e : NetworkEvent} (h : StepSpec net e net')
    (hfresh : freshDescriptor net e = true) {fd : Int}
    (hused : (∃ r ∈ net.outstanding, r.fd = fd) ∨ ∃ m ∈ net.outbox, m.fd = fd) {c : Nat}
    (hreaches : Reaches net fd c) : Reaches net' fd c := by
  have hnot : ∀ fd', (net.outstanding.all (·.fd ≠ fd') && net.outbox.all (·.fd ≠ fd')) = true →
      fd ≠ fd' := by
    intro fd' hall heq
    simp only [Bool.and_eq_true, List.all_eq_true, decide_eq_true_eq] at hall
    rcases hused with ⟨r, hr, hfd⟩ | ⟨m, hm, hfd⟩
    · exact hall.1 r hr (hfd.trans heq)
    · exact hall.2 m hm (hfd.trans heq)
  have hclosed : ∀ fd', Function.update net.owner fd' none fd = none ∨
      Function.update net.owner fd' none fd = some ⟨c, false⟩ := by
    intro fd'
    by_cases heq : fd = fd'
    · left
      rw [heq, Function.update_self]
    · rw [Function.update_of_ne heq]
      exact hreaches
  unfold Reaches
  cases h with
  | accept fd' hpos hfree =>
      show Function.update net.owner fd' _ fd = none ∨ Function.update net.owner fd' _ fd = _
      rw [Function.update_of_ne (hnot fd' hfresh)]
      exact hreaches
  | acceptAdmin fd' hadmin hpos hfree =>
      show Function.update net.owner fd' _ fd = none ∨ Function.update net.owner fd' _ fd = _
      rw [Function.update_of_ne (hnot fd' hfresh)]
      exact hreaches
  | bye now fd' addr clientId payload connection howner message => exact hclosed fd'
  | hangup fd' connection howner => exact hclosed fd'
  | hangupAdmin fd' hadmin => exact hclosed fd'
  -- no other step opens or closes a descriptor
  | _ => exact hreaches

/-- What a step leaves to be sent was to be sent before, or belongs to the request
that the worker is at. -/
theorem StepSpec.outbox {net net' : Network} {e : NetworkEvent} (h : StepSpec net e net')
    (hreply : Replying net) : ∀ m ∈ net'.outbox,
      (m ∈ net.outbox ∨ ∃ r, net.server.worker.request = some r ∧ m.fd = r.fd) ∧
        net'.origins.worker = net.origins.worker := by
  intro m hm
  cases h with
  | handle env r state h' hworker hhandle =>
      refine ⟨?_, rfl⟩
      rcases List.mem_append.mp hm with hm | hm
      · exact Or.inl hm
      · have haddressed := (handleRequest_answers hhandle).addressed m (List.mem_append_left _ hm)
        exact Or.inr ⟨r, by rw [hworker]; rfl, haddressed.1⟩
  | finish now elapsed r h' hworker houtbox =>
      have hcurrent := hreply.current
      unfold CurrentReply at hcurrent
      rw [hworker] at hcurrent
      have haddressed := hcurrent.2.2.addressed m (List.mem_append_right _ hm)
      exact ⟨Or.inr ⟨r, by rw [hworker]; rfl, haddressed.1⟩, rfl⟩
  | transmit first rest houtbox => exact ⟨Or.inl (houtbox ▸ List.mem_cons_of_mem first hm), rfl⟩
  | pop r rest hworker hqueue houtbox =>
      rw [show net.outbox = [] from houtbox] at hm
      cases hm
  | _ => exact ⟨Or.inl hm, rfl⟩

/-- Only the worker delivers, and to whoever has the descriptor. -/
theorem StepSpec.delivered {net net' : Network} {e : NetworkEvent} (h : StepSpec net e net') :
    ∀ d ∈ net'.delivered, d ∈ net.delivered ∨
      ∃ m ∈ net.outbox, d.receiver = net.owner m.fd ∧ d.origin = net.origins.worker := by
  intro d hd
  cases h with
  | transmit m rest houtbox =>
      rcases List.mem_append.mp hd with hd | hd
      · exact Or.inl hd
      · obtain rfl := List.mem_singleton.mp hd
        exact Or.inr ⟨m, houtbox ▸ List.mem_cons_self, rfl, rfl⟩
  | _ => exact Or.inl hd

theorem Routing.step {net net' : Network} {e : NetworkEvent} (h : Routing net)
    (hreply : Replying net) (hstep : StepSpec net e net')
    (hfresh : freshDescriptor net e = true) : Routing net' := by
  refine ⟨h.requests.step hstep (fun r hr c hreaches => ?_) ?_, fun m hm => ?_, fun d hd => ?_⟩
  · exact hstep.reaches hfresh (Or.inl ⟨r, hr, rfl⟩) hreaches
  · rintro now fd addr clientId opId payload c rfl howner hregistered hop
    rw [(receiveRequest_fd now fd clientId opId payload _).1]
    have hkept : net'.owner = net.owner := by
      cases hstep with
      | connect => exact absurd rfl hop.1
      | bye => exact absurd rfl hop.2
      | reject => rfl
      | query => rfl
      | receive => rfl
    exact Or.inr (by rw [hkept, howner])
  · obtain ⟨hold, horigin⟩ := hstep.outbox hreply m hm
    rw [horigin]
    rcases hold with hold | ⟨r, hworker, hfd⟩
    · exact hstep.reaches hfresh (Or.inr ⟨m, hold, rfl⟩) (h.outbox m hold)
    · rw [hfd]
      exact hstep.reaches hfresh (Or.inl ⟨r, mem_outstanding_of_worker hworker, rfl⟩)
        (h.requests.worker r hworker)
  · rcases hstep.delivered d hd with hold | ⟨m, hm, hreceiver, horigin⟩
    · exact h.delivered d hold
    · rw [hreceiver, horigin]
      exact h.outbox m hm

/-- In every run in which no descriptor is given out that an outstanding request or
an unsent message carries: every message of the worker reaches the connection that
its request was read from, or none, and every request popped gets exactly one
terminal reply. -/
theorem repliesRouted {now : Int} {events : List NetworkEvent}
    (hfresh : EveryStep NetworkEvent.step (fun net e => freshDescriptor net e = true)
      (Network.init now) events) :
    Throughout NetworkEvent.step RepliesRouted (Network.init now) events := by
  have hkept : ∀ net e net', Replying net ∧ Routing net → freshDescriptor net e = true →
      NetworkEvent.step net e = some net' → Replying net' ∧ Routing net' := by
    rintro net e net' ⟨hreply, hrouting⟩ hfresh hstep
    have hspec := NetworkEvent.step_spec hstep
    exact ⟨hreply.step hspec, hrouting.step hreply hspec hfresh⟩
  have hall := throughout_of_everyStep hkept ⟨replying_init now, routing_init now⟩ hfresh
  intro done rest net hops hrun
  obtain ⟨hreply, hrouting⟩ := hall done rest net hops hrun
  exact ⟨hrouting.delivered, fun n hn hdone => hreply.answered hn hdone, hreply.once⟩

/-! ### A descriptor with an outstanding request, and one without -/

/-- Two clients; the second gets the descriptor of the first, whose request has been
answered. -/
def answeredEvents : List NetworkEvent :=
  [.accept 7, .message 0 7 (lit "10.0.0.1") 0 opConnect [],
    .message 1 7 (lit "10.0.0.1") 1 opGenerateSql [], .push, .pop, .begin 2, .handle quietEnv,
    .finish 3 1, .transmit, .hangup 7, .accept 7]

theorem answeredEvents_routed :
    Throughout NetworkEvent.step RepliesRouted (Network.init 0) answeredEvents :=
  repliesRouted (by decide +kernel)

/-- The first client hangs up while its request is in the queue. -/
def reusedDescriptor : List NetworkEvent :=
  [.accept 7, .message 0 7 (lit "10.0.0.1") 0 opConnect [],
    .message 1 7 (lit "10.0.0.1") 1 opGenerateSql [], .push, .hangup 7, .accept 7, .pop, .begin 2,
    .handle quietEnv, .finish 3 1, .transmit]

/-- The reply to the request of connection 0 is delivered to connection 1. -/
theorem reusedDescriptor_misrouted :
    ∃ net, network (Network.init 0) reusedDescriptor = some net ∧
      net.delivered.map (fun d => (d.request, d.origin, d.receiver)) =
        [(0, 0, some ⟨1, false⟩)] ∧ ¬ RepliesRouted net := by
  have hfacts : (network (Network.init 0) reusedDescriptor).map (fun net =>
      net.delivered.map fun d => (d.request, d.origin, d.receiver)) =
        some [(0, 0, some ⟨1, false⟩)] := by
    decide +kernel
  obtain ⟨net, hrun, hdelivered⟩ := Option.map_eq_some_iff.mp hfacts
  refine ⟨net, hrun, hdelivered, fun hrouted => ?_⟩
  have hmem : ((0, 0, some ⟨1, false⟩) : Nat × Nat × Option Connection) ∈
      net.delivered.map fun d => (d.request, d.origin, d.receiver) := by
    rw [hdelivered]
    exact List.mem_singleton.mpr rfl
  obtain ⟨d, hd, heq⟩ := List.mem_map.mp hmem
  simp only [Prod.mk.injEq] at heq
  obtain ⟨-, horigin, hreceiver⟩ := heq
  rcases hrouted.routed d hd with hnone | hsome
  · rw [hreceiver] at hnone
    cases hnone
  · rw [hreceiver, horigin] at hsome
    simp at hsome

end SqlCodeGenerator
