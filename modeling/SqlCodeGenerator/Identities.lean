import SqlCodeGenerator.Registrations

/-!
# Identities

A message names its client in the header, and `ordinary_interface_main` checks the
name against the table of all clients, not against the connection it reads from.

* `connections_actAsThemselves`: as long as every message carries an identifier of its own
  connection, nothing is done on any connection in the name of another.
* `otherIdentity_acts`: a connection that has sent no `OP_CONNECT` queues an
  operation and reads a job of a client of another connection.
-/

namespace SqlCodeGenerator

open Library

/-! ## What is to hold -/

def Act.connection : Act → Nat
  | queued connection _ _ => connection
  | answered connection _ _ => connection
  | processed connection _ _ => connection

def Act.clientId : Act → UInt32
  | queued _ clientId _ => clientId
  | answered _ clientId _ => clientId
  | processed _ clientId _ => clientId

/-- All that was queued, answered with the record of a job or performed was so under
an identifier that `OP_CONNECT` gave to that connection and to no other, and the job
was created for a request of that connection and of no other. -/
structure ActsAsItself (net : Network) : Prop where
  own : ∀ act ∈ net.acts, (act.clientId, act.connection) ∈ net.assigned
  others : ∀ act ∈ net.acts, ∀ c, (act.clientId, c) ∈ net.assigned → c = act.connection
  jobs : ∀ c id jobId, .answered c id jobId ∈ net.acts →
    (jobId, c) ∈ net.created ∧ ∀ c', (jobId, c') ∈ net.created → c' = c

/-- A connection that has no identifier gets every message but `OP_CONNECT` and
`OP_BYE` rejected, and nothing else happens. -/
def RejectsUnconnected (net : Network) (e : NetworkEvent) : Prop :=
  ∀ now fd addr clientId opId payload c net',
    e = .message now fd addr clientId opId payload → net.owner fd = some ⟨c, false⟩ →
    (∀ id, (id, c) ∉ net.assigned) → opId ≠ opConnect → opId ≠ opBye →
    e.step net = some net' → net' = net.reject fd clientId c

/-- A message under a registered identifier carries one of its own connection. -/
def speaksAsItself (net : Network) : NetworkEvent → Bool
  | .message _ fd _ clientId opId _ =>
      match net.owner fd with
      | some ⟨c, false⟩ =>
          opId = opConnect || opId = opBye || !isRegisteredClient net.server.shared clientId ||
            (clientId, c) ∈ net.assigned
      | _ => true
  | _ => true

theorem speaksAsItself_message {net : Network} {now fd : Int} {addr : CString}
    {clientId opId : UInt32} {payload : List UInt8} {c : Nat}
    (h : speaksAsItself net (.message now fd addr clientId opId payload) = true)
    (howner : net.owner fd = some ⟨c, false⟩) (hop : opId ≠ opConnect ∧ opId ≠ opBye)
    (hregistered : isRegisteredClient net.server.shared clientId = true) :
    (clientId, c) ∈ net.assigned := by
  simpa [speaksAsItself, howner, hop.1, hop.2, hregistered] using h

/-! ## What steps add -/

/-- Nothing is taken back that was given. -/
theorem StepSpec.assigned_mono {net net' : Network} {e : NetworkEvent} (h : StepSpec net e net') :
    ∀ entry ∈ net.assigned, entry ∈ net'.assigned := by
  intro entry hmem
  cases h.connections with
  | quiet howner haccepted hadmin hassigned hnotices hclients hconnect => exact hassigned ▸ hmem
  | opens fd admin hpos hfree howner haccepted hadmin hassigned hnotices hclients hconnect =>
      exact hassigned ▸ hmem
  | closes fd hopen howner haccepted hassigned hnotices hclients hconnect =>
      exact hassigned ▸ hmem
  | connects now fd addr c hopen hmax howner haccepted hadmin hassigned hnotices hclients
      hconnect =>
      rw [hassigned]
      exact List.mem_cons_of_mem _ hmem
  | disconnects clientId hfd howner haccepted hadmin hassigned hnotices hclients hconnect =>
      exact hassigned ▸ hmem

/-- An act of a step that is its last. -/
inductive NewAct (net : Network) (e : NetworkEvent) : Act → Prop where
  | queued (now fd : Int) (addr : CString) (clientId opId : UInt32) (payload : List UInt8)
      (c : Nat) (he : e = .message now fd addr clientId opId payload)
      (howner : net.owner fd = some ⟨c, false⟩)
      (hregistered : isRegisteredClient net.server.shared clientId = true)
      (hop : opId ≠ opConnect ∧ opId ≠ opBye) : NewAct net e (.queued c clientId opId)
  | answered (now fd : Int) (addr : CString) (clientId opId : UInt32) (payload : List UInt8)
      (c : Nat) (job : JobInfo) (he : e = .message now fd addr clientId opId payload)
      (howner : net.owner fd = some ⟨c, false⟩)
      (hregistered : isRegisteredClient net.server.shared clientId = true)
      (hop : opId ≠ opConnect ∧ opId ≠ opBye)
      (hjob : jobQueried net.server.shared clientId (received payload) = .ok job) :
      NewAct net e (.answered c clientId job.jobId)
  | processed (r : Request) (hworker : net.server.worker.request = some r) :
      NewAct net e (.processed net.origins.worker r.clientId r.opId)

theorem StepSpec.acts {net net' : Network} {e : NetworkEvent} (h : StepSpec net e net') :
    ∀ act ∈ net'.acts, act ∈ net.acts ∨ NewAct net e act := by
  intro act hact
  cases h with
  | query now fd addr clientId opId payload connection howner hregistered hop =>
      rcases List.mem_append.mp hact with hact | hact
      · exact Or.inl hact
      · have hother : opId ≠ opConnect ∧ opId ≠ opBye := by
          rcases hop with rfl | rfl
          · exact ⟨by decide, by decide⟩
          · exact ⟨by decide, by decide⟩
        cases hjob : jobQueried net.server.shared clientId (received payload) with
        | error text => simp [hjob] at hact
        | ok job =>
            simp only [hjob, List.mem_singleton] at hact
            subst hact
            exact Or.inr (.answered now fd addr clientId opId payload connection job rfl howner
              hregistered hother hjob)
  | receive now fd addr clientId opId payload connection howner hpending hregistered hop =>
      rcases List.mem_append.mp hact with hact | hact
      · exact Or.inl hact
      · obtain rfl := List.mem_singleton.mp hact
        exact Or.inr (.queued now fd addr clientId opId payload connection rfl howner
          hregistered hop)
  | handle env r state h' hworker hhandle =>
      rcases List.mem_append.mp hact with hact | hact
      · exact Or.inl hact
      · obtain rfl := List.mem_singleton.mp hact
        exact Or.inr (.processed r (by rw [hworker]; rfl))
  | _ => exact Or.inl hact

/-- The records are kept, or a job is created for a request of a connection. -/
theorem StepSpec.records {net net' : Network} {e : NetworkEvent} (h : StepSpec net e net') :
    (KeepsRecords net.server.shared net'.server.shared ∧ net'.created = net.created) ∨
      ∃ now fd addr clientId opId payload c,
        e = .message now fd addr clientId opId payload ∧ net.owner fd = some ⟨c, false⟩ ∧
        isRegisteredClient net.server.shared clientId = true ∧
        (opId ≠ opConnect ∧ opId ≠ opBye) ∧
        net'.server.shared = (jobCreate now clientId opId net.server.shared).2 ∧
        net'.created = (net.server.shared.nextJobId, c) :: net.created := by
  cases h with
  | receive now fd addr clientId opId payload connection howner hpending hregistered hop =>
      cases hprocessing : isProcessingOp opId with
      | true =>
          refine Or.inr ⟨now, fd, addr, clientId, opId, payload, connection, rfl, howner,
            hregistered, hop, ?_, by simp⟩
          simp only [receiveRequest, hprocessing, if_true]
      | false =>
          refine Or.inl ⟨?_, by simp⟩
          simp only [receiveRequest, hprocessing, Bool.false_eq_true, if_false]
          exact .of_eq rfl rfl rfl
  | connect now fd addr clientId payload connection howner hmax message =>
      exact Or.inl ⟨keepsRecords_connectClient now fd addr _, rfl⟩
  | bye now fd addr clientId payload connection howner message =>
      exact Or.inl ⟨keepsRecords_clientRemoveFd fd _, rfl⟩
  | hangup fd connection howner => exact Or.inl ⟨keepsRecords_clientRemoveFd fd _, rfl⟩
  | hangupAdmin fd hadmin =>
      have hclosed := keepsRecords_clientRemoveFd fd net.server.shared
      exact Or.inl ⟨hclosed.trans (.of_eq rfl rfl rfl), rfl⟩
  | adminCancel clientId => exact Or.inl ⟨keepsRecords_adminCancel clientId _, rfl⟩
  | begin now r hworker => exact Or.inl ⟨keepsRecords_beginRequest now r _, rfl⟩
  | handle env r state h' hworker hhandle =>
      exact Or.inl ⟨keepsRecords_handleRequest hhandle, rfl⟩
  | finish now elapsed r h' hworker houtbox =>
      exact Or.inl ⟨keepsRecords_finishRequest now elapsed r h' _, rfl⟩
  -- no other step writes to a record
  | _ => exact Or.inl ⟨.of_eq rfl rfl rfl, rfl⟩

/-! ## The invariant -/

/-- Every record is of a job that was created for a request of the connection of its
client, and every number was given out once. -/
structure JobsOwned (net : Network) : Prop where
  records : ∀ slot, (net.server.shared.jobs.get slot).jobId = 0 ∨ ∃ id c,
    (net.server.shared.jobs.get slot).clientId = toInt id ∧ (id, c) ∈ net.assigned ∧
      ((net.server.shared.jobs.get slot).jobId, c) ∈ net.created
  numbers : ∀ jobId c, (jobId, c) ∈ net.created → jobId < net.server.shared.nextJobId
  once : ∀ jobId c c', (jobId, c) ∈ net.created → (jobId, c') ∈ net.created → c = c'

/-- What is done, what is outstanding and what is recorded is of connections that
speak as themselves. -/
structure Identified (net : Network) : Prop where
  sound : net.Sound
  acts : ∀ act ∈ net.acts, (act.clientId, act.connection) ∈ net.assigned
  requests : Tagged (fun r c => (r.clientId, c) ∈ net.assigned) net
  jobs : JobsOwned net
  answered : ∀ c id jobId, .answered c id jobId ∈ net.acts → (jobId, c) ∈ net.created

theorem Identified.actsAsItself {net : Network} (h : Identified net) : ActsAsItself net where
  own := h.acts
  others act hact c hassigned := h.sound.once act.clientId c act.connection hassigned
    (h.acts act hact)
  jobs c id jobId hact :=
    ⟨h.answered c id jobId hact, fun c' hc' =>
      h.jobs.once jobId c' c hc' (h.answered c id jobId hact)⟩

theorem identified_init (now : Int) : Identified (Network.init now) where
  sound := sound_init now
  acts act h := by cases h
  requests := tagged_init _ now
  jobs := by
    refine ⟨fun slot => Or.inl ?_, fun jobId c h => (by cases h), fun jobId c c' h => (by cases h)⟩
    show ((FixedArray.replicate maxJobs JobInfo.zero).get slot).jobId = 0
    rw [FixedArray.get_replicate]
    rfl
  answered c id jobId h := by cases h

/-- A job is created for a client of its own connection. -/
theorem JobsOwned.step {net net' : Network} {e : NetworkEvent} (h : JobsOwned net)
    (hstep : StepSpec net e net') (hspeaks : speaksAsItself net e = true) : JobsOwned net' := by
  have hmono := hstep.assigned_mono
  rcases hstep.records with ⟨hkeeps, hcreated⟩ |
    ⟨now, fd, addr, clientId, opId, payload, c, rfl, howner, hregistered, hop, hshared, hcreated⟩
  · refine ⟨fun slot => ?_, ?_, ?_⟩
    · obtain ⟨hnumber, hclient⟩ := hkeeps.records slot
      rw [hnumber, hclient, hcreated]
      rcases h.records slot with hzero | ⟨id, c, hid, hassigned, hmem⟩
      · exact Or.inl hzero
      · exact Or.inr ⟨id, c, hid, hmono _ hassigned, hmem⟩
    · rw [hcreated, hkeeps.next]
      exact h.numbers
    · rw [hcreated]
      exact h.once
  · have hassigned : (clientId, c) ∈ net.assigned :=
      speaksAsItself_message hspeaks howner hop hregistered
    have hnext : net'.server.shared.nextJobId = net.server.shared.nextJobId + 1 := by
      rw [hshared]
      rfl
    refine ⟨fun slot => ?_, fun jobId c' hmem => ?_, fun jobId c₁ c₂ h₁ h₂ => ?_⟩
    · rw [hshared, hcreated]
      simp only [jobCreate, FixedArray.get_set]
      split
      · exact Or.inr ⟨clientId, c, rfl, hmono _ hassigned, List.mem_cons_self⟩
      · rcases h.records slot with hzero | ⟨id, c', hid, hassigned', hmem⟩
        · exact Or.inl hzero
        · exact Or.inr ⟨id, c', hid, hmono _ hassigned', List.mem_cons_of_mem _ hmem⟩
    · rw [hcreated] at hmem
      rcases List.mem_cons.mp hmem with heq | hmem
      · obtain ⟨rfl, -⟩ := Prod.mk.inj heq
        omega
      · have hlt := h.numbers jobId c' hmem
        omega
    · -- the new number is larger than all others
      rw [hcreated] at h₁ h₂
      rcases List.mem_cons.mp h₁ with heq₁ | h₁ <;> rcases List.mem_cons.mp h₂ with heq₂ | h₂
      · rw [(Prod.mk.inj heq₁).2, (Prod.mk.inj heq₂).2]
      · have hlt := h.numbers jobId c₂ h₂
        have hnew := (Prod.mk.inj heq₁).1
        omega
      · have hlt := h.numbers jobId c₁ h₁
        have hnew := (Prod.mk.inj heq₂).1
        omega
      · exact h.once jobId c₁ c₂ h₁ h₂

/-- Jobs once created stay so. -/
theorem StepSpec.created_mono {net net' : Network} {e : NetworkEvent} (h : StepSpec net e net') :
    ∀ entry ∈ net.created, entry ∈ net'.created := by
  intro entry hmem
  rcases h.records with ⟨-, hcreated⟩ | ⟨_, _, _, _, _, _, _, -, -, -, -, -, hcreated⟩
  · exact hcreated ▸ hmem
  · rw [hcreated]
    exact List.mem_cons_of_mem _ hmem

/-- A new act is done under an identifier of its connection. -/
theorem NewAct.own {net : Network} {e : NetworkEvent} {act : Act} (h : NewAct net e act)
    (hnet : Identified net) (hspeaks : speaksAsItself net e = true) :
    (act.clientId, act.connection) ∈ net.assigned := by
  cases h with
  | queued now fd addr clientId opId payload c he howner hregistered hop =>
      subst he
      exact speaksAsItself_message hspeaks howner hop hregistered
  | answered now fd addr clientId opId payload c job he howner hregistered hop hjob =>
      subst he
      exact speaksAsItself_message hspeaks howner hop hregistered
  | processed r hworker => exact hnet.requests.worker r hworker

/-- The job of an answer was created for a request of the connection that asks. -/
theorem NewAct.created {net : Network} {e : NetworkEvent} {c jobId : Nat} {id : UInt32}
    (h : NewAct net e (.answered c id jobId)) (hnet : Identified net)
    (hspeaks : speaksAsItself net e = true) : (jobId, c) ∈ net.created := by
  have hown := h.own hnet hspeaks
  cases h with
  | answered now fd addr clientId opId payload c job he howner hregistered hop hjob =>
      obtain ⟨hclient, hpos, slot, rfl⟩ := jobQueried_own hjob
      rcases hnet.jobs.records slot with hzero | ⟨id', c', hid, hassigned, hmem⟩
      · omega
      · obtain rfl : id' = id := toInt_inj (hid.symm.trans hclient)
        obtain rfl : c' = c := hnet.sound.once id' c' c hassigned hown
        exact hmem

theorem Identified.step {net net' : Network} {e : NetworkEvent} (h : Identified net)
    (hspeaks : speaksAsItself net e = true) (hstep : e.step net = some net') :
    Identified net' := by
  have hspec := NetworkEvent.step_spec hstep
  have hmono := hspec.assigned_mono
  refine ⟨h.sound.step hstep, fun act hact => ?_, ?_, h.jobs.step hspec hspeaks,
    fun c id jobId hact => ?_⟩
  · rcases hspec.acts act hact with hold | hnew
    · exact hmono _ (h.acts act hold)
    · exact hmono _ (hnew.own h hspeaks)
  · refine h.requests.step hspec (fun r _ c hassigned => hmono _ hassigned) ?_
    rintro now fd addr clientId opId payload c rfl howner hregistered hop
    rw [(receiveRequest_fd now fd clientId opId payload _).2]
    exact hmono _ (speaksAsItself_message hspeaks howner hop hregistered)
  · rcases hspec.acts _ hact with hold | hnew
    · exact hspec.created_mono _ (h.answered c id jobId hold)
    · exact hspec.created_mono _ (hnew.created h hspeaks)

/-- A message on a connection without an identifier is rejected. -/
theorem rejectsUnconnected_of_speaks {net : Network} {e : NetworkEvent}
    (hspeaks : speaksAsItself net e = true) : RejectsUnconnected net e := by
  rintro now fd addr clientId opId payload c net' rfl howner hnone hconnect hbye hstep
  have hunknown : isRegisteredClient net.server.shared clientId = false := by
    by_contra hregistered
    rw [Bool.not_eq_false] at hregistered
    exact hnone clientId (speaksAsItself_message hspeaks howner ⟨hconnect, hbye⟩ hregistered)
  simp only [NetworkEvent.step, howner] at hstep
  split at hstep
  · simp only [Network.message, if_neg hconnect, if_neg hbye, hunknown, Bool.not_false, if_true,
      Option.some.injEq] at hstep
    exact hstep.symm
  · cases hstep

/-- In every run whose messages all carry identifiers of their own connections:
nothing is done on a connection in the name of a client of another, no job of another
connection is shown, and a connection that has sent no `OP_CONNECT` is rejected. -/
theorem connections_actAsThemselves {now : Int} {events : List NetworkEvent}
    (hspeak : EveryStep NetworkEvent.step (fun net e => speaksAsItself net e = true)
      (Network.init now) events) :
    Throughout NetworkEvent.step ActsAsItself (Network.init now) events ∧
      EveryStep NetworkEvent.step RejectsUnconnected (Network.init now) events := by
  have hkept : ∀ (net : Network) e net', Identified net → speaksAsItself net e = true →
      NetworkEvent.step net e = some net' → Identified net' :=
    fun _ _ _ h hspeaks hstep => h.step hspeaks hstep
  have hidentified := throughout_of_everyStep hkept (identified_init now) hspeak
  refine ⟨fun done rest net hops hrun => (hidentified done rest net hops hrun).actsAsItself, ?_⟩
  rw [everyStep_iff] at hspeak ⊢
  intro done e rest net hops hrun
  exact rejectsUnconnected_of_speaks (hspeak done e rest net hops hrun)

/-! ### Two connections -/

/-- Two clients connect; the first has a job and asks for its result, and so does a
connection that has not connected. -/
def honestEvents : List NetworkEvent :=
  [.accept 7, .message 0 7 (lit "10.0.0.1") 0 opConnect [], .accept 8,
    .message 1 7 (lit "10.0.0.1") 1 opGenerateSql [], .push,
    .message 2 7 (lit "10.0.0.1") 1 opJobResult [],
    .message 3 8 (lit "10.0.0.2") 2 opJobResult [],
    .message 4 8 (lit "10.0.0.2") 0 opConnect [], .pop, .begin 5]

theorem honestEvents_own :
    Throughout NetworkEvent.step ActsAsItself (Network.init 0) honestEvents ∧
      EveryStep NetworkEvent.step RejectsUnconnected (Network.init 0) honestEvents :=
  connections_actAsThemselves (by decide +kernel)

/-- The second connection has sent no `OP_CONNECT`, and carries the identifier of the
first: it asks for the result of its job, and queues an operation on its upload
file. -/
def otherIdentity : List NetworkEvent :=
  [.accept 7, .message 0 7 (lit "10.0.0.1") 0 opConnect [], .accept 8,
    .message 1 7 (lit "10.0.0.1") 1 opGenerateSql [], .push,
    .message 2 8 (lit "10.0.0.2") 1 opJobResult [],
    .message 3 8 (lit "10.0.0.2") 1 opUploadBegin []]

theorem otherIdentity_acts :
    ∃ net, network (Network.init 0) otherIdentity = some net ∧ net.assigned = [(1, 0)] ∧
      net.acts = [.queued 0 1 opGenerateSql, .answered 1 1 1, .queued 1 1 opUploadBegin] ∧
      net.created = [(1, 0)] ∧ ¬ ActsAsItself net := by
  have hfacts : (network (Network.init 0) otherIdentity).map (fun net =>
      decide (net.assigned = [(1, 0)] ∧
        net.acts = [.queued 0 1 opGenerateSql, .answered 1 1 1, .queued 1 1 opUploadBegin] ∧
        net.created = [(1, 0)])) = some true := by
    decide +kernel
  obtain ⟨net, hrun, hnet⟩ := Option.map_eq_some_iff.mp hfacts
  obtain ⟨hassigned, hacts, hcreated⟩ := of_decide_eq_true hnet
  refine ⟨net, hrun, hassigned, hacts, hcreated, fun hown => ?_⟩
  have hmem : Act.queued 1 1 opUploadBegin ∈ net.acts := by simp [hacts]
  have hother := hown.own _ hmem
  rw [hassigned] at hother
  simp [Act.connection] at hother

end SqlCodeGenerator
