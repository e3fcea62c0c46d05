import SqlCodeGenerator.Connections
import SqlCodeGenerator.DdlDelivery
import SqlCodeGenerator.JobQueries

/-!
# The server with its files

`upload_path`, `append_upload_chunk` and the files that `process_request` writes:
a server beside a disk on which every operation succeeds.  What its worker is
answered by the system then follows from the disk.

* `Host`: the server, its disk, and what has been reported for each request.
* `sequentially`: the same functions, applied to one request after the other.
-/

namespace SqlCodeGenerator

open Library

/-! ## The files -/

/-- What each path names. -/
abbrev Disk := CString → Option (List UInt8)

namespace Disk

def write (disk : Disk) (path : CString) (data : List UInt8) : Disk :=
  fun other => if other = path then some data else disk other

end Disk

/-- `upload_path`. -/
def uploadPath (clientId : UInt32) : CString :=
  cut 128 (lit "data/upload_" ++ decimal clientId.toNat ++ lit ".schema.json")

/-- The path in `send_generated_sql_file`. -/
def generatedPath (clientId : UInt32) : CString :=
  cut 128 (lit "data/generated_" ++ decimal clientId.toNat ++ lit ".sql")

/-- The text that `send_generated_sql_file` writes. -/
def generatedSql (tables : Tables) : List UInt8 :=
  (generateSql tables responseSize).map Subtype.val

/-- The disk after the operation of a request. -/
def Disk.after (disk : Disk) (r : Request) (state : SharedState) : Disk :=
  if state.cancelClientId = toInt r.clientId then
    disk
  else if r.opId = opUploadBegin then
    disk.write (uploadPath r.clientId) []
  else if r.opId = opUploadChunk then
    disk.write (uploadPath r.clientId)
      ((disk (uploadPath r.clientId)).getD [] ++ (r.payload.getD []).take r.payloadSize)
  else if r.opId = opDownloadSql then
    disk.write (generatedPath r.clientId) (generatedSql state.tables)
  else
    disk

/-- A path that names no file. -/
def ErFile.missing : ErFile := ⟨false, false, .ok 0, false, false, []⟩

/-- The two libraries that read texts. -/
structure Parsers where
  cjsonParse : List UInt8 → Option CJson
  pgQueryParse : CString → Option CString

/-- What a request is answered when every call succeeds; `rounds` are those in which
a download reads its file back. -/
def Parsers.env (p : Parsers) (disk : Disk) (r : Request) (rounds : List ReadRound) :
    RequestEnv where
  createUpload := .ok ()
  openUpload := .ok ()
  writeUpload := .ok ()
  uploadFile :=
    match disk (uploadPath r.clientId) with
    | none => .missing
    | some data => .holding data
  cjsonParse := p.cjsonParse
  download := ⟨.ok (), .ok (), .ok (), true, rounds, true⟩
  child := ⟨true, true, true, true, p.pgQueryParse⟩
  pgQueryParse := p.pgQueryParse

instance ReadRound.decidableSucceeds : DecidablePred ReadRound.Succeeds
  | .interrupted => isTrue trivial
  | .failed _ => isFalse id
  | .bytes _ sent => inferInstanceAs (Decidable (sent = true))

/-- If the request is a download that is not cancelled, it reads the file it wrote. -/
def ReadsGenerated (state : SharedState) (r : Request) (rounds : List ReadRound) : Prop :=
  state.cancelClientId ≠ toInt r.clientId → r.opId = opDownloadSql →
    (∀ round ∈ rounds, round.Succeeds) ∧
      rounds.flatMap ReadRound.data = generatedSql state.tables

instance decidableReadsGenerated (state : SharedState) (r : Request) (rounds : List ReadRound) :
    Decidable (ReadsGenerated state r rounds) :=
  inferInstanceAs (Decidable (_ → _))

/-! ## The host -/

/-- What a request is reported to have come to. -/
structure JobOutcome where
  jobId : Nat
  status : JobStatus
  response : CString
  deriving DecidableEq

def Handled.outcome (h : Handled) (r : Request) : JobOutcome := ⟨r.jobId, h.status, h.response⟩

/-- A server with its disk, and what it has reported, in order. -/
structure Host where
  server : Server
  disk : Disk
  outcomes : List JobOutcome

/-- A step of a host on which every operation on files and sockets succeeds. -/
inductive HostEvent where
  | interface (e : InterfaceEvent)
  | pop
  | begin (now : Int)
  | handle (rounds : List ReadRound)
  | finish (now elapsed : Int)

/-- A step of the server that touches no file. -/
def Host.serverStep (host : Host) (e : Event) : Option Host :=
  (e.step host.server).map fun server => { host with server := server }

def HostEvent.step (p : Parsers) (host : Host) : HostEvent → Option Host
  | .interface e => host.serverStep (.interface e)
  | .pop => host.serverStep .pop
  | .begin now => host.serverStep (.begin now)
  | .handle rounds =>
      match host.server.worker with
      | .begun r =>
          if ReadsGenerated host.server.shared r rounds then
            (host.serverStep (.handle (p.env host.disk r rounds))).map fun host' =>
              { host' with disk := host.disk.after r host.server.shared }
          else
            none
      | _ => none
  | .finish now elapsed =>
      match host.server.worker with
      | .handled r h =>
          (host.serverStep (.finish now elapsed)).map fun host' =>
            { host' with outcomes := host.outcomes ++ [h.outcome r] }
      | _ => none

/-- A request as it arrives, wherever it comes from. -/
structure Arrival where
  clientId : UInt32
  opId : UInt32
  payload : List UInt8
  deriving DecidableEq

/-- The request that a step enqueues. -/
def HostEvent.arrival : HostEvent → Option Arrival
  | .interface (.receive _ _ clientId opId payload) => some ⟨clientId, opId, payload⟩
  | _ => none

/-- Does the admin ask for a cancellation? -/
def HostEvent.cancels : HostEvent → Bool
  | .interface (.cancel _) => true
  | _ => false

section Steps

variable {p : Parsers} {host host' : Host}

/-- A step of the server alone. -/
theorem Host.serverStep_eq_some {event : Event} (h : host.serverStep event = some host') :
    event.step host.server = some host'.server ∧ host'.disk = host.disk := by
  obtain ⟨server, hserver, rfl⟩ := Option.map_eq_some_iff.mp h
  exact ⟨hserver, rfl⟩

/-- Inversion of a step that performs an operation. -/
theorem HostEvent.step_handle {rounds : List ReadRound}
    (h : (HostEvent.handle rounds).step p host = some host') :
    ∃ r state handled, host.server.worker = .begun r ∧
      ReadsGenerated host.server.shared r rounds ∧
      handleRequest (p.env host.disk r rounds) r host.server.shared = some (state, handled) ∧
      host' =
        { host with
          server :=
            { host.server with
              shared := state
              worker := .handled r handled
              replies := host.server.replies ++ handled.messages }
          disk := host.disk.after r host.server.shared } := by
  simp only [step] at h
  split at h
  · next r hworker =>
      split at h
      · next hreads =>
          obtain ⟨middle, hmiddle, rfl⟩ := Option.map_eq_some_iff.mp h
          obtain ⟨server, hserver, rfl⟩ := Option.map_eq_some_iff.mp hmiddle
          simp only [Event.step, hworker] at hserver
          obtain ⟨⟨state, handled⟩, hhandle, rfl⟩ := Option.map_eq_some_iff.mp hserver
          exact ⟨r, state, handled, hworker, hreads, hhandle, rfl⟩
      · cases h
  · cases h

/-- Inversion of a step that ends a request. -/
theorem HostEvent.step_finish {now elapsed : Int}
    (h : (HostEvent.finish now elapsed).step p host = some host') :
    ∃ r handled, host.server.worker = .handled r handled ∧
      host' =
        { host with
          server :=
            { host.server with
              shared := (finishRequest now elapsed r handled host.server.shared).1
              worker := .idle
              replies := host.server.replies ++
                (finishRequest now elapsed r handled host.server.shared).2 }
          outcomes := host.outcomes ++ [handled.outcome r] } := by
  simp only [step] at h
  split at h
  · next r handled hworker =>
      obtain ⟨middle, hmiddle, rfl⟩ := Option.map_eq_some_iff.mp h
      obtain ⟨server, hserver, rfl⟩ := Option.map_eq_some_iff.mp hmiddle
      simp only [Event.step, hworker] at hserver
      obtain rfl := Option.some.inj hserver
      exact ⟨r, handled, hworker, rfl⟩
  · cases h

/-- Every step of a host is a step of its server. -/
theorem HostEvent.step_server {e : HostEvent} (h : e.step p host = some host') :
    ∃ event : Event, event.step host.server = some host'.server := by
  cases e with
  | interface e => exact ⟨_, (Host.serverStep_eq_some h).1⟩
  | pop => exact ⟨_, (Host.serverStep_eq_some h).1⟩
  | begin now => exact ⟨_, (Host.serverStep_eq_some h).1⟩
  | handle rounds =>
      obtain ⟨r, state, handled, hworker, -, hhandle, rfl⟩ := step_handle h
      refine ⟨.handle (p.env host.disk r rounds), ?_⟩
      simp only [Event.step, hworker, hhandle, Option.map_some]
  | finish now elapsed =>
      obtain ⟨r, handled, hworker, rfl⟩ := step_finish h
      refine ⟨.finish now elapsed, ?_⟩
      simp only [Event.step, hworker]

end Steps

/-! ## One request after the other -/

/-- What requests act upon. -/
structure Work where
  shared : SharedState
  disk : Disk
  outcomes : List JobOutcome

def Host.work (host : Host) : Work := ⟨host.server.shared, host.disk, host.outcomes⟩

namespace Work

/-- `process_request` from the label `finish_request` on. -/
def finish (work : Work) (r : Request) (h : Handled) : Work :=
  { work with
    shared := (finishRequest 0 0 r h work.shared).1
    outcomes := work.outcomes ++ [h.outcome r] }

/-- `process_request`, undisturbed.  A download reads its file in one round. -/
def process (p : Parsers) (work : Work) (r : Request) : Option Work :=
  let begun := beginRequest 0 r work.shared
  (handleRequest (p.env work.disk r [.bytes (generatedSql begun.tables) true]) r begun).map
    fun (state, h) => finish ⟨state, work.disk.after r begun, work.outcomes⟩ r h

/-- A request is built and processed before the next one arrives. -/
def receive (p : Parsers) (work : Work) (a : Arrival) : Option Work :=
  let (r, state) := receiveRequest 0 0 a.clientId a.opId a.payload work.shared
  process p { work with shared := state } r

/-- The worker comes to the end of the request it is at. -/
def complete (p : Parsers) (work : Work) : Worker → Option Work
  | .idle => some work
  | .popped r => work.process p r
  | .begun r => work.process p r
  | .handled r h => some (work.finish r h)

end Work

/-- The requests of a host are processed one after the other, then those that
arrive. -/
def sequentially (p : Parsers) (host : Host) (arrivals : List Arrival) : Option Work :=
  (host.work.complete p host.server.worker).bind fun work =>
    (runFrom (Work.process p) work host.server.ahead).bind fun work =>
      runFrom (Work.receive p) work arrivals

end SqlCodeGenerator
