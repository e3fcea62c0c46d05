import SqlCodeGenerator.ArrivalOrder
import SqlCodeGenerator.Decimals
import SqlCodeGenerator.Library.Transfers
import SqlCodeGenerator.RequestEffects

/-!
# Uploads

A client uploads a file by `OP_UPLOAD_BEGIN`, any number of `OP_UPLOAD_CHUNK` and
`OP_UPLOAD_END`, which are requests like all others: those of other clients come in
between, and the admin may cancel any of them.

* `UploadLaw`: at `OP_UPLOAD_END` the file of the client holds the chunks that were
  answered by `OP_OK` since the last beginning that was.
* `uploads_reassembled`: it holds along every run.
-/

namespace SqlCodeGenerator

open Library

/-! ## The names of the files -/

theorem uploadPath_eq (clientId : UInt32) :
    uploadPath clientId =
      lit "data/upload_" ++ decimal clientId.toNat ++ lit ".schema.json" := by
  have hdigits : (decimal clientId.toNat).length ≤ 10 :=
    length_decimal_le (by decide) (Nat.lt_of_lt_of_le clientId.toNat_lt (by decide))
  refine List.take_of_length_le ?_
  rw [List.length_append, List.length_append,
    show (lit "data/upload_").length = 12 from rfl, show (lit ".schema.json").length = 12 from rfl]
  omega

/-- No two clients upload into one file. -/
theorem uploadPath_injective : Function.Injective uploadPath := by
  intro a b h
  rw [uploadPath_eq, uploadPath_eq] at h
  have hdecimal := List.append_cancel_left (List.append_cancel_right h)
  exact UInt32.toNat_inj.mp (decimal_injective hdecimal)

/-- No client uploads into a file that is generated. -/
theorem uploadPath_ne_generatedPath (a b : UInt32) : uploadPath a ≠ generatedPath b := by
  intro h
  have hchar := congrArg (fun path : CString => path[5]?) h
  have hupload : (uploadPath a)[5]? = some (chr 'u') := rfl
  have hgenerated : (generatedPath b)[5]? = some (chr 'g') := rfl
  rw [hupload, hgenerated] at hchar
  exact absurd hchar (by decide)

theorem Disk.write_eq (disk : Disk) (path : CString) (data : List UInt8) :
    disk.write path data = Function.update disk path (some data) := by
  funext other
  rw [Disk.write, Function.update_apply]

/-! ## The law -/

/-- The request that a step handles, with what it comes to. -/
def HostEvent.handles (p : Parsers) (host : Host) : HostEvent → Option (Request × Handled)
  | .handle rounds =>
      match host.server.worker with
      | .begun r =>
          (handleRequest (p.env host.disk r rounds) r host.server.shared).map
            fun (_, h) => (r, h)
      | _ => none
  | _ => none

/-- The chunks of each client that were answered by `OP_OK`, since its last beginning
that was. -/
def recordUpload (p : Parsers) (host : Host) (e : HostEvent) (uploads : Transfers UInt32 UInt8) :
    Transfers UInt32 UInt8 :=
  match e.handles p host with
  | none => uploads
  | some (r, h) =>
      if h.respOp = opOk ∧ r.opId = opUploadBegin then
        uploads.begun r.clientId
      else if h.respOp = opOk ∧ r.opId = opUploadChunk then
        uploads.extend r.clientId (r.payload.getD [])
      else
        uploads

/-- A step of a host beside the uploads. -/
def uploadStep (p : Parsers) : Host × Transfers UInt32 UInt8 → HostEvent →
    Option (Host × Transfers UInt32 UInt8) :=
  withHistory (HostEvent.step p) (recordUpload p)

/-- The file that `OP_UPLOAD_END` loads holds what was uploaded; `load_er_json` reads all
of it, or refuses it for its size and reads nothing. -/
def UploadLaw (p : Parsers) (t : Host × Transfers UInt32 UInt8) (e : HostEvent) : Prop :=
  ∀ rounds r chunks, e = .handle rounds → t.1.server.worker = .begun r →
    r.opId = opUploadEnd → t.1.server.shared.cancelClientId ≠ toInt r.clientId →
    t.2 r.clientId = some chunks →
      (p.env t.1.disk r rounds).uploadFile = .holding chunks.flatten ∧
        readJsonFile (p.env t.1.disk r rounds).uploadFile =
          if chunks.flatten = [] ∨ maxErFileSize < chunks.flatten.length then
            .error (lit "ER file is empty or too large")
          else
            .ok chunks.flatten

/-! ## Steps -/

/-- The files hold what was uploaded, and the size of every payload is its length. -/
structure UploadsStored (t : Host × Transfers UInt32 UInt8) : Prop where
  sizes : ∀ r ∈ t.1.server.unfinished, r.payloadSize = (r.payload.getD []).length
  stored : t.2.Stored uploadPath t.1.disk

theorem Event.step_sizes {s s' : Server} {e : Event}
    (hs : ∀ r ∈ s.unfinished, r.payloadSize = (r.payload.getD []).length)
    (h : e.step s = some s') :
    ∀ r ∈ s'.unfinished, r.payloadSize = (r.payload.getD []).length := by
  refine Event.step_forall_unfinished h (fun now fd clientId opId payload _ => ?_) hs
  rw [receiveRequest_request]
  by_cases hpayload : payload = []
  · rw [hpayload]
    rfl
  · simp only [if_neg hpayload, Option.getD_some]

/-- The operation of a request, as the files and the uploads see it. -/
theorem Transfers.Stored.handled {p : Parsers} {uploads : Transfers UInt32 UInt8} {disk : Disk}
    (hstored : uploads.Stored uploadPath disk) {rounds : List ReadRound} {r : Request}
    (hsize : r.payloadSize = (r.payload.getD []).length) {state state' : SharedState} {h : Handled}
    (hhandle : handleRequest (p.env disk r rounds) r state = some (state', h)) :
    (if h.respOp = opOk ∧ r.opId = opUploadBegin then uploads.begun r.clientId
      else if h.respOp = opOk ∧ r.opId = opUploadChunk then
        uploads.extend r.clientId (r.payload.getD [])
      else uploads).Stored uploadPath (disk.after r state) := by
  unfold Disk.after
  by_cases hcancel : state.cancelClientId = toInt r.clientId
  · -- a cancelled request is answered by an error, and touches no file
    have hrefused : h.respOp ≠ opOk := by
      rw [(handleRequest_cancelled hcancel hhandle).2.2]
      exact (by decide : opError ≠ opOk)
    rw [if_pos hcancel, if_neg fun h => hrefused h.1, if_neg fun h => hrefused h.1]
    exact hstored
  rw [if_neg hcancel]
  unfold handleRequest dispatchRequest at hhandle
  rw [if_neg hcancel] at hhandle
  by_cases hbegin : r.opId = opUploadBegin
  · rw [if_pos hbegin] at hhandle ⊢
    obtain ⟨-, rfl⟩ := Prod.mk.inj (Option.some.inj hhandle)
    rw [if_pos ⟨rfl, hbegin⟩, Disk.write_eq]
    exact hstored.begun uploadPath_injective r.clientId
  rw [if_neg fun h => hbegin h.2, if_neg hbegin]
  rw [if_neg hbegin] at hhandle
  by_cases hchunk : r.opId = opUploadChunk
  · rw [if_pos hchunk] at hhandle ⊢
    obtain ⟨-, rfl⟩ := Prod.mk.inj (Option.some.inj hhandle)
    -- a chunk is answered `OP_OK` whatever it holds
    have hok : (handleUploadChunk (p.env disk r rounds) r state).2.respOp = opOk := by
      unfold handleUploadChunk Parsers.env
      dsimp only
      rw [ite_self]
      rfl
    rw [if_pos ⟨hok, hchunk⟩, Disk.write_eq, hsize, List.take_length]
    exact hstored.extend uploadPath_injective r.clientId (r.payload.getD [])
  rw [if_neg fun h => hchunk h.2, if_neg hchunk]
  split
  · -- the generated file is nobody's upload
    rw [Disk.write_eq]
    exact hstored.other (fun clientId => uploadPath_ne_generatedPath clientId r.clientId) _
  · exact hstored

/-- The event of the server that a step is, and what the step does to the files. -/
theorem HostEvent.step_files {p : Parsers} {host host' : Host} {e : HostEvent}
    (h : e.step p host = some host') :
    (∃ event : Event, event.step host.server = some host'.server) ∧
      (e.handles p host = none ∧ host'.disk = host.disk ∨
        ∃ rounds r state handled, e = .handle rounds ∧ host.server.worker = .begun r ∧
          handleRequest (p.env host.disk r rounds) r host.server.shared = some (state, handled) ∧
          e.handles p host = some (r, handled) ∧
          host'.disk = host.disk.after r host.server.shared) := by
  refine ⟨HostEvent.step_server h, ?_⟩
  cases e with
  | interface e => exact Or.inl ⟨rfl, (Host.serverStep_eq_some h).2⟩
  | pop => exact Or.inl ⟨rfl, (Host.serverStep_eq_some h).2⟩
  | begin now => exact Or.inl ⟨rfl, (Host.serverStep_eq_some h).2⟩
  | handle rounds =>
      obtain ⟨r, state, handled, hworker, -, hhandle, rfl⟩ := step_handle h
      refine Or.inr ⟨rounds, r, state, handled, rfl, hworker, hhandle, ?_, rfl⟩
      simp only [handles, hworker, hhandle, Option.map_some]
  | finish now elapsed =>
      obtain ⟨r, handled, -, rfl⟩ := step_finish h
      exact Or.inl ⟨rfl, rfl⟩

theorem uploadStep_stored {p : Parsers} {t t' : Host × Transfers UInt32 UInt8} {e : HostEvent}
    (ht : UploadsStored t) (h : uploadStep p t e = some t') : UploadsStored t' := by
  obtain ⟨host', hstep, rfl⟩ := Option.map_eq_some_iff.mp h
  obtain ⟨⟨event, hevent⟩, hfiles⟩ := HostEvent.step_files hstep
  refine ⟨Event.step_sizes ht.sizes hevent, ?_⟩
  unfold recordUpload
  rcases hfiles with ⟨hnone, hdisk⟩ | ⟨rounds, r, state, handled, -, hworker, hhandle, hsome, hdisk⟩
  · rw [hnone, hdisk]
    exact ht.stored
  · have hopen : r ∈ t.1.server.unfinished := by
      rw [Server.unfinished, hworker]
      exact List.mem_append_left _ List.mem_cons_self
    rw [hsome, hdisk]
    exact Transfers.Stored.handled ht.stored (ht.sizes r hopen) hhandle

/-- In every run the files hold what was uploaded. -/
theorem uploads_stored {p : Parsers} {now : Int} {disk : Disk} {events : List HostEvent}
    {t : Host × Transfers UInt32 UInt8}
    (hrun : runFrom (uploadStep p) (⟨.init now, disk, []⟩, fun _ => none) events = some t) :
    UploadsStored t := by
  have hinit : UploadsStored (⟨.init now, disk, []⟩, fun _ => none) :=
    ⟨fun r h => (by cases h), fun k chunks h => (by cases h)⟩
  exact runFrom_invariant (fun _ _ _ ht h => uploadStep_stored ht h) hinit hrun

/-- What `read_json_file` makes of a file. -/
theorem readJsonFile_holding_eq (data : List UInt8) :
    readJsonFile (.holding data) =
      if data = [] ∨ maxErFileSize < data.length then
        .error (lit "ER file is empty or too large")
      else
        .ok data := by
  have hempty : data.length = 0 ↔ data = [] := List.length_eq_zero_iff
  unfold readJsonFile ErFile.holding
  simp only [Bool.not_true, Bool.false_eq_true, if_false, List.take_length, ne_eq, not_true,
    gt_iff_lt, hempty]

/-- Along every run, whatever requests come in between: when `OP_UPLOAD_END` of a client
is processed, its file holds exactly the chunks that it was told are stored since its last
upload began, one after the other, and `load_er_json` reads exactly these bytes unless they
are none or more than `MAX_ER_FILE_SIZE`. -/
theorem uploads_reassembled (p : Parsers) (now : Int) (disk : Disk) (events : List HostEvent) :
    EveryStep (uploadStep p) (UploadLaw p) (⟨.init now, disk, []⟩, fun _ => none) events := by
  refine everyStep_iff.mpr fun done e rest t _ hrun => ?_
  intro rounds r chunks _ _ _ _ hchunks
  have hfile : (p.env t.1.disk r rounds).uploadFile = .holding chunks.flatten := by
    unfold Parsers.env
    rw [(uploads_stored hrun).stored r.clientId chunks hchunks]
  exact ⟨hfile, by rw [hfile, readJsonFile_holding_eq]⟩

/-! ## An upload larger than `MAX_ER_FILE_SIZE` -/

/-- The first client uploads a file in two chunks; `OP_UPLOAD_END` is begun. -/
def uploadOfTwo (chunk : List UInt8) : List HostEvent :=
  let requested := fun (opId : UInt32) (payload : List UInt8) =>
    [HostEvent.interface (.receive 0 5 1 opId payload), .interface .push, .pop, .begin 0]
  let answered := [HostEvent.handle [], .finish 0 0]
  .interface (.connect 0 5 (lit "127.0.0.1")) ::
    (requested opUploadBegin [] ++ answered ++ requested opUploadChunk chunk ++ answered ++
      requested opUploadChunk [0] ++ answered ++ requested opUploadEnd [])

/-- Libraries that accept nothing. -/
def refusing : Parsers := ⟨fun _ => none, fun _ => none⟩

theorem uploadOfTwo_run (rest : List UInt8) :
    (runFrom (uploadStep refusing) (⟨.init 0, fun _ => none, []⟩, fun _ => none)
        (uploadOfTwo (0 :: rest))).map
      (fun t => (t.1.server.worker, t.1.server.shared.cancelClientId, t.2 1)) =
      some (.begun ⟨5, 1, opUploadEnd, 1, none, 0⟩, 0, some [0 :: rest, [0]]) := rfl

/-- At its end the upload is as large as its two chunks, and not read if that is too
large. -/
theorem uploadOfTwo_notRead {rest : List UInt8} (hlarge : maxErFileSize ≤ rest.length + 1) :
    ∃ t, runFrom (uploadStep refusing) (⟨.init 0, fun _ => none, []⟩, fun _ => none)
        (uploadOfTwo (0 :: rest)) = some t ∧
      t.1.server.worker = .begun ⟨5, 1, opUploadEnd, 1, none, 0⟩ ∧
      t.1.server.shared.cancelClientId = 0 ∧ t.2 1 = some [0 :: rest, [0]] ∧
      ∀ rounds r, r.clientId = 1 → readJsonFile (refusing.env t.1.disk r rounds).uploadFile =
        .error (lit "ER file is empty or too large") := by
  obtain ⟨t, hrun, ht⟩ := Option.map_eq_some_iff.mp (uploadOfTwo_run rest)
  obtain ⟨hworker, hcells⟩ := Prod.mk.inj ht
  obtain ⟨hcancel, huploads⟩ := Prod.mk.inj hcells
  refine ⟨t, hrun, hworker, hcancel, huploads, fun rounds r hr => ?_⟩
  have hsize : maxErFileSize < [0 :: rest, [0]].flatten.length := by
    simp only [List.flatten_cons, List.flatten_nil, List.length_append, List.length_cons,
      List.length_nil]
    omega
  have hfile : (refusing.env t.1.disk r rounds).uploadFile = .holding [0 :: rest, [0]].flatten := by
    unfold Parsers.env
    rw [hr, (uploads_stored hrun).stored 1 _ huploads]
  rw [hfile, readJsonFile_holding_eq, if_pos (Or.inr hsize)]

/-- A chunk of `SQLCG_MAX_PAYLOAD` bytes and one of a single byte are stored, and
`load_er_json` reads neither. -/
theorem largeUpload_notRead :
    ¬ EveryStep (uploadStep refusing)
      (fun t e => ∀ rounds r chunks, e = .handle rounds → t.1.server.worker = .begun r →
        r.opId = opUploadEnd → t.1.server.shared.cancelClientId ≠ toInt r.clientId →
        t.2 r.clientId = some chunks →
        readJsonFile (refusing.env t.1.disk r rounds).uploadFile = .ok chunks.flatten)
      (⟨.init 0, fun _ => none, []⟩, fun _ => none)
      (uploadOfTwo (0 :: List.replicate (maxErFileSize - 1) 0) ++ [.handle []]) := by
  intro hevery
  have hlarge : maxErFileSize ≤ (List.replicate (maxErFileSize - 1) (0 : UInt8)).length + 1 := by
    rw [List.length_replicate]
    omega
  generalize List.replicate (maxErFileSize - 1) (0 : UInt8) = rest at hevery hlarge
  obtain ⟨t, hrun, hworker, hcancel, huploads, hread⟩ := uploadOfTwo_notRead hlarge
  have hclient : t.1.server.shared.cancelClientId ≠ toInt 1 := by
    rw [hcancel]
    exact (by decide : (0 : Int) ≠ toInt 1)
  have hall := everyStep_iff.mp hevery (uploadOfTwo (0 :: rest)) (.handle []) [] t rfl hrun [] _ _
    rfl hworker rfl hclient huploads
  rw [hread [] _ rfl] at hall
  cases hall

end SqlCodeGenerator
