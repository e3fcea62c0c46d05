import SqlCodeGenerator.ConstraintIntegrity
import SqlCodeGenerator.Decimals
import SqlCodeGenerator.Effects
import SqlCodeGenerator.InsertRequests
import SqlCodeGenerator.Library.Ledgers
import SqlCodeGenerator.LoadAtomicity
import SqlCodeGenerator.RowCapacity

/-!
# What the tables of the server hold

The worker calls `load_er_json` and `apply_insert_batch` while the interface threads go on,
clients are cancelled and children fail.  The tables are at any time what the calls made so far
would have left, one after the other, in a state of their own.

* `handleRequest_model`: the operation of a request as calls of the data model;
* `server_runs_model`: so every run of the server is a run of the data model, and the stored
  rows satisfy the constraints;
* `acknowledged_rows`: the stored rows are those of the INSERT requests answered by `OP_OK`
  since the tables were last loaded, each row once and in order.
-/

namespace SqlCodeGenerator

open Library

/-! ## The server as a run of the data model -/

/-- The call of `apply_insert_batch` behind a child that has accepted. -/
def insertCalls (env : RequestEnv) (r : Request) (state : SharedState) : List Op :=
  match r.payload with
  | none => []
  | some payload =>
      match childValidateInsert env.child state (cstr payload) with
      | .ok _ => [.insert env.pgQueryParse (cstr payload)]
      | _ => []

/-- The calls of `load_er_json` and `apply_insert_batch` that an operation makes. -/
def modelCalls (env : RequestEnv) (r : Request) (state : SharedState) : List Op :=
  if state.cancelClientId = toInt r.clientId then
    []
  else if r.opId = opUploadEnd then
    [.load env.cjsonParse env.uploadFile]
  else if r.opId = opValidateInsert then
    insertCalls env r state
  else
    []

/-- The calls that a step makes. -/
def Server.modelCalls (s : Server) : Event → List Op
  | .handle env =>
      match s.worker with
      | .begun r => SqlCodeGenerator.modelCalls env r s.shared
      | _ => []
  | _ => []

section Calls

variable {pgQueryParse : CString → Option CString} {state m : SharedState} {sql : CString}

/-- An insertion looks at the tables only. -/
theorem insert_step_of_ok {applied : Applied} {after : SharedState}
    (hm : m.tables = state.tables) (h : applyInsertBatch pgQueryParse state sql = .ok applied)
    (hafter : applied.after = some after) :
    ∃ m', Op.step m (.insert pgQueryParse sql) = some m' ∧ m'.tables = after.tables := by
  obtain ⟨batch, haccepted, rfl⟩ := applyInsertBatch_eq_ok_iff.mp h
  obtain ⟨tables, happend, rfl⟩ := Option.map_eq_some_iff.mp hafter
  rw [← hm] at haccepted happend
  have happly := applyInsertBatch_eq_ok_iff.mpr ⟨batch, haccepted, rfl⟩
  refine ⟨{ m with tables := tables }, ?_, rfl⟩
  rw [Op.step, happly]
  show (appendRows m.tables batch.items).map _ = _
  rw [happend]
  rfl

theorem insert_step_of_error {err : CString} (hm : m.tables = state.tables)
    (h : applyInsertBatch pgQueryParse state sql = .error err) :
    Op.step m (.insert pgQueryParse sql) = some m := by
  have hsame : applyInsertBatch pgQueryParse m sql = .error err := by
    unfold applyInsertBatch at h ⊢
    rw [hm]
    cases haccepted : acceptedBatch pgQueryParse state.tables sql with
    | ok batch => simp [haccepted] at h
    | error message =>
        rw [haccepted] at h
        exact h
    | fault => simp [haccepted] at h
  rw [Op.step, hsame]

end Calls

/-- An INSERT as a call of the data model. -/
theorem insertVerdict_model {env : RequestEnv} {r : Request} {state m : SharedState}
    {verdict : InsertVerdict} (hverdict : insertVerdict env r state = some verdict)
    (hm : m.tables = state.tables) :
    ∃ m', runFrom Op.step m (insertCalls env r state) = some m' ∧
      m'.tables = match verdict with
        | .applied _ after => after.tables
        | _ => state.tables := by
  unfold insertVerdict at hverdict
  unfold insertCalls
  cases hpayload : r.payload with
  | none =>
      simp only [hpayload, Option.some.injEq] at hverdict
      exact ⟨m, rfl, hverdict ▸ hm⟩
  | some payload =>
      simp only [hpayload] at hverdict ⊢
      cases hchild : childValidateInsert env.child state (cstr payload) with
      | fault => simp [hchild] at hverdict
      | error err =>
          simp only [hchild, Option.some.injEq] at hverdict
          exact ⟨m, rfl, hverdict ▸ hm⟩
      | ok text =>
          simp only [hchild] at hverdict ⊢
          cases happly : applyInsertBatch env.pgQueryParse state (cstr payload) with
          | fault => simp [happly] at hverdict
          | error err =>
              simp only [happly, Option.some.injEq] at hverdict
              refine ⟨m, ?_, hverdict ▸ hm⟩
              rw [runFrom_cons, insert_step_of_error hm happly]
              rfl
          | ok applied =>
              simp only [happly, Option.map_eq_some_iff] at hverdict
              obtain ⟨after, hafter, rfl⟩ := hverdict
              obtain ⟨m', hstep, htables⟩ := insert_step_of_ok hm happly hafter
              refine ⟨m', ?_, htables⟩
              rw [runFrom_cons, hstep]
              rfl

/-- The operation of a request is the calls that it makes. -/
theorem handleRequest_model {env : RequestEnv} {r : Request} {state state' m : SharedState}
    {h : Handled} (hhandle : handleRequest env r state = some (state', h))
    (hm : m.tables = state.tables) :
    ∃ m', runFrom Op.step m (modelCalls env r state) = some m' ∧ m'.tables = state'.tables := by
  unfold handleRequest dispatchRequest at hhandle
  unfold modelCalls
  split at hhandle
  · next hcancel =>
      obtain ⟨rfl, -⟩ := Prod.mk.inj (Option.some.inj hhandle)
      rw [if_pos hcancel]
      exact ⟨m, rfl, hm⟩
  next hcancel =>
  rw [if_neg hcancel]
  split at hhandle
  · next hop =>
      obtain ⟨rfl, -⟩ := Prod.mk.inj (Option.some.inj hhandle)
      rw [if_neg (by rw [hop]; decide), if_neg (by rw [hop]; decide)]
      exact ⟨m, rfl, hm⟩
  split at hhandle
  · next hop =>
      obtain ⟨rfl, -⟩ := Prod.mk.inj (Option.some.inj hhandle)
      rw [if_neg (by rw [hop]; decide), if_neg (by rw [hop]; decide)]
      exact ⟨m, rfl, hm⟩
  split at hhandle
  · next hop =>
      obtain ⟨rfl, -⟩ := Prod.mk.inj (Option.some.inj hhandle)
      rw [if_pos hop]
      refine ⟨_, rfl, ?_⟩
      rw [(loadErJson_congr env.cjsonParse env.uploadFile hm).2]
      split
      · next hload => exact congrArg (fun p => p.1.tables) hload
      · next hload => exact congrArg (fun p => p.1.tables) hload
  next hend =>
  rw [if_neg hend]
  split at hhandle
  · next hop =>
      obtain ⟨rfl, -⟩ := Prod.mk.inj (Option.some.inj hhandle)
      rw [if_neg (by rw [hop]; decide)]
      exact ⟨m, rfl, hm⟩
  split at hhandle
  · next hop =>
      obtain ⟨rfl, -⟩ := Prod.mk.inj (Option.some.inj hhandle)
      rw [if_neg (by rw [hop]; decide)]
      refine ⟨m, rfl, ?_⟩
      split
      · exact hm
      · exact hm
  split at hhandle
  · next hop =>
      rw [if_pos hop]
      obtain ⟨verdict, hverdict, hresult⟩ := Option.map_eq_some_iff.mp hhandle
      obtain ⟨m', hrun, htables⟩ := insertVerdict_model hverdict (m := m) hm
      refine ⟨m', hrun, htables.trans ?_⟩
      cases verdict with
      | empty =>
          obtain ⟨rfl, -⟩ := Prod.mk.inj hresult
          rfl
      | rejected err =>
          obtain ⟨rfl, -⟩ := Prod.mk.inj hresult
          rfl
      | applyFailed err =>
          obtain ⟨rfl, -⟩ := Prod.mk.inj hresult
          rfl
      | applied err after =>
          obtain ⟨rfl, -⟩ := Prod.mk.inj hresult
          rfl
  · next hinsert =>
      obtain ⟨rfl, -⟩ := Prod.mk.inj (Option.some.inj hhandle)
      rw [if_neg hinsert]
      exact ⟨m, rfl, hm⟩

/-- So is a step of the server. -/
theorem Event.step_model {s s' : Server} {e : Event} (h : e.step s = some s') {m : SharedState}
    (hm : m.tables = s.shared.tables) :
    ∃ m', runFrom Op.step m (s.modelCalls e) = some m' ∧ m'.tables = s'.shared.tables := by
  cases e with
  | interface e =>
      obtain ⟨htables, -, -⟩ := InterfaceEvent.step_frame h
      exact ⟨m, rfl, hm.trans htables.symm⟩
  | pop =>
      cases step_spec h with
      | pop r rest hworker hqueue => exact ⟨m, rfl, hm⟩
  | begin now =>
      cases step_spec h with
      | begin _ r hworker => exact ⟨m, rfl, hm.trans (beginRequest_tables now r s.shared).symm⟩
  | handle env =>
      cases step_spec h with
      | handle _ r state h' hworker hhandle =>
          simp only [Server.modelCalls, hworker]
          exact handleRequest_model hhandle hm
  | finish now elapsed =>
      cases step_spec h with
      | finish _ _ r h' hworker =>
          exact ⟨m, rfl, hm.trans (finishRequest_tables now elapsed r h' s.shared).symm⟩

/-- In every run, the tables are what the calls made so far leave when nothing else happens, and
the stored rows satisfy the constraints of the loaded tables.  A run in which a batch goes past
`rows` or a column list past `column_map` has no state. -/
theorem server_runs_model {now : Int} {events : List Event} {s : Server}
    (hrun : serve (.init now) events = some s) :
    (∃ m, run now (collected Event.step Server.modelCalls (.init now) events) = some m ∧
        m.tables = s.shared.tables) ∧
      HoldsConstraints s.shared.tables := by
  have hmodel : ∃ m, run now (collected Event.step Server.modelCalls (.init now) events) = some m ∧
      m.tables = s.shared.tables := by
    have hstep : ∀ s calls e s', (∃ m, run now calls = some m ∧ m.tables = s.shared.tables) →
        Event.step s e = some s' →
        ∃ m', run now (calls ++ Server.modelCalls s e) = some m' ∧
          m'.tables = s'.shared.tables := by
      rintro s calls e s' ⟨m, hcalls, hm⟩ hstep
      obtain ⟨m', hmore, hm'⟩ := Event.step_model hstep hm
      refine ⟨m', ?_, hm'⟩
      rw [run, runFrom_append]
      exact Option.bind_eq_some_iff.mpr ⟨m, hcalls, hmore⟩
    have hinit : ∃ m, run now [] = some m ∧ m.tables = (Server.init now).shared.tables :=
      ⟨stateInit now, rfl, rfl⟩
    exact collected_invariant hstep hinit hrun
  refine ⟨hmodel, ?_⟩
  obtain ⟨m, hcalls, hm⟩ := hmodel
  rw [← hm]
  refine holdsConstraints_of_consistent
    (runFrom_invariant (fun _ _ _ h hstep => Op.step_consistent h hstep) ?_ hcalls)
  exact Schema.consistent_of_empty fun i => rfl

/-- The run of a client that loads the sample document and inserts. -/
theorem server_runs_model_sample :
    ∃ s, serve (.init 0) (insertEvents ++ insertProcess) = some s ∧
      HoldsConstraints s.shared.tables := by
  have hsome : (serve (.init 0) (insertEvents ++ insertProcess)).isSome = true := by
    decide +kernel
  obtain ⟨s, hrun⟩ := Option.isSome_iff_exists.mp hsome
  exact ⟨s, hrun, (server_runs_model hrun).2⟩

/-! ## Acknowledged rows -/

/-- The text that an INSERT of a number of rows is answered with. -/
def insertedText (rows : Nat) : CString := lit "OK: inserted " ++ decimal rows ++ lit " row(s)"

/-- An INSERT request that was answered by `OP_OK`: its payload, and the text of the answer. -/
structure Acknowledged where
  payload : List UInt8
  text : CString

/-- The INSERT requests answered by `OP_OK` since a load has come to the entries of its
document. -/
def recordAcknowledged (s : Server) (e : Event) (acks : List Acknowledged) : List Acknowledged :=
  match e, s.worker with
  | .handle env, .begun r =>
      match handleRequest env r s.shared with
      | none => acks
      | some (_, h) =>
          if s.shared.cancelClientId = toInt r.clientId then
            acks
          else if r.opId = opUploadEnd ∧ (tableEntries env.cjsonParse env.uploadFile).isSome then
            []
          else if r.opId = opValidateInsert ∧ h.respOp = opOk then
            acks ++ [⟨r.payload.getD [], h.response⟩]
          else
            acks
  | _, _ => acks

/-- The rows that an acknowledged text denotes, over the tables that are loaded. -/
def Acknowledged.Denotes (tables : Tables) (ack : Acknowledged) (batch : InsertBatch) : Prop :=
  parseBatch tables (cstr ack.payload) = .ok batch ∧ ack.text = insertedText batch.count

/-- The stored rows are those of the batches, in order. -/
structure StoresBatches (tables : Tables) (batches : List InsertBatch) : Prop where
  rows : ∀ i, storedRows tables i =
    ((batches.flatMap CountedArray.items).filter fun ir => decide (ir.tableIndex = i)).map
      InsertRow.row
  count : ∑ i, (storedRows tables i).length = (batches.map CountedArray.count).sum

/-- The tables hold what was acknowledged. -/
def HoldsAcknowledged (tables : Tables) (acks : List Acknowledged) : Prop :=
  ∃ batches, List.Forall₂ (Acknowledged.Denotes tables) acks batches ∧ StoresBatches tables batches

theorem sum_rowsFor (rows : List InsertRow) : ∑ i, rowsFor rows i = rows.length := by
  induction rows with
  | nil => simp [rowsFor]
  | cons ir rows ih =>
      simp only [rowsFor_cons, Finset.sum_add_distrib, ih, Finset.sum_ite_eq, Finset.mem_univ,
        if_true, List.length_cons]
      omega

theorem holdsAcknowledged_nil {tables : Tables} (h : ∀ i, storedRows tables i = []) :
    HoldsAcknowledged tables [] := by
  refine ⟨[], .nil, ⟨fun i => (h i).trans rfl, ?_⟩⟩
  simp [h]

/-- A batch is appended and acknowledged. -/
theorem HoldsAcknowledged.append {tables tables' : Tables} {acks : List Acknowledged}
    {ack : Acknowledged} {batch : InsertBatch} (h : HoldsAcknowledged tables acks)
    (happend : appendRows tables batch.items = some tables') (hack : ack.Denotes tables batch) :
    HoldsAcknowledged tables' (acks ++ [ack]) := by
  obtain ⟨batches, hdenotes, hstores⟩ := h
  have hnames := (appendRows_spec happend).1.names
  have hkept : ∀ a b, Acknowledged.Denotes tables a b → Acknowledged.Denotes tables' a b :=
    fun a b hab => ⟨parseBatch_congr hnames hab.1, hab.2⟩
  refine ⟨batches ++ [batch], ?_, fun i => ?_, ?_⟩
  · exact List.rel_append (hdenotes.imp hkept) (.cons (hkept ack batch hack) .nil)
  · rw [storedRows_appendRows happend, hstores.rows i, List.flatMap_append, List.filter_append,
      List.map_append, List.flatMap_singleton]
  · simp only [length_storedRows_appendRows happend, Finset.sum_add_distrib, hstores.count,
      sum_rowsFor, List.map_append, List.sum_append, List.map_singleton, List.sum_singleton]
    rfl

/-- The answer to an INSERT fits its buffers. -/
theorem cut_insertedText {n size : Nat} (hn : n ≤ maxBatchRows) (hsize : errSize ≤ size) :
    cut size (insertedText n) = insertedText n := by
  have hdigits : (decimal n).length ≤ 3 :=
    length_decimal_le (by decide) (Nat.lt_of_le_of_lt hn (by decide))
  have hroom : 2048 ≤ size := hsize
  refine List.take_of_length_le ?_
  have hfirst : (lit "OK: inserted ").length = 13 := rfl
  have hlast : (lit " row(s)").length = 7 := rfl
  simp only [insertedText, List.length_append, hfirst, hlast]
  omega

/-- An INSERT that is not cancelled: refused, or applied and acknowledged. -/
theorem handleValidateInsert_acknowledged {env : RequestEnv} {r : Request}
    {state state' : SharedState} {h : Handled}
    (hhandle : handleValidateInsert env r state = some (state', h)) :
    (h.respOp = opError ∧ state'.tables = state.tables) ∨
      h.respOp = opOk ∧ ∃ batch, appendRows state.tables batch.items = some state'.tables ∧
        Acknowledged.Denotes state.tables ⟨r.payload.getD [], h.response⟩ batch := by
  obtain ⟨verdict, hverdict, hresult⟩ := Option.map_eq_some_iff.mp hhandle
  cases verdict with
  | empty =>
      obtain ⟨rfl, rfl⟩ := Prod.mk.inj hresult
      exact Or.inl ⟨rfl, rfl⟩
  | rejected err =>
      obtain ⟨rfl, rfl⟩ := Prod.mk.inj hresult
      exact Or.inl ⟨rfl, rfl⟩
  | applyFailed err =>
      obtain ⟨rfl, rfl⟩ := Prod.mk.inj hresult
      exact Or.inl ⟨rfl, rfl⟩
  | applied err after =>
      obtain ⟨rfl, rfl⟩ := Prod.mk.inj hresult
      refine Or.inr ⟨rfl, ?_⟩
      unfold insertVerdict at hverdict
      cases hpayload : r.payload with
      | none => simp [hpayload] at hverdict
      | some payload =>
          simp only [hpayload] at hverdict
          split at hverdict
          · cases hverdict
          · cases hverdict
          · split at hverdict
            · cases hverdict
            · cases hverdict
            · next applied happlied =>
                obtain ⟨batch, haccepted, rfl⟩ := applyInsertBatch_eq_ok_iff.mp happlied
                simp only [Option.map_map, Option.map_eq_some_iff, Function.comp_apply,
                  InsertVerdict.applied.injEq] at hverdict
                obtain ⟨tables, happend, rfl, rfl⟩ := hverdict
                refine ⟨batch, happend, (acceptedBatch_eq_ok_iff.mp haccepted).2.1, ?_⟩
                show cut responseSize (cut errSize (insertedText batch.count)) = _
                rw [cut_insertedText batch.count_le (Nat.le_refl _),
                  cut_insertedText batch.count_le (by decide)]

theorem handleRequest_validateInsert {env : RequestEnv} {r : Request} {state : SharedState}
    (hcancel : state.cancelClientId ≠ toInt r.clientId) (hop : r.opId = opValidateInsert) :
    handleRequest env r state = handleValidateInsert env r state := by
  simp only [handleRequest, dispatchRequest, hcancel, if_false, hop,
    show opValidateInsert ≠ opUploadBegin by decide,
    show opValidateInsert ≠ opUploadChunk by decide,
    show opValidateInsert ≠ opUploadEnd by decide,
    show opValidateInsert ≠ opGenerateSql by decide,
    show opValidateInsert ≠ opDownloadSql by decide, if_true]

/-- A step of the operations keeps what was acknowledged. -/
theorem HoldsAcknowledged.handle {s : Server} {env : RequestEnv} {r : Request}
    {state : SharedState} {h : Handled} {acks : List Acknowledged}
    (hacks : HoldsAcknowledged s.shared.tables acks) (hworker : s.worker = .begun r)
    (hhandle : handleRequest env r s.shared = some (state, h)) :
    HoldsAcknowledged state.tables (recordAcknowledged s (.handle env) acks) := by
  obtain ⟨m, hcalls, hm⟩ := handleRequest_model hhandle rfl
  simp only [recordAcknowledged, hworker, hhandle]
  unfold modelCalls at hcalls
  split
  · next hcancel =>
      rw [if_pos hcancel] at hcalls
      obtain rfl := Option.some.inj hcalls
      exact hm ▸ hacks
  · next hcancel =>
      rw [if_neg hcancel] at hcalls
      by_cases hend : r.opId = opUploadEnd
      · -- a load
        have hload : state.tables =
            (loadErJson env.cjsonParse s.shared env.uploadFile).1.tables := by
          rw [if_pos hend] at hcalls
          obtain rfl := Option.some.inj hcalls
          exact hm.symm
        rw [hload]
        cases hentries : tableEntries env.cjsonParse env.uploadFile with
        | none =>
            obtain ⟨message, hsame⟩ := loadErJson_of_no_entries s.shared hentries
            have hop : r.opId ≠ opValidateInsert := by rw [hend]; decide
            rw [hsame, if_neg (by simp), if_neg fun hboth => hop hboth.1]
            exact hacks
        | some loaded =>
            rw [loadErJson_of_entries s.shared hentries, if_pos ⟨hend, rfl⟩]
            exact holdsAcknowledged_nil
              (loadEntries_rowless s.shared loaded.1 loaded.2).storedRows_eq
      · rw [if_neg hend] at hcalls
        rw [if_neg fun hboth => hend hboth.1]
        by_cases hop : r.opId = opValidateInsert
        · -- an insertion
          rw [handleRequest_validateInsert hcancel hop] at hhandle
          rcases handleValidateInsert_acknowledged hhandle with
            ⟨herror, hsame⟩ | ⟨hok, batch, happend, hdenotes⟩
          · have hrefused : ¬ h.respOp = opOk := by rw [herror]; decide
            rw [if_neg fun hboth => hrefused hboth.2, hsame]
            exact hacks
          · rw [if_pos ⟨hop, hok⟩]
            exact hacks.append happend hdenotes
        · rw [if_neg hop] at hcalls
          obtain rfl := Option.some.inj hcalls
          rw [if_neg fun hboth => hop hboth.1]
          exact hm ▸ hacks

/-- Every step keeps what was acknowledged. -/
theorem HoldsAcknowledged.step {t t' : Server × List Acknowledged} {e : Event}
    (hacks : HoldsAcknowledged t.1.shared.tables t.2)
    (hboth : withHistory Event.step recordAcknowledged t e = some t') :
    HoldsAcknowledged t'.1.shared.tables t'.2 := by
  obtain ⟨s, acks⟩ := t
  obtain ⟨after, hstep, rfl⟩ := Option.map_eq_some_iff.mp hboth
  dsimp only at hacks hstep ⊢
  cases e with
  | interface e =>
      obtain ⟨htables, -, -⟩ := InterfaceEvent.step_frame hstep
      exact htables.symm ▸ hacks
  | pop =>
      cases Event.step_spec hstep with
      | pop r rest hworker hqueue => exact hacks
  | begin now =>
      cases Event.step_spec hstep with
      | begin _ r hworker => exact (beginRequest_tables now r s.shared).symm ▸ hacks
  | handle env =>
      cases Event.step_spec hstep with
      | handle _ r state h hworker hhandle => exact hacks.handle hworker hhandle
  | finish now elapsed =>
      cases Event.step_spec hstep with
      | finish _ _ r h hworker =>
          exact (finishRequest_tables now elapsed r h s.shared).symm ▸ hacks

/-- In every run, the rows stored in the tables are the rows that the INSERT requests answered by
`OP_OK` since the tables were last replaced denote, each once and in order, and there are as
many of them as the answers say.  A run in which a batch goes past `rows` or a column list past
`column_map` has no state. -/
theorem acknowledged_rows {now : Int} {events : List Event} {s : Server}
    {acks : List Acknowledged}
    (hrun : runFrom (withHistory Event.step recordAcknowledged) (.init now, []) events =
      some (s, acks)) :
    HoldsAcknowledged s.shared.tables acks := by
  exact runFrom_invariant (fun _ _ _ h hstep => HoldsAcknowledged.step h hstep)
    (holdsAcknowledged_nil fun i => rfl) hrun

/-- Two rows are acknowledged, and stored. -/
theorem acknowledged_rows_sample :
    ∃ s acks, runFrom (withHistory Event.step recordAcknowledged) (.init 0, [])
        (insertEvents ++ insertProcess) = some (s, acks) ∧
      acks.map Acknowledged.text = [lit "OK: inserted 2 row(s)"] ∧
      HoldsAcknowledged s.shared.tables acks := by
  have hsome : (runFrom (withHistory Event.step recordAcknowledged) (.init 0, [])
      (insertEvents ++ insertProcess)).map (fun t => t.2.map Acknowledged.text) =
      some [lit "OK: inserted 2 row(s)"] := by decide +kernel
  obtain ⟨⟨s, acks⟩, hrun, htexts⟩ := Option.map_eq_some_iff.mp hsome
  exact ⟨s, acks, hrun, htexts, acknowledged_rows hrun⟩

end SqlCodeGenerator
