import SqlCodeGenerator.Runs

/-!
# Constraint integrity over whole runs

`HoldsConstraints` says in the terms of the code that the stored rows satisfy the
column flags and references of the loaded tables.  It follows from consistency of
the abstract store (`holdsConstraints_of_consistent`), which every load and every
insertion preserves, whatever the environment answers.
-/

namespace SqlCodeGenerator

open Library

/-- The stored rows satisfy the constraints that the loaded columns state. -/
structure HoldsConstraints (tables : Tables) : Prop where
  /-- The non-NULL values of a unique column are pairwise different. -/
  unique : ∀ (i : Fin maxTables) (table : Table) (c : Fin maxColumns) (col : Column),
    tables.items[i.val]? = some table → table.columns.items[c.val]? = some col →
    (col.primaryKey || col.unique) = true →
    ∀ (m n : Nat) (row row' : Row), m ≠ n →
      table.rows.items[m]? = some row → table.rows.items[n]? = some row' →
      (row.cell c).isNull = false → (row'.cell c).isNull = false →
      (row.cell c).value.chars ≠ (row'.cell c).value.chars
  /-- A column that must not be NULL is not NULL in any row. -/
  required : ∀ (i : Fin maxTables) (table : Table) (c : Fin maxColumns) (col : Column),
    tables.items[i.val]? = some table → table.columns.items[c.val]? = some col →
    (col.notNull || col.primaryKey) = true →
    ∀ row ∈ table.rows.items, (row.cell c).isNull = false
  /-- A non-NULL value in a column with a reference is stored where the reference
  leads. -/
  references : ∀ (i : Fin maxTables) (table : Table) (c : Fin maxColumns) (col : Column),
    tables.items[i.val]? = some table → table.columns.items[c.val]? = some col →
    col.refTable.chars ≠ [] →
    ∀ row ∈ table.rows.items, (row.cell c).isNull = false →
      ∃ rt target rc, findTable tables col.refTable.chars = some rt ∧
        tables.items[rt.val]? = some target ∧
        findColumn target col.refColumn.chars = some rc ∧
        ∃ row' ∈ target.rows.items, (row'.cell rc).isNull = false ∧
          (row'.cell rc).value.chars = (row.cell c).value.chars

theorem contents_eq {tables : Tables} {i : Fin maxTables} {table : Table}
    (htable : tables.items[i.val]? = some table) :
    contents tables i = table.rows.items.map Row.view := by
  simp [contents, storedRows, htable]

theorem resolve_eq_some {tables : Tables} {col : Column}
    {place : Fin maxTables × Fin maxColumns} (h : resolve tables col = some place) :
    ∃ target, findTable tables col.refTable.chars = some place.1 ∧
      tables.items[place.1.val]? = some target ∧
      findColumn target col.refColumn.chars = some place.2 := by
  unfold resolve at h
  simp only [Option.bind_eq_bind, Option.bind_eq_some_iff, Option.some.injEq] at h
  obtain ⟨rt, htable, target, htarget, rc, hcolumn, rfl⟩ := h
  exact ⟨target, htable, htarget, hcolumn⟩

/-- Consistency of the abstract store, in the terms of the code. -/
theorem holdsConstraints_of_consistent {tables : Tables}
    (h : (schemaOf tables).Consistent (contents tables)) : HoldsConstraints tables where
  unique := by
    intro i table c col htable hcol hflag m n row row' hmn hm hn hnull hnull' heq
    have hpairs := h.unique i c ⟨col, columnAt_eq_some htable hcol, hflag⟩
    rw [contents_eq htable, List.pairwise_map, List.pairwise_iff_getElem] at hpairs
    obtain ⟨hmlen, hm⟩ := List.getElem?_eq_some_iff.mp hm
    obtain ⟨hnlen, hn⟩ := List.getElem?_eq_some_iff.mp hn
    -- the pairs of the abstract store are ordered, those of the statement are not
    rcases Nat.lt_or_gt_of_ne hmn with hlt | hlt
    · have hdiffer := hpairs m n hmlen hnlen hlt _ (by
        rw [hm]
        exact view_eq_some_of_not_null hnull)
      rw [hn, view_eq_some_of_not_null hnull', heq] at hdiffer
      exact hdiffer rfl
    · have hdiffer := hpairs n m hnlen hmlen hlt _ (by
        rw [hn]
        exact view_eq_some_of_not_null hnull')
      rw [hm, view_eq_some_of_not_null hnull, heq] at hdiffer
      exact hdiffer rfl
  required := by
    intro i table c col htable hcol hflag row hrow
    have hvalue := h.required i c ⟨col, columnAt_eq_some htable hcol, hflag⟩ row.view (by
      rw [contents_eq htable]
      exact List.mem_map_of_mem hrow)
    rw [ne_eq, view_eq_none_iff] at hvalue
    simpa using hvalue
  references := by
    intro i table c col htable hcol href row hrow hnull
    have hcolumn := columnAt_eq_some htable hcol
    obtain ⟨place, ⟨col', hcolumn', hplace⟩, view, hview, hvalue⟩ :=
      h.references i c ⟨col, hcolumn, href⟩ row.view
        (by
          rw [contents_eq htable]
          exact List.mem_map_of_mem hrow)
        _ (view_eq_some_of_not_null hnull)
    obtain rfl : col' = col := Option.some.inj (hcolumn'.symm.trans hcolumn)
    obtain ⟨target, hfind, htarget, hfindColumn⟩ := resolve_eq_some hplace
    rw [contents_eq htarget] at hview
    obtain ⟨row', hrow', rfl⟩ := List.mem_map.mp hview
    obtain ⟨hnull', hvalue'⟩ := chars_eq_of_view hvalue
    exact ⟨place.1, target, place.2, hfind, htarget, hfindColumn, row', hrow', hnull', hvalue'⟩

/-- Appending the rows of an accepted batch keeps the store consistent. -/
theorem appendRows_consistent {tables tables' : Tables} {batch : InsertBatch}
    (hvalid : validateBatchRows tables batch = .ok ())
    (happend : appendRows tables batch.items = some tables')
    (h : (schemaOf tables).Consistent (contents tables)) :
    (schemaOf tables').Consistent (contents tables') := by
  rw [← (appendRows_spec happend).1.schemaOf_eq, contents_appendRows happend]
  exact Schema.AdmitsAll.consistent (validateRows_eq_ok_iff.mp hvalid).2 h

/-- Every call keeps the store consistent. -/
theorem Op.step_consistent {state state' : SharedState} {op : Op}
    (h : (schemaOf state.tables).Consistent (contents state.tables))
    (hstep : op.step state = some state') :
    (schemaOf state'.tables).Consistent (contents state'.tables) := by
  rcases Op.step_cases hstep with ⟨cjsonParse, file, -, rfl⟩ |
    ⟨pgQueryParse, sql, batch, tables, -, haccepted, happend, rfl⟩ | ⟨_, _, -, rfl⟩
  · -- a load leaves everything alone or leaves tables without rows
    rcases loadErJson_cases cjsonParse state file with hsame | hrowless
    · rw [hsame]
      exact h
    · refine Schema.consistent_of_empty fun i => ?_
      rw [contents, hrowless.storedRows_eq, List.map_nil]
  · exact appendRows_consistent (acceptedBatch_eq_ok_iff.mp haccepted).2.2 happend h
  · exact h

/-- After any run of loads and insertions, the stored rows satisfy the
constraints of the loaded tables. -/
theorem run_holdsConstraints {now : Int} {ops : List Op} {state : SharedState}
    (hrun : run now ops = some state) : HoldsConstraints state.tables := by
  refine holdsConstraints_of_consistent
    (runFrom_invariant (fun _ _ _ h hstep => Op.step_consistent h hstep) ?_ hrun)
  exact Schema.consistent_of_empty fun i => rfl

theorem run_sample_isSome : (run 0 [sampleLoad, sampleInserts]).isSome = true := by
  decide +kernel

/-- The same on the sample run. -/
theorem run_sample_holdsConstraints :
    HoldsConstraints ((run 0 [sampleLoad, sampleInserts]).get run_sample_isSome).tables :=
  run_holdsConstraints (Option.some_get run_sample_isSome).symm

end SqlCodeGenerator
