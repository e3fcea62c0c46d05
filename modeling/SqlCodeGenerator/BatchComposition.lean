import SqlCodeGenerator.RowCapacity

/-!
# Batches and their parts

As long as no table is filled beyond its room, a batch may be cut anywhere: the
validator accepts the whole exactly when it accepts the first part, and the
second part over the tables with the first part appended (`batch_split`).  Cutting
after every row, a batch is accepted exactly when its rows are accepted one by
one.
-/

namespace SqlCodeGenerator

open Library

/-- A batch of one row. -/
def InsertBatch.single (ir : InsertRow) : InsertBatch := ⟨[ir], by simp⟩

/-- The rows inserted one by one, each validated as a batch of its own. -/
def insertSingly (tables : Tables) : List InsertRow → Option Tables
  | [] => some tables
  | ir :: rest =>
      if validateBatchRows tables (InsertBatch.single ir) = .ok () then
        (appendRow tables ir).bind fun tables => insertSingly tables rest
      else
        none

variable {tables middle : Tables} {rows rows' : List InsertRow}

/-- A row for which there is room with the rest is a row the validator finds
room for. -/
theorem hasRoom_of_fits (hindexed : Indexed tables rows) (hfits : Fits tables rows)
    {ir : InsertRow} (hir : ir ∈ rows) : HasRoom tables ir := by
  have hfit := hfits ir.tableIndex
  have hpos := rowsFor_pos hir
  exact hasRoom_iff.mpr ⟨hindexed ir hir, by omega⟩

theorem Indexed.left (h : Indexed tables (rows ++ rows')) : Indexed tables rows :=
  fun ir hir => h ir (List.mem_append_left _ hir)

theorem Indexed.right (h : Indexed tables (rows ++ rows')) : Indexed tables rows' :=
  fun ir hir => h ir (List.mem_append_right _ hir)

theorem Fits.left (h : Fits tables (rows ++ rows')) : Fits tables rows := by
  intro i
  have hfit := h i
  rw [rowsFor_append] at hfit
  omega

/-- What is left fits behind what has been appended. -/
theorem Fits.rest (h : Fits tables (rows ++ rows'))
    (happend : appendRows tables rows = some middle) : Fits middle rows' := by
  intro i
  have hfit := h i
  rw [rowsFor_append] at hfit
  rw [length_storedRows_appendRows happend]
  omega

theorem Indexed.rest (h : Indexed tables (rows ++ rows'))
    (happend : appendRows tables rows = some middle) : Indexed middle rows' :=
  h.right.of_sameDefinitions (appendRows_spec happend).1

/-- Where the rows fit, the validator is the abstract test alone. -/
theorem validateRows_of_fits (hindexed : Indexed tables rows) (hfits : Fits tables rows) :
    validateRows tables [] rows = .ok () ↔
      AdmitsAll (schemaOf tables).Admissible (contents tables) (rows.map InsertRow.view) := by
  rw [validateRows_eq_ok_iff]
  exact and_iff_right fun ir hir => hasRoom_of_fits hindexed hfits hir

/-- The validator on a list of rows, cut in two. -/
theorem validateRows_append (hindexed : Indexed tables (rows ++ rows'))
    (hfits : Fits tables (rows ++ rows')) (happend : appendRows tables rows = some middle) :
    validateRows tables [] (rows ++ rows') = .ok () ↔
      validateRows tables [] rows = .ok () ∧ validateRows middle [] rows' = .ok () := by
  rw [validateRows_of_fits hindexed hfits, validateRows_of_fits hindexed.left hfits.left,
    validateRows_of_fits (hindexed.rest happend) (hfits.rest happend), List.map_append,
    admitsAll_append, ← (appendRows_spec happend).1.schemaOf_eq, contents_appendRows happend]
  exact Iff.rfl

/-- Rows that fit are accepted together exactly when they are accepted one by
one, and the tables come out the same. -/
theorem insertSingly_eq (hindexed : Indexed tables rows) (hfits : Fits tables rows) :
    insertSingly tables rows =
      if validateRows tables [] rows = .ok () then appendRows tables rows else none := by
  induction rows generalizing tables with
  | nil => rfl
  | cons ir rows ih =>
      have hindexed' : Indexed tables ([ir] ++ rows) := hindexed
      have hfits' : Fits tables ([ir] ++ rows) := hfits
      obtain ⟨middle, hmiddle⟩ := Option.isSome_iff_exists.mp
        ((isSome_appendRows_iff hindexed'.left).mpr hfits'.left)
      have hstep : appendRow tables ir = some middle := by
        rw [appendRows_cons] at hmiddle
        obtain ⟨next, hnext, hsame⟩ := Option.bind_eq_some_iff.mp hmiddle
        rw [hnext]
        exact hsame
      have hcut := validateRows_append hindexed' hfits' hmiddle
      have hrest := ih (hindexed'.rest hmiddle) (hfits'.rest hmiddle)
      rw [List.singleton_append] at hcut
      rw [insertSingly, hstep, Option.bind_some, hrest, appendRows_cons, hstep, Option.bind_some]
      have hsingle : validateBatchRows tables (InsertBatch.single ir) =
          validateRows tables [] [ir] := rfl
      rw [hsingle]
      by_cases hfirst : validateRows tables [] [ir] = .ok ()
      · simp [hfirst, hcut]
      · simp [hfirst, hcut]

/-- A batch may be cut anywhere, and down to its single rows. -/
theorem batch_split (a b : InsertBatch) (hcount : a.count + b.items.length ≤ maxBatchRows)
    (hindexed : Indexed tables (a.items ++ b.items)) (hfits : Fits tables (a.items ++ b.items)) :
    ∃ middle, appendRows tables a.items = some middle ∧
      (validateBatchRows tables (a.append b.items hcount) = .ok () ↔
        validateBatchRows tables a = .ok () ∧ validateBatchRows middle b = .ok ()) ∧
      (appendRows tables (a.items ++ b.items)).isSome ∧
      appendRows tables (a.items ++ b.items) = appendRows middle b.items ∧
      insertSingly tables (a.items ++ b.items) =
        if validateBatchRows tables (a.append b.items hcount) = .ok () then
          appendRows tables (a.items ++ b.items)
        else none := by
  obtain ⟨middle, hmiddle⟩ := Option.isSome_iff_exists.mp
    ((isSome_appendRows_iff hindexed.left).mpr hfits.left)
  refine ⟨middle, hmiddle, validateRows_append hindexed hfits hmiddle,
    (isSome_appendRows_iff hindexed).mpr hfits, ?_, insertSingly_eq hindexed hfits⟩
  rw [appendRows_append, hmiddle, Option.bind_some]

/-- Two rows for one table, cut between them. -/
theorem batch_split_plain :
    ∃ middle, appendRows plainTables [plainRow (lit "1")] = some middle ∧
      validateBatchRows middle (.single (plainRow (lit "2"))) = .ok () := by
  obtain ⟨middle, happend, hcut, -⟩ :=
    @batch_split plainTables (.single (plainRow (lit "1"))) (.single (plainRow (lit "2")))
      (by decide) (by decide +kernel) (by decide +kernel)
  exact ⟨middle, happend, (hcut.mp (by decide +kernel)).2⟩

end SqlCodeGenerator
