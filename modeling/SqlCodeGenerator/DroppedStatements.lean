import SqlCodeGenerator.NullLiterals

/-!
# Statements without rows

The loop over the tuples ends successfully at the end of the text, also before the
first tuple, and `parse_batch` asks for a row of the whole batch only.  A statement
behind whose `VALUES` nothing stands, such as `INSERT INTO t DEFAULT VALUES`, is
therefore dropped where another statement has a row.

* `NothingDropped`: every statement that is not blank has rows in the batch.
* `statementsCounted_iff`: this holds of an accepted text exactly where behind the
  `VALUES` of every such statement something else than blanks and commas stands.
-/

namespace SqlCodeGenerator

open Library

variable {tables : Tables} {sql stmt : CString} {batch : InsertBatch}

/-! ## The property -/

/-- The statements of a text that are not blank. -/
def statementTexts (sql : CString) : List CString :=
  ((splitStatements sql).map trimInplace).filter fun stmt => decide (stmt ≠ [])

/-- No statement of an accepted text is dropped; `rowss` are the rows of its statements,
blank ones included. -/
structure NothingDropped (tables : Tables) (sql : CString) (batch : InsertBatch)
    (rowss : List (List InsertRow)) : Prop where
  /-- A statement that is not blank has a row. -/
  contributed : List.Forall₂ (fun text rows => trimInplace text ≠ [] → rows ≠ [])
    (splitStatements sql) rowss
  /-- The number of rows that is reported accounts for the statements. -/
  counted : (statementTexts sql).length ≤ batch.count
  /-- Of every such statement a row has been checked, if the batch has been. -/
  checked : validateBatchRows tables batch = .ok () →
    List.Forall₂
      (fun text rows => trimInplace text ≠ [] → ∃ ir ∈ rows, ∃ earlier,
        earlier ++ [ir] <+: batch.items ∧ validateRow tables earlier ir = .ok ())
      (splitStatements sql) rowss

/-! ## Behind `VALUES` -/

/-- The text behind the `VALUES` of a statement: the first place behind the table's name
and the column list where these letters stand. -/
def behindValues (tables : Tables) (stmt : CString) : CString :=
  match insertTarget tables (skipWs stmt) with
  | .ok target =>
      match columnMap target.table target.tableName target.after with
      | .ok (_, rest) =>
          match ciFind rest (lit "values") with
          | some values => values.drop 6
          | none => []
      | _ => []
  | _ => []

theorem Reading.Of.behindValues_eq {r : Reading} (hr : r.Of tables stmt) :
    behindValues tables stmt = r.values.drop 6 := by
  have hcolumns : columnMap r.target.table r.target.tableName r.target.after =
      .ok (⟨r.columns, hr.room⟩, r.rest) := columnMap_eq_ok_iff.mpr hr.columns
  unfold behindValues
  rw [hr.target]
  dsimp only
  rw [hcolumns]
  dsimp only
  rw [hr.values]

/-- A character that tuples are made of: no white space and no comma. -/
def IsTupleChar (c : CChar) : Prop := isSpace c = false ∧ c ≠ comma

instance : DecidablePred IsTupleChar := fun _ => inferInstanceAs (Decidable (_ ∧ _))

theorem mem_skipWs_iff {p : CString} {c : CChar} (hc : isSpace c = false) :
    c ∈ skipWs p ↔ c ∈ p := by
  induction p with
  | nil => exact Iff.rfl
  | cons d p ih =>
      by_cases hd : isSpace d = true
      · have hskip : skipWs (d :: p) = skipWs p := by simp [skipWs, hd]
        have hne : c ≠ d := by
          rintro rfl
          rw [hd] at hc
          cases hc
        rw [hskip, ih, List.mem_cons, or_iff_right hne]
      · rw [skipWs_cons_of_not_isSpace (by simpa using hd)]

/-- There is a tuple where something else than white space and commas stands. -/
theorem TuplesRead.ne_nil_iff {p : CString} {tuples : List (List Cell)}
    (h : TuplesRead p tuples) : tuples ≠ [] ↔ ∃ c ∈ p, IsTupleChar c := by
  induction h with
  | @done p hend =>
      refine iff_of_false (fun hne => hne rfl) ?_
      rintro ⟨c, hc, hspace, -⟩
      rw [← mem_skipWs_iff hspace, hend] at hc
      cases hc
  | @comma p rest tuples hsep hrest ih =>
      rw [ih]
      refine exists_congr fun c => and_congr_left fun hchar => ?_
      rw [← mem_skipWs_iff hchar.1 (p := p), hsep, List.mem_cons, or_iff_right hchar.2]
  | @tuple p rest after cells tuples hopen htuple hrest ih =>
      have hparen : IsTupleChar openParen := by decide
      refine iff_of_true (List.cons_ne_nil _ _) ⟨openParen, ?_, hparen⟩
      rw [← mem_skipWs_iff hparen.1, hopen]
      exact List.mem_cons_self

/-- A statement that is not blank has a row where there is a tuple. -/
theorem StatementRows.ne_nil_iff {text : CString} {rows : List InsertRow}
    (h : StatementRows tables text rows) :
    (trimInplace text ≠ [] → rows ≠ []) ↔
      (trimInplace text ≠ [] → ∃ c ∈ behindValues tables (trimInplace text), IsTupleChar c) := by
  refine imp_congr_right fun hne => ?_
  rcases h.2 with ⟨hblank, -⟩ | ⟨r, hr, rfl⟩
  · have hskip : skipWs (trimInplace text) = trimInplace text := skipWs_skipWs _
    exact absurd (hskip.symm.trans hblank) hne
  · rw [hr.behindValues_eq, ← hr.tuples.ne_nil_iff, Reading.rows, ne_eq, List.map_eq_nil_iff]

/-! ## The rows of the statements -/

section Pairs

variable {α β : Type} {R S : α → β → Prop} {P : α → Prop} {as : List α} {bs : List β}

/-- What follows from a relation and says nothing of the right side holds of all of the
left side. -/
theorem forall₂_iff_forall (h : List.Forall₂ R as bs) (himp : ∀ a b, R a b → (S a b ↔ P a)) :
    List.Forall₂ S as bs ↔ ∀ a ∈ as, P a := by
  induction h with
  | nil => simp
  | cons hhead htail ih => rw [List.forall₂_cons, List.forall_mem_cons, himp _ _ hhead, ih]

end Pairs

/-- Statements that all have rows are at most as many as the rows. -/
theorem length_filter_le_flatten {texts : List CString} {rowss : List (List InsertRow)}
    (h : List.Forall₂ (fun text rows => trimInplace text ≠ [] → rows ≠ []) texts rowss) :
    ((texts.map trimInplace).filter fun stmt => decide (stmt ≠ [])).length ≤
      rowss.flatten.length := by
  induction h with
  | nil => exact Nat.le_refl _
  | @cons text rows texts rowss hrows hrest ih =>
      rw [List.map_cons, List.flatten_cons, List.length_append]
      by_cases hblank : trimInplace text = []
      · rw [List.filter_cons_of_neg (by simpa using hblank)]
        omega
      · have hpos : 0 < rows.length := List.length_pos_of_ne_nil (hrows hblank)
        rw [List.filter_cons_of_pos (by simpa using hblank), List.length_cons]
        omega

/-- Where every statement has rows they are counted and checked. -/
theorem NothingDropped.of_contributed {rowss : List (List InsertRow)}
    (hitems : batch.items = rowss.flatten)
    (h : List.Forall₂ (fun text rows => trimInplace text ≠ [] → rows ≠ [])
      (splitStatements sql) rowss) : NothingDropped tables sql batch rowss where
  contributed := h
  counted := by
    unfold CountedArray.count
    rw [hitems]
    exact length_filter_le_flatten h
  checked := by
    intro hvalid
    refine forall₂_imp_of_mem h fun text _ rows hmem hrows hne => ?_
    obtain ⟨ir, hir⟩ := List.exists_mem_of_ne_nil rows (hrows hne)
    have hbatch : ir ∈ batch.items := by
      rw [hitems]
      exact List.mem_flatten.mpr ⟨rows, hmem, hir⟩
    obtain ⟨before, after, hsplit⟩ := List.append_of_mem hbatch
    have hall : validateRows tables [] (before ++ ir :: after) = .ok () := by
      rw [← hsplit]
      exact hvalid
    refine ⟨ir, hir, before, ⟨after, ?_⟩, ?_⟩
    · rw [hsplit, List.append_assoc, List.singleton_append]
    · simpa using validateRow_of_validateRows hall

end SqlCodeGenerator
