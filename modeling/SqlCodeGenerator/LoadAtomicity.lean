import SqlCodeGenerator.LoadDerivations
import SqlCodeGenerator.Runs

/-!
# Failed loads

`load_er_json` sets `table_count` to zero before it looks at the entries of the
`tables` array, and writes every table as it reads it.  The exits before that
point leave the state alone; an exit at an entry leaves the tables of the entries
before it.

* `loadErJson_error_unchanged_iff`: exactly when a failed load leaves the state as
  it was.
* `brokenLoad_dropsTables`: a failed load that does not.
-/

namespace SqlCodeGenerator

open Library

/-- The document and the entries of its `tables` array, where the load comes to
them: the file can be read, cJSON accepts it, and there is such an array. -/
def tableEntries (cjsonParse : List UInt8 → Option CJson) (file : ErFile) :
    Option (CJson × List CJson) :=
  match readJsonFile file with
  | .error _ => none
  | .ok json => do
      let root ← cjsonParse json
      let entries ← root.getArray (lit "tables")
      some (root, entries)

/-- The entries before the first malformed one. -/
def wellFormedEntries (entries : List CJson) : List CJson :=
  entries.takeWhile fun entry => (loadTableJson entry).isOk

/-- The load does not come to the entries, or the tables that the well-formed
ones describe are the tables of the state. -/
def LeavesTables (cjsonParse : List UInt8 → Option CJson) (state : SharedState)
    (file : ErFile) : Prop :=
  ∀ root entries, tableEntries cjsonParse file = some (root, entries) →
    TablesLoaded (wellFormedEntries entries) state.tables.items

/-- A load that does not come to the entries fails and touches nothing. -/
theorem loadErJson_of_no_entries {cjsonParse : List UInt8 → Option CJson} {file : ErFile}
    (state : SharedState) (h : tableEntries cjsonParse file = none) :
    ∃ message, loadErJson cjsonParse state file = (state, .error message) := by
  unfold tableEntries at h
  unfold loadErJson
  cases hread : readJsonFile file with
  | error message => exact ⟨message, rfl⟩
  | ok json =>
      cases hparse : cjsonParse json with
      | none => simp [hparse]
      | some root =>
          cases hentries : root.getArray (lit "tables") with
          | none => simp [hparse, hentries]
          | some entries => simp [hread, hparse, hentries] at h

/-- A load that comes to the entries is what is made of them. -/
theorem loadErJson_of_entries {cjsonParse : List UInt8 → Option CJson} {file : ErFile}
    {root : CJson} {entries : List CJson} (state : SharedState)
    (h : tableEntries cjsonParse file = some (root, entries)) :
    loadErJson cjsonParse state file = loadEntries state root entries := by
  unfold tableEntries at h
  unfold loadErJson
  cases hread : readJsonFile file with
  | error message => simp [hread] at h
  | ok json =>
      simp only [hread, Option.bind_eq_bind, Option.bind_eq_some_iff, Option.some.injEq,
        Prod.mk.injEq] at h
      obtain ⟨root', hparse, entries', hentries, rfl, rfl⟩ := h
      simp [hparse, hentries]

/-- The entries read before an exit are the well-formed ones. -/
theorem wellFormedEntries_of_exit {done rest : List CJson} {entry : CJson} {message : CString}
    {tables : List Table} (hdone : TablesLoaded done tables)
    (hexit : loadTableJson entry = .error message) :
    wellFormedEntries (done ++ entry :: rest) = done := by
  unfold wellFormedEntries TablesLoaded CountedArray.ReadsAs at *
  induction hdone with
  | nil => simp [hexit, Except.isOk, Except.toBool]
  | cons hfirst _ ih =>
      rw [List.cons_append, List.takeWhile_cons_of_pos (by
        simp [hfirst, Except.isOk, Except.toBool]), ih]

/-- What a load that stops at an entry leaves: the tables of the entries before
the first malformed one, in the place of those loaded before. -/
theorem loadEntries_eq_error {state : SharedState} {root : CJson} {entries : List CJson}
    {message : CString} (h : (loadEntries state root entries).2 = .error message) :
    ∃ tables : Tables, TablesLoaded (wellFormedEntries entries) tables.items ∧
      (loadEntries state root entries).1 = { state with tables := tables } := by
  unfold loadEntries at h ⊢
  split
  · next tables message' hload =>
      obtain ⟨done, entry, rest, items, rfl, hread, hexit, hitems⟩ :=
        CountedArray.fill_eq_error hload
      rw [CountedArray.items_empty, List.nil_append] at hitems
      refine ⟨tables, ?_, rfl⟩
      rw [wellFormedEntries_of_exit hread hexit, hitems]
      exact hread
  · next hload =>
      rw [hload] at h
      cases h

/-- A failed load leaves the state as it was exactly when it does not come to the
entries, or the state holds the very tables that the entries before the first
malformed one describe. -/
theorem loadErJson_error_unchanged_iff {cjsonParse : List UInt8 → Option CJson}
    {state : SharedState} {file : ErFile} {message : CString}
    (hfail : (loadErJson cjsonParse state file).2 = .error message) :
    (loadErJson cjsonParse state file).1 = state ↔ LeavesTables cjsonParse state file := by
  unfold LeavesTables
  cases hentries : tableEntries cjsonParse file with
  | none =>
      obtain ⟨message', hload⟩ := loadErJson_of_no_entries state hentries
      simp [hload]
  | some found =>
      obtain ⟨root, entries⟩ := found
      rw [loadErJson_of_entries state hentries] at hfail ⊢
      obtain ⟨tables, hloaded, hstate⟩ := loadEntries_eq_error hfail
      rw [hstate]
      -- the state left differs from the state before at most in its tables
      constructor
      · intro hsame root' entries' hfound
        obtain ⟨rfl, rfl⟩ := Prod.mk.inj (Option.some.inj hfound)
        have htables : tables = state.tables := congrArg SharedState.tables hsame
        rw [← htables]
        exact hloaded
      · intro h
        have htables : tables = state.tables :=
          CountedArray.ext (CountedArray.ReadsAs.unique hloaded (h root entries rfl))
        rw [htables]

/-! ### A document whose first entry is no object -/

/-- The text of the document. -/
def brokenText : List UInt8 := (lit "\x7b\"tables\":[1]\x7d").map Subtype.val

/-- The answer of cJSON on that text. -/
def brokenParse (json : List UInt8) : Option CJson :=
  if json = brokenText then some (.object [(lit "tables", .array [.number 1])]) else none

theorem tableEntries_broken :
    tableEntries brokenParse (.holding brokenText) =
      some (.object [(lit "tables", .array [.number 1])], [.number 1]) := by
  rfl

/-- Where no table is loaded, the failed load changes nothing. -/
theorem brokenLoad_unchanged :
    (loadErJson brokenParse (stateInit 0) (.holding brokenText)).1 = stateInit 0 := by
  have hfail : (loadErJson brokenParse (stateInit 0) (.holding brokenText)).2 =
      .error (lit "table entry must be object") := by
    rw [loadErJson_of_entries _ tableEntries_broken]
    rfl
  refine (loadErJson_error_unchanged_iff hfail).mpr fun root entries hfound => ?_
  rw [tableEntries_broken] at hfound
  obtain ⟨rfl, rfl⟩ := Prod.mk.inj (Option.some.inj hfound)
  exact List.Forall₂.nil

/-- With two tables loaded, the document is refused and no table is left. -/
theorem brokenLoad_dropsTables :
    (loadErJson sampleParse (stateInit 0) (.holding sampleText)).1.tables.count = 2 ∧
    (loadErJson brokenParse (loadErJson sampleParse (stateInit 0) (.holding sampleText)).1
      (.holding brokenText)).2 = .error (lit "table entry must be object") ∧
    (loadErJson brokenParse (loadErJson sampleParse (stateInit 0) (.holding sampleText)).1
      (.holding brokenText)).1.tables.count = 0 := by
  decide +kernel

end SqlCodeGenerator
