import Mathlib.Data.List.Basic
import Mathlib.Logic.Function.Basic
import Mathlib.Tactic

/-!
# Append-only stores with integrity constraints

A store keeps, for every table of an index type, the rows inserted into it, in
order.  A row gives every column a value or nothing.  A schema says which
columns are unique, which must have a value, and which refer to a column of
another table.

`Admissible` is the test of one row against the present contents, `AdmitsAll`
the test of a list of rows, each against the contents with the rows before it
inserted.  The laws:

* the test of a concatenation is the test of the first part, and the test of
  the second part against the contents the first part leaves
  (`admitsAll_append`);
* rows that pass the test keep the contents consistent
  (`AdmitsAll.consistent`).

Nothing is said about how many tables, columns or rows there are, and the
module names nothing of a particular program.
-/

namespace SqlCodeGenerator
namespace Library

variable {ι κ ν ρ : Type} [DecidableEq ι]

/-! ## Contents -/

/-- The contents with one row appended to its table. -/
def insertRow (contents : ι → List ρ) (x : ι × ρ) : ι → List ρ :=
  Function.update contents x.1 (contents x.1 ++ [x.2])

/-- The contents with a list of rows appended, each to its table. -/
def insertAll (contents : ι → List ρ) (xs : List (ι × ρ)) : ι → List ρ :=
  xs.foldl insertRow contents

@[simp] theorem insertAll_nil (contents : ι → List ρ) : insertAll contents [] = contents :=
  rfl

@[simp] theorem insertAll_cons (contents : ι → List ρ) (x : ι × ρ) (xs : List (ι × ρ)) :
    insertAll contents (x :: xs) = insertAll (insertRow contents x) xs := rfl

theorem insertAll_append (contents : ι → List ρ) (xs ys : List (ι × ρ)) :
    insertAll contents (xs ++ ys) = insertAll (insertAll contents xs) ys :=
  List.foldl_append

theorem insertRow_apply (contents : ι → List ρ) (x : ι × ρ) (i : ι) :
    insertRow contents x i =
      contents i ++ (if x.1 = i then [x.2] else []) := by
  unfold insertRow
  by_cases h : x.1 = i
  · subst h
    simp
  · rw [Function.update_of_ne (Ne.symm h), if_neg h, List.append_nil]

/-- A table holds what it held, followed by its own share of the new rows. -/
theorem insertAll_apply (contents : ι → List ρ) (xs : List (ι × ρ)) (i : ι) :
    insertAll contents xs i =
      contents i ++ (xs.filter fun x => x.1 = i).map Prod.snd := by
  induction xs generalizing contents with
  | nil => simp
  | cons x xs ih =>
      rw [insertAll_cons, ih, insertRow_apply, List.append_assoc]
      by_cases h : x.1 = i <;> simp [h]

/-! ## Testing row after row -/

section Admission

variable (admissible : (ι → List ρ) → ι × ρ → Prop)

/-- Every row passes the test against the contents with the rows before it. -/
def AdmitsAll : (ι → List ρ) → List (ι × ρ) → Prop
  | _, [] => True
  | contents, x :: xs =>
      admissible contents x ∧ AdmitsAll (insertRow contents x) xs

variable {admissible}

/-- Testing a concatenation is testing the parts one after the other. -/
theorem admitsAll_append {contents : ι → List ρ} {xs ys : List (ι × ρ)} :
    AdmitsAll admissible contents (xs ++ ys) ↔
      AdmitsAll admissible contents xs ∧
        AdmitsAll admissible (insertAll contents xs) ys := by
  induction xs generalizing contents with
  | nil => simp [AdmitsAll]
  | cons x xs ih =>
      simp only [List.cons_append, AdmitsAll, insertAll_cons, ih, and_assoc]

/-- What every admissible row preserves, an admitted list of rows preserves. -/
theorem AdmitsAll.preserves {invariant : (ι → List ρ) → Prop}
    (hstep : ∀ contents x, invariant contents → admissible contents x →
      invariant (insertRow contents x))
    {contents : ι → List ρ} {xs : List (ι × ρ)}
    (hadmits : AdmitsAll admissible contents xs) (h : invariant contents) :
    invariant (insertAll contents xs) := by
  induction xs generalizing contents with
  | nil => exact h
  | cons x xs ih =>
      obtain ⟨hx, hxs⟩ := hadmits
      exact ih hxs (hstep contents x h hx)

/-- A weaker test admits the same rows. -/
theorem AdmitsAll.mono {weaker : (ι → List ρ) → ι × ρ → Prop}
    (h : ∀ contents x, admissible contents x → weaker contents x) {contents : ι → List ρ}
    {xs : List (ι × ρ)} (hadmits : AdmitsAll admissible contents xs) :
    AdmitsAll weaker contents xs := by
  induction xs generalizing contents with
  | nil => trivial
  | cons x xs ih => exact ⟨h contents x hadmits.1, ih hadmits.2⟩

end Admission

/-! ## Schemas -/

/-- The constraints of a store with tables `ι` and columns `κ`.  A column that
refers somewhere may refer to nothing that exists: then `target` is empty. -/
structure Schema (ι κ : Type) where
  unique : ι → κ → Prop
  required : ι → κ → Prop
  refers : ι → κ → Prop
  target : ι → κ → Set (ι × κ)

namespace Schema

variable (schema : Schema ι κ)

/-- Some row of a table has the value in the column. -/
def Occurs (contents : ι → List (κ → Option ν)) (i : ι) (k : κ) (v : ν) : Prop :=
  ∃ row ∈ contents i, row k = some v

/-- The three constraints, for the contents as a whole. -/
structure Consistent (contents : ι → List (κ → Option ν)) : Prop where
  unique : ∀ i k, schema.unique i k →
    (contents i).Pairwise fun row later => ∀ v, row k = some v → later k ≠ some v
  required : ∀ i k, schema.required i k → ∀ row ∈ contents i, row k ≠ none
  references : ∀ i k, schema.refers i k → ∀ row ∈ contents i, ∀ v, row k = some v →
    ∃ place ∈ schema.target i k, Occurs contents place.1 place.2 v

/-- The test of one row against the contents. -/
structure Admissible (contents : ι → List (κ → Option ν)) (x : ι × (κ → Option ν)) :
    Prop where
  unique : ∀ k, schema.unique x.1 k → ∀ v, x.2 k = some v → ¬ Occurs contents x.1 k v
  required : ∀ k, schema.required x.1 k → x.2 k ≠ none
  references : ∀ k, schema.refers x.1 k → ∀ v, x.2 k = some v →
    ∃ place ∈ schema.target x.1 k, Occurs contents place.1 place.2 v

variable {schema}

omit [DecidableEq ι] in
/-- A schema with fewer constraints admits the same rows. -/
theorem Admissible.weaken {schema' : Schema ι κ}
    (hunique : ∀ i k, schema'.unique i k → schema.unique i k)
    (hrequired : ∀ i k, schema'.required i k → schema.required i k)
    (hrefers : ∀ i k, schema'.refers i k →
      schema.refers i k ∧ schema.target i k ⊆ schema'.target i k)
    {contents : ι → List (κ → Option ν)} {x : ι × (κ → Option ν)}
    (h : schema.Admissible contents x) : schema'.Admissible contents x := by
  refine ⟨fun k hk => h.unique k (hunique _ _ hk), fun k hk => h.required k (hrequired _ _ hk), ?_⟩
  intro k hk v hv
  obtain ⟨hrefer, htarget⟩ := hrefers _ _ hk
  obtain ⟨place, hplace, hoccurs⟩ := h.references k hrefer v hv
  exact ⟨place, htarget hplace, hoccurs⟩

theorem Occurs.insertRow {contents : ι → List (κ → Option ν)} {i : ι} {k : κ} {v : ν}
    (h : Occurs contents i k v) (x : ι × (κ → Option ν)) :
    Occurs (insertRow contents x) i k v := by
  obtain ⟨row, hrow, hv⟩ := h
  exact ⟨row, by rw [insertRow_apply]; exact List.mem_append_left _ hrow, hv⟩

omit [DecidableEq ι] in
/-- Empty contents satisfy every constraint. -/
theorem consistent_of_empty {contents : ι → List (κ → Option ν)}
    (hempty : ∀ i, contents i = []) : schema.Consistent contents where
  unique := by
    intro i k _
    rw [hempty]
    exact List.Pairwise.nil
  required := by
    intro i k _ row hrow
    rw [hempty] at hrow
    cases hrow
  references := by
    intro i k _ row hrow
    rw [hempty] at hrow
    cases hrow

/-- One admissible row keeps the contents consistent. -/
theorem Consistent.insertRow {contents : ι → List (κ → Option ν)}
    {x : ι × (κ → Option ν)} (h : schema.Consistent contents)
    (hx : schema.Admissible contents x) : schema.Consistent (insertRow contents x) := by
  obtain ⟨table, row⟩ := x
  refine ⟨?_, ?_, ?_⟩
  · intro i k hunique
    rw [insertRow_apply]
    by_cases hi : table = i
    · subst hi
      rw [if_pos rfl, List.pairwise_append]
      refine ⟨h.unique table k hunique, List.pairwise_singleton _ _, ?_⟩
      -- the new row stands behind all others, so it is the later one of each new pair
      intro old hold new hnew v hv hnewv
      rw [List.mem_singleton.mp hnew] at hnewv
      exact hx.unique k hunique v hnewv ⟨old, hold, hv⟩
    · rw [if_neg hi, List.append_nil]
      exact h.unique i k hunique
  · intro i k hrequired r hr
    rw [insertRow_apply] at hr
    rcases List.mem_append.mp hr with hr | hr
    · exact h.required i k hrequired r hr
    · by_cases hi : table = i
      · subst hi
        rw [if_pos rfl, List.mem_singleton] at hr
        subst hr
        exact hx.required k hrequired
      · rw [if_neg hi] at hr
        cases hr
  · intro i k hrefers r hr v hv
    rw [insertRow_apply] at hr
    -- a value referred to was there before the row, and rows are only added
    have htarget : ∃ place ∈ schema.target i k, Occurs contents place.1 place.2 v := by
      rcases List.mem_append.mp hr with hr | hr
      · exact h.references i k hrefers r hr v hv
      · by_cases hi : table = i
        · subst hi
          rw [if_pos rfl, List.mem_singleton] at hr
          subst hr
          exact hx.references k hrefers v hv
        · rw [if_neg hi] at hr
          cases hr
    obtain ⟨place, hplace, hoccurs⟩ := htarget
    exact ⟨place, hplace, hoccurs.insertRow _⟩

/-- A list of rows that passes the test keeps the contents consistent. -/
theorem AdmitsAll.consistent {contents : ι → List (κ → Option ν)}
    {xs : List (ι × (κ → Option ν))} (hadmits : AdmitsAll schema.Admissible contents xs)
    (h : schema.Consistent contents) : schema.Consistent (insertAll contents xs) :=
  hadmits.preserves (fun _ _ hcontents hx => hcontents.insertRow hx) h

end Schema

end Library
end SqlCodeGenerator
