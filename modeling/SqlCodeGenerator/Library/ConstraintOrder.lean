import SqlCodeGenerator.Library.ConstraintStore

/-!
# The order in which rows are tested

What a test of rows one after the other owes to their order.  A row conflicts with an
equal value in a unique column of its table whichever of the two comes first; a reference
is only looked for in the rows before it.

* `admitsAll_iff_of_supported`: if the contents support every reference, rows are admitted
  exactly when each of them is and no two of them conflict;
* `admitsAll_everyOrder_iff`: rows are admitted in every order exactly when they are in one
  order and the contents support every reference of theirs.

The module names nothing of a particular program.
-/

namespace SqlCodeGenerator
namespace Library
namespace Schema

variable {ι κ ν : Type} {schema : Schema ι κ} {contents : ι → List (κ → Option ν)}

/-- The contents hold the value that each reference of the row asks for. -/
def Supports (schema : Schema ι κ) (contents : ι → List (κ → Option ν))
    (x : ι × (κ → Option ν)) : Prop :=
  ∀ k, schema.refers x.1 k → ∀ v, x.2 k = some v →
    ∃ place ∈ schema.target x.1 k, Occurs contents place.1 place.2 v

/-- Two rows of one table with the same value in a unique column. -/
def Conflict (schema : Schema ι κ) (x y : ι × (κ → Option ν)) : Prop :=
  x.1 = y.1 ∧ ∃ k v, schema.unique x.1 k ∧ x.2 k = some v ∧ y.2 k = some v

theorem Conflict.symm {x y : ι × (κ → Option ν)} (h : schema.Conflict x y) :
    schema.Conflict y x := by
  obtain ⟨htable, k, v, hunique, hx, hy⟩ := h
  exact ⟨htable.symm, k, v, htable ▸ hunique, hy, hx⟩

variable [DecidableEq ι] {x : ι × (κ → Option ν)} {xs : List (ι × (κ → Option ν))}

theorem Supports.insertRow (h : schema.Supports contents x) (y : ι × (κ → Option ν)) :
    schema.Supports (insertRow contents y) x := by
  intro k hrefers v hv
  obtain ⟨place, hplace, hoccurs⟩ := h k hrefers v hv
  exact ⟨place, hplace, hoccurs.insertRow y⟩

/-- A value occurs behind an insertion where it did before or in the inserted row. -/
theorem occurs_insertRow_iff {y : ι × (κ → Option ν)} {i : ι} {k : κ} {v : ν} :
    Occurs (Library.insertRow contents y) i k v ↔
      Occurs contents i k v ∨ (y.1 = i ∧ y.2 k = some v) := by
  unfold Occurs
  rw [insertRow_apply]
  by_cases hi : y.1 = i
  · simp only [hi, if_true, List.mem_append, List.mem_singleton, true_and]
    constructor
    · rintro ⟨row, hrow | rfl, hv⟩
      · exact Or.inl ⟨row, hrow, hv⟩
      · exact Or.inr hv
    · rintro (⟨row, hrow, hv⟩ | hv)
      · exact ⟨row, Or.inl hrow, hv⟩
      · exact ⟨y.2, Or.inr rfl, hv⟩
  · simp [hi]

/-- A supported row is admissible behind another one exactly when it is admissible in
front of it and the two do not conflict. -/
theorem admissible_insertRow_iff {y : ι × (κ → Option ν)} (h : schema.Supports contents x) :
    schema.Admissible (Library.insertRow contents y) x ↔
      schema.Admissible contents x ∧ ¬ schema.Conflict y x := by
  constructor
  · intro hadmissible
    refine ⟨⟨fun k hk v hv hoccurs => ?_, hadmissible.required, h⟩, ?_⟩
    · exact hadmissible.unique k hk v hv (hoccurs.insertRow y)
    · rintro ⟨htable, k, v, hunique, hy, hx⟩
      exact hadmissible.unique k (htable ▸ hunique) v hx
        (occurs_insertRow_iff.mpr (Or.inr ⟨htable, hy⟩))
  · rintro ⟨hadmissible, hconflict⟩
    refine ⟨fun k hk v hv hoccurs => ?_, hadmissible.required, h.insertRow y⟩
    rcases occurs_insertRow_iff.mp hoccurs with hbefore | ⟨htable, hy⟩
    · exact hadmissible.unique k hk v hv hbefore
    · exact hconflict ⟨htable, k, v, htable ▸ hk, hy, hv⟩

/-- Rows whose references the contents support are admitted exactly when each of them is
admissible and no two of them conflict. -/
theorem admitsAll_iff_of_supported (h : ∀ x ∈ xs, schema.Supports contents x) :
    AdmitsAll schema.Admissible contents xs ↔
      (∀ x ∈ xs, schema.Admissible contents x) ∧
        xs.Pairwise fun x y => ¬ schema.Conflict x y := by
  induction xs generalizing contents with
  | nil => simp [AdmitsAll]
  | cons x xs ih =>
      have hrest : ∀ y ∈ xs, schema.Supports contents y :=
        fun y hy => h y (List.mem_cons_of_mem x hy)
      rw [AdmitsAll, ih fun y hy => (hrest y hy).insertRow x, List.pairwise_cons]
      constructor
      · rintro ⟨hx, hadmissible, hpairwise⟩
        have hboth := fun y hy => (admissible_insertRow_iff (hrest y hy)).mp (hadmissible y hy)
        refine ⟨?_, fun y hy => (hboth y hy).2, hpairwise⟩
        intro y hy
        rcases List.mem_cons.mp hy with rfl | hy
        · exact hx
        · exact (hboth y hy).1
      · rintro ⟨hadmissible, hconflict, hpairwise⟩
        refine ⟨hadmissible x List.mem_cons_self, fun y hy => ?_, hpairwise⟩
        exact (admissible_insertRow_iff (hrest y hy)).mpr
          ⟨hadmissible y (List.mem_cons_of_mem x hy), hconflict y hy⟩

/-- Rows are admitted in every order exactly when they are in the given one and the
contents alone support every reference of theirs. -/
theorem admitsAll_everyOrder_iff :
    (∀ ys : List (ι × (κ → Option ν)), ys.Perm xs → AdmitsAll schema.Admissible contents ys) ↔
      AdmitsAll schema.Admissible contents xs ∧ ∀ x ∈ xs, schema.Supports contents x := by
  constructor
  · intro h
    refine ⟨h xs (List.Perm.refl xs), fun x hx => ?_⟩
    -- the order in which the row comes first
    obtain ⟨front, back, rfl⟩ := List.append_of_mem hx
    have hfirst : AdmitsAll schema.Admissible contents (x :: (front ++ back)) :=
      h _ List.perm_middle.symm
    exact hfirst.1.references
  · rintro ⟨hadmits, hsupports⟩ ys hperm
    have hsupports' : ∀ y ∈ ys, schema.Supports contents y :=
      fun y hy => hsupports y (hperm.mem_iff.mp hy)
    obtain ⟨hadmissible, hpairwise⟩ := (admitsAll_iff_of_supported hsupports).mp hadmits
    refine (admitsAll_iff_of_supported hsupports').mpr
      ⟨fun y hy => hadmissible y (hperm.mem_iff.mp hy), ?_⟩
    exact hperm.symm.pairwise hpairwise fun hxy hyx => hxy (Conflict.symm hyx)

/-- Rows of one table that are admitted have their references supported by the contents
when none of them leads into the table itself. -/
theorem supports_of_admitsAll {i : ι} (hrows : ∀ x ∈ xs, x.1 = i)
    (helsewhere : ∀ k, schema.refers i k → ∀ place ∈ schema.target i k, place.1 ≠ i)
    (h : AdmitsAll schema.Admissible contents xs) : ∀ x ∈ xs, schema.Supports contents x := by
  induction xs generalizing contents with
  | nil =>
      intro x hx
      cases hx
  | cons first xs ih =>
      intro x hx
      rcases List.mem_cons.mp hx with rfl | hx
      · exact h.1.references
      · intro k hrefers v hv
        have hrest := fun y hy => hrows y (List.mem_cons_of_mem first hy)
        obtain ⟨place, hplace, hoccurs⟩ := ih hrest h.2 x hx k hrefers v hv
        -- the first row is not in the table that is referred to
        refine ⟨place, hplace, (occurs_insertRow_iff.mp hoccurs).resolve_right fun hfirst => ?_⟩
        have htable := hrest x hx
        rw [htable] at hrefers hplace
        exact helsewhere k hrefers place hplace
          (hfirst.1.symm.trans (hrows first List.mem_cons_self))

end Schema
end Library
end SqlCodeGenerator
