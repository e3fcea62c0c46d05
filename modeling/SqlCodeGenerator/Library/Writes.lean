import Mathlib.Tactic

/-!
# Assignments in order

Keys are assigned values one after the other, and a later assignment takes the place of
an earlier one.

* `lastWrite`: the value of a key afterwards;
* `lastWrite_eq_iff`: when that is a given value, said of the assignments;
* `foldl_getD`: things some of which give a value, taken one after the other.

The module names nothing of a particular program.
-/

namespace SqlCodeGenerator
namespace Library

variable {κ ν : Type} [DecidableEq κ]

/-- The value of a key after the assignments, which had the value `d` before. -/
def lastWrite (k : κ) : ν → List (κ × ν) → ν
  | d, [] => d
  | d, (k', v) :: writes => lastWrite k (if k' = k then v else d) writes

variable {k : κ} {d v : ν} {writes : List (κ × ν)}

@[simp] theorem lastWrite_nil : lastWrite k d [] = d := rfl

theorem lastWrite_append (writes' : List (κ × ν)) :
    lastWrite k d (writes ++ writes') = lastWrite k (lastWrite k d writes) writes' := by
  induction writes generalizing d with
  | nil => rfl
  | cons write writes ih => exact ih

/-- A key that is not assigned keeps its value. -/
theorem lastWrite_of_notMem (h : ∀ n, (k, n) ∉ writes) : lastWrite k d writes = d := by
  induction writes with
  | nil => rfl
  | cons write writes ih =>
      obtain ⟨k', n⟩ := write
      have hne : k' ≠ k := by
        rintro rfl
        exact h n List.mem_cons_self
      rw [lastWrite, if_neg hne]
      exact ih fun n hmem => h n (List.mem_cons_of_mem _ hmem)

/-- What is assigned last, if anything is. -/
theorem lastWrite_cases (k : κ) (d : ν) (writes : List (κ × ν)) :
    (lastWrite k d writes = d ∧ ∀ n, (k, n) ∉ writes) ∨
      ∃ before after, writes = before ++ (k, lastWrite k d writes) :: after ∧
        ∀ n, (k, n) ∉ after := by
  induction writes using List.reverseRecOn with
  | nil => exact Or.inl ⟨rfl, fun n hn => (by cases hn)⟩
  | append_singleton writes write ih =>
      obtain ⟨k', n⟩ := write
      have hlast : lastWrite k d (writes ++ [(k', n)]) =
          if k' = k then n else lastWrite k d writes := by
        rw [lastWrite_append]
        rfl
      by_cases hk : k' = k
      · subst hk
        rw [hlast, if_pos rfl]
        exact Or.inr ⟨writes, [], rfl, fun n hn => (by cases hn)⟩
      · have hother : ∀ n', (k, n') ∉ [(k', n)] := by
          intro n' hn'
          exact hk (congrArg Prod.fst (List.mem_singleton.mp hn')).symm
        rw [hlast, if_neg hk]
        rcases ih with ⟨hsame, hnone⟩ | ⟨before, after, hwrites, hnone⟩
        · refine Or.inl ⟨hsame, fun n' hn' => ?_⟩
          exact (List.mem_append.mp hn').elim (hnone n') (hother n')
        · refine Or.inr ⟨before, after ++ [(k', n)], ?_, fun n' hn' => ?_⟩
          · rw [← List.cons_append, ← List.append_assoc, ← hwrites]
          · exact (List.mem_append.mp hn').elim (hnone n') (hother n')

/-- A value that the key did not have before has been assigned. -/
theorem lastWrite_mem (h : lastWrite k d writes ≠ d) : (k, lastWrite k d writes) ∈ writes := by
  rcases lastWrite_cases k d writes with ⟨hsame, -⟩ | ⟨before, after, hwrites, -⟩
  · exact absurd hsame h
  · have hmem : (k, lastWrite k d writes) ∈ before ++ (k, lastWrite k d writes) :: after :=
      List.mem_append_right _ List.mem_cons_self
    rwa [← hwrites] at hmem

/-- A key has a value afterwards exactly if that is assigned unless it was the value
before, and every assignment of another value is followed by one of it. -/
theorem lastWrite_eq_iff :
    lastWrite k d writes = v ↔
      (v ≠ d → (k, v) ∈ writes) ∧
        ∀ before n after, writes = before ++ (k, n) :: after → n ≠ v → (k, v) ∈ after := by
  constructor
  · rintro rfl
    refine ⟨lastWrite_mem, fun before n after hwrites hne => ?_⟩
    -- the assignments behind this one decide
    have hafter : lastWrite k d writes = lastWrite k n after := by
      rw [hwrites, lastWrite_append, lastWrite, if_pos rfl]
    rw [hafter] at hne ⊢
    exact lastWrite_mem hne.symm
  · rintro ⟨hset, hlater⟩
    rcases lastWrite_cases k d writes with ⟨hsame, hnone⟩ | ⟨before, after, hwrites, hnone⟩
    · by_contra hne
      rw [hsame] at hne
      exact hnone v (hset fun heq => hne heq.symm)
    · by_contra hne
      exact hnone v (hlater before _ after hwrites hne)

/-- The same for a list of things some of which assign a key. -/
theorem lastWrite_filterMap_eq_iff {α : Type} {f : α → Option (κ × ν)} {l : List α} :
    lastWrite k d (l.filterMap f) = v ↔
      (v ≠ d → ∃ a ∈ l, f a = some (k, v)) ∧
        ∀ before a n after, l = before ++ a :: after → f a = some (k, n) → n ≠ v →
          ∃ a' ∈ after, f a' = some (k, v) := by
  rw [lastWrite_eq_iff, List.mem_filterMap]
  refine and_congr_right fun _ => ⟨fun hlater before a n after hl ha hne => ?_,
    fun hlater before n after hwrites hne => ?_⟩
  · refine List.mem_filterMap.mp (hlater (before.filterMap f) n _ ?_ hne)
    rw [hl, List.filterMap_append, List.filterMap_cons_some ha]
  · obtain ⟨before', rest, rfl, -, hrest⟩ := List.filterMap_eq_append_iff.mp hwrites
    obtain ⟨silent, a, after', rfl, -, ha, rfl⟩ := List.filterMap_eq_cons_iff.mp hrest
    refine List.mem_filterMap.mpr (hlater (before' ++ silent) a n after' ?_ ha hne)
    rw [List.append_assoc]

/-- Where each thing may give a new value, the last one that is given stays. -/
theorem foldl_getD {α : Type} (f : α → Option ν) (d : ν) (l : List α) :
    l.foldl (fun v a => (f a).getD v) d = ((l.filterMap f).getLast?).getD d := by
  induction l using List.reverseRecOn with
  | nil => rfl
  | append_singleton l a ih =>
      rw [List.foldl_append, ih, List.filterMap_append]
      cases ha : f a with
      | none => simp [ha]
      | some v => simp [ha]

end Library
end SqlCodeGenerator
