import SqlCodeGenerator.Library.Arrays

/-!
# Tables with a free key

An array of records with keys, in which one key marks the places that are free.  A record is
stored at the first place that is free or has its key, and dropped where there is none; a
search comes to the first place with the key.

* `lookup_store_of_ne`, `lookup_erase_of_ne`: other keys are not affected;
* `store_cases`, `lookup_store`: a new key is found afterwards, or every place is taken;
* `keys_of_full`: then there are as many keys as places.

The module names nothing of a particular program.
-/

namespace SqlCodeGenerator
namespace Library
namespace KeyedTable

variable {α κ : Type} [DecidableEq κ] {size : Nat}

/-- The first place with a key. -/
def findKey (key : α → κ) (t : FixedArray α size) (k : κ) : Option (Fin size) :=
  (List.finRange size).find? fun place => decide (key (t.get place) = k)

/-- The record at the first place with a key. -/
def lookup (key : α → κ) (t : FixedArray α size) (k : κ) : Option α := (findKey key t k).map t.get

/-- A record is written over the first place that is free or has its key. -/
def store (key : α → κ) (free : κ) (t : FixedArray α size) (a : α) : FixedArray α size :=
  match (List.finRange size).find? fun place =>
      decide (key (t.get place) = free ∨ key (t.get place) = key a) with
  | none => t
  | some place => t.set place a

/-- The first place with a key becomes blank. -/
def erase (key : α → κ) (blank : α) (t : FixedArray α size) (k : κ) : FixedArray α size :=
  match findKey key t k with
  | none => t
  | some place => t.set place blank

/-- Some place has the key. -/
def Has (key : α → κ) (t : FixedArray α size) (k : κ) : Prop := ∃ place, key (t.get place) = k

/-- No two places in use have one key. -/
def Distinct (key : α → κ) (free : κ) (t : FixedArray α size) : Prop :=
  ∀ place other, key (t.get place) ≠ free → key (t.get place) = key (t.get other) → place = other

variable {key : α → κ} {free : κ} {t : FixedArray α size} {a blank : α} {k k' : κ}

/-! ## Searches -/

theorem key_of_findKey {place : Fin size} (h : findKey key t k = some place) :
    key (t.get place) = k :=
  FixedArray.of_find?_eq_some h

theorem lookup_eq_none_iff : lookup key t k = none ↔ ¬ Has key t k := by
  unfold lookup
  rw [Option.map_eq_none_iff]
  constructor
  · rintro h ⟨place, hplace⟩
    exact FixedArray.not_of_find?_eq_none h place hplace
  · intro h
    refine List.find?_eq_none.mpr fun place _ hplace => h ⟨place, ?_⟩
    exact of_decide_eq_true hplace

/-- A write to a place of another key. -/
theorem lookup_set_of_ne {place : Fin size} (hold : key (t.get place) ≠ k) (hnew : key a ≠ k) :
    lookup key (t.set place a) k = lookup key t k := by
  have hsame : ∀ other, (key ((t.set place a).get other) = k) ↔ (key (t.get other) = k) := by
    intro other
    rw [FixedArray.get_set]
    split
    · next heq =>
        rw [heq]
        exact iff_of_false hnew hold
    · rfl
  have hfind : findKey key (t.set place a) k = findKey key t k := by
    unfold findKey
    congr 1
    funext other
    exact decide_eq_decide.mpr (hsame other)
  unfold lookup
  rw [hfind]
  cases hfound : findKey key t k with
  | none => rfl
  | some other =>
      have hne : other ≠ place := by
        rintro rfl
        exact hold (key_of_findKey hfound)
      simp only [Option.map_some, FixedArray.get_set, if_neg hne]

/-- A write of a key that no other place has. -/
theorem lookup_set_self {place : Fin size}
    (hone : ∀ other, other ≠ place → key (t.get other) ≠ key a) :
    lookup key (t.set place a) (key a) = some a := by
  cases hfound : findKey key (t.set place a) (key a) with
  | none =>
      have hnot := FixedArray.not_of_find?_eq_none hfound place
      rw [FixedArray.get_set_self] at hnot
      exact absurd rfl hnot
  | some other =>
      have hkey := key_of_findKey hfound
      have heq : other = place := by
        by_contra hne
        rw [FixedArray.get_set, if_neg hne] at hkey
        exact hone other hne hkey
      rw [lookup, hfound, Option.map_some, heq, FixedArray.get_set_self]

/-! ## A record is stored -/

/-- A record is stored, or every place is taken by another key. -/
theorem store_cases (key : α → κ) (free : κ) (t : FixedArray α size) (a : α) :
    (store key free t a = t ∧ ∀ place, key (t.get place) ≠ free ∧ key (t.get place) ≠ key a) ∨
      ∃ place, (key (t.get place) = free ∨ key (t.get place) = key a) ∧
        store key free t a = t.set place a := by
  unfold store
  split
  · next hnone =>
      exact Or.inl ⟨rfl, fun place => not_or.mp (FixedArray.not_of_find?_eq_none hnone place)⟩
  · next place hplace => exact Or.inr ⟨place, FixedArray.of_find?_eq_some hplace, rfl⟩

theorem lookup_store_of_ne (hfree : k ≠ free) (hne : k ≠ key a) :
    lookup key (store key free t a) k = lookup key t k := by
  rcases store_cases key free t a with ⟨hsame, -⟩ | ⟨place, hold, hset⟩
  · rw [hsame]
  · rw [hset]
    refine lookup_set_of_ne (fun hkey => ?_) (Ne.symm hne)
    rcases hold with hold | hold
    · exact hfree (hkey.symm.trans hold)
    · exact hne (hkey.symm.trans hold)

/-- A new key is found afterwards, unless every place is taken. -/
theorem lookup_store (hnew : ¬ Has key t (key a)) :
    lookup key (store key free t a) (key a) = some a ∨
      lookup key (store key free t a) (key a) = none ∧ ∀ place, key (t.get place) ≠ free := by
  rcases store_cases key free t a with ⟨hsame, hfull⟩ | ⟨place, -, hset⟩
  · rw [hsame, lookup_eq_none_iff]
    exact Or.inr ⟨hnew, fun place => (hfull place).1⟩
  · rw [hset]
    exact Or.inl (lookup_set_self fun other _ hkey => hnew ⟨other, hkey⟩)

theorem has_store (h : Has key (store key free t a) k) : k = key a ∨ Has key t k := by
  rcases store_cases key free t a with ⟨hsame, -⟩ | ⟨place, -, hset⟩
  · rw [hsame] at h
    exact Or.inr h
  · obtain ⟨other, hother⟩ := h
    rw [hset, FixedArray.get_set] at hother
    split at hother
    · exact Or.inl hother.symm
    · exact Or.inr ⟨other, hother⟩

theorem Distinct.store (ht : Distinct key free t) (hnew : ¬ Has key t (key a)) :
    Distinct key free (store key free t a) := by
  rcases store_cases key free t a with ⟨hsame, -⟩ | ⟨place, -, hset⟩
  · rw [hsame]
    exact ht
  · rw [hset]
    intro first second hused heq
    rw [FixedArray.get_set] at hused heq
    rw [FixedArray.get_set] at heq
    split at heq <;> split at heq
    · next hfirst hsecond => rw [hfirst, hsecond]
    · exact absurd ⟨second, heq.symm⟩ hnew
    · exact absurd ⟨first, heq⟩ hnew
    · next hfirst _ =>
        rw [if_neg hfirst] at hused
        exact ht first second hused heq

/-! ## A key is erased -/

theorem erase_cases (key : α → κ) (blank : α) (t : FixedArray α size) (k : κ) :
    (erase key blank t k = t ∧ ¬ Has key t k) ∨
      ∃ place, key (t.get place) = k ∧ erase key blank t k = t.set place blank := by
  unfold erase
  split
  · next hnone =>
      refine Or.inl ⟨rfl, ?_⟩
      rintro ⟨place, hplace⟩
      exact FixedArray.not_of_find?_eq_none hnone place hplace
  · next place hplace => exact Or.inr ⟨place, key_of_findKey hplace, rfl⟩

theorem lookup_erase_of_ne (hblank : key blank = free) (hfree : k' ≠ free) (hne : k' ≠ k) :
    lookup key (erase key blank t k) k' = lookup key t k' := by
  rcases erase_cases key blank t k with ⟨hsame, -⟩ | ⟨place, hplace, hset⟩
  · rw [hsame]
  · rw [hset]
    exact lookup_set_of_ne (fun hkey => hne (hkey.symm.trans hplace))
      fun hkey => hfree (hkey.symm.trans hblank)

/-- An erased key is gone, and no other one is new. -/
theorem has_erase (ht : Distinct key free t) (hblank : key blank = free) (hfree : k' ≠ free)
    (h : Has key (erase key blank t k) k') : k' ≠ k ∧ Has key t k' := by
  rcases erase_cases key blank t k with ⟨hsame, hnone⟩ | ⟨place, hplace, hset⟩
  · rw [hsame] at h
    refine ⟨?_, h⟩
    rintro rfl
    exact hnone h
  · obtain ⟨other, hother⟩ := h
    rw [hset, FixedArray.get_set] at hother
    split at hother
    · exact absurd (hother.symm.trans hblank) hfree
    · next hne =>
        refine ⟨?_, other, hother⟩
        rintro rfl
        exact hne (ht other place (by rw [hother]; exact hfree) (hother.trans hplace.symm))

theorem Distinct.erase (ht : Distinct key free t) (hblank : key blank = free) :
    Distinct key free (erase key blank t k) := by
  rcases erase_cases key blank t k with ⟨hsame, -⟩ | ⟨place, -, hset⟩
  · rw [hsame]
    exact ht
  · rw [hset]
    intro first second hused heq
    rw [FixedArray.get_set] at hused heq
    rw [FixedArray.get_set] at heq
    split at heq <;> split at heq
    · next hfirst hsecond => rw [hfirst, hsecond]
    · next hfirst _ =>
        rw [if_pos hfirst] at hused
        exact absurd hblank hused
    · next hfirst _ =>
        rw [if_neg hfirst] at hused
        exact absurd (heq.trans hblank) hused
    · next hfirst _ =>
        rw [if_neg hfirst] at hused
        exact ht first second hused heq

/-! ## A full table -/

/-- Where every place is taken, there are as many keys as places. -/
theorem keys_of_full (ht : Distinct key free t) (hfull : ∀ place, key (t.get place) ≠ free) :
    ∃ keys : Finset κ, keys.card = size ∧ ∀ k ∈ keys, k ≠ free ∧ Has key t k := by
  refine ⟨Finset.univ.image fun place => key (t.get place), ?_, fun k hk => ?_⟩
  · rw [Finset.card_image_of_injective _ fun place other heq => ht place other (hfull place) heq,
      Finset.card_univ, Fintype.card_fin]
  · obtain ⟨place, -, rfl⟩ := Finset.mem_image.mp hk
    exact ⟨hfull place, place, rfl⟩

end KeyedTable
end Library
end SqlCodeGenerator
