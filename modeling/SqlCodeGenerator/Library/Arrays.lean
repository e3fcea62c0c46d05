import Mathlib.Tactic

/-!
# C arrays with their sizes

Two shapes of array carry all the storage of a C program of this kind:

* `CountedArray`: a count beside an array of fixed capacity, of which the first
  `count` places are in use.  The capacity bound is a field, so an array that
  holds more than it has room for cannot be built; `push?` answers `none` where
  the C write would land outside the array, and `fill` is the loop that reads
  entries into an array until it is full.
* `FixedArray`: an array all of whose places are in use.

The module names nothing of a particular program.
-/

namespace SqlCodeGenerator
namespace Library

variable {α : Type}

/-- An array of capacity `capacity` whose first places are in use, in order. -/
structure CountedArray (α : Type) (capacity : Nat) where
  items : List α
  fits : items.length ≤ capacity
  deriving DecidableEq, Repr

namespace CountedArray

variable {capacity : Nat}

@[ext] theorem ext {a b : CountedArray α capacity} (h : a.items = b.items) : a = b := by
  cases a
  cases b
  simpa using h

/-- The number of places in use. -/
def count (a : CountedArray α capacity) : Nat := a.items.length

/-- The array after `memset`: no place in use. -/
def empty : CountedArray α capacity := ⟨[], Nat.zero_le _⟩

instance : Inhabited (CountedArray α capacity) := ⟨empty⟩

@[simp] theorem items_empty : (empty : CountedArray α capacity).items = [] := rfl

@[simp] theorem count_empty : (empty : CountedArray α capacity).count = 0 := rfl

theorem count_le (a : CountedArray α capacity) : a.count ≤ capacity := a.fits

/-- `array[count++] = item`; `none` when the write lands outside the array. -/
def push? (a : CountedArray α capacity) (item : α) : Option (CountedArray α capacity) :=
  if h : a.count < capacity then
    some ⟨a.items ++ [item], by simpa [count] using h⟩
  else
    none

theorem push?_eq_some_iff {a b : CountedArray α capacity} {item : α} :
    a.push? item = some b ↔ a.count < capacity ∧ b.items = a.items ++ [item] := by
  unfold push?
  split
  · next h =>
      simp only [Option.some.injEq, h, true_and]
      constructor
      · rintro rfl
        rfl
      · intro hitems
        exact ext hitems.symm
  · next h => simp [h]

theorem push?_eq_none_iff {a : CountedArray α capacity} {item : α} :
    a.push? item = none ↔ capacity ≤ a.count := by
  unfold push?
  split
  · next h => simpa using h
  · next h => simpa using h

theorem isSome_push?_iff {a : CountedArray α capacity} {item : α} :
    (a.push? item).isSome ↔ a.count < capacity := by
  rw [Option.isSome_iff_ne_none, ne_eq, push?_eq_none_iff, Nat.not_le]

/-- `array[count++] = item` behind a test that there is room. -/
def push (a : CountedArray α capacity) (item : α) (h : a.count < capacity) :
    CountedArray α capacity :=
  ⟨a.items ++ [item], by simpa [count] using h⟩

@[simp] theorem items_push (a : CountedArray α capacity) (item : α) (h : a.count < capacity) :
    (a.push item h).items = a.items ++ [item] := rfl

/-- `array[index] = item` at a place in use (elsewhere nothing is written). -/
def set (a : CountedArray α capacity) (index : Nat) (item : α) : CountedArray α capacity :=
  ⟨a.items.set index item, by simpa using a.fits⟩

@[simp] theorem items_set (a : CountedArray α capacity) (index : Nat) (item : α) :
    (a.set index item).items = a.items.set index item := rfl

@[simp] theorem count_set (a : CountedArray α capacity) (index : Nat) (item : α) :
    (a.set index item).count = a.count := by
  simp [count]

/-- The array after a list of items has been appended to it. -/
def append (a : CountedArray α capacity) (items : List α)
    (h : a.count + items.length ≤ capacity) : CountedArray α capacity :=
  ⟨a.items ++ items, by simpa [count] using h⟩

@[simp] theorem items_append (a : CountedArray α capacity) (items : List α)
    (h : a.count + items.length ≤ capacity) :
    (a.append items h).items = a.items ++ items := rfl

/-- The places of a list laid out from place `start` of an array. -/
def placesFrom (capacity : Nat) :
    (start : Nat) → (items : List α) → start + items.length ≤ capacity →
      List (Fin capacity × α)
  | _, [], _ => []
  | start, item :: rest, h =>
      (⟨start, by simp at h; omega⟩, item) ::
        placesFrom capacity (start + 1) rest (by simp at h; omega)

/-- The places in use, in order, each with its index. -/
def places (a : CountedArray α capacity) : List (Fin capacity × α) :=
  placesFrom capacity 0 a.items (by simpa using a.fits)

theorem mem_placesFrom_iff {start : Nat} {items : List α}
    {h : start + items.length ≤ capacity} {place : Fin capacity} {item : α} :
    (place, item) ∈ placesFrom capacity start items h ↔
      start ≤ place.val ∧ items[place.val - start]? = some item := by
  induction items generalizing start with
  | nil => simp [placesFrom]
  | cons first rest ih =>
      simp only [placesFrom, List.mem_cons, Prod.mk.injEq, ih]
      constructor
      · rintro (⟨rfl, rfl⟩ | ⟨hstart, hitem⟩)
        · simp
        · refine ⟨by omega, ?_⟩
          rw [show place.val - start = (place.val - (start + 1)) + 1 by omega]
          simpa using hitem
      · rintro ⟨hstart, hitem⟩
        by_cases hplace : place.val = start
        · left
          refine ⟨Fin.ext hplace, ?_⟩
          simpa [hplace] using hitem.symm
        · right
          refine ⟨by omega, ?_⟩
          rw [show place.val - start = (place.val - (start + 1)) + 1 by omega] at hitem
          simpa using hitem

/-- A place is listed with exactly the item it holds. -/
theorem mem_places_iff {a : CountedArray α capacity} {place : Fin capacity} {item : α} :
    (place, item) ∈ a.places ↔ a.items[place.val]? = some item := by
  simp [places, mem_placesFrom_iff]

theorem map_snd_placesFrom {start : Nat} {items : List α}
    (h : start + items.length ≤ capacity) :
    (placesFrom capacity start items h).map Prod.snd = items := by
  induction items generalizing start with
  | nil => rfl
  | cons first rest ih => simp [placesFrom, ih]

@[simp] theorem map_snd_places (a : CountedArray α capacity) :
    a.places.map Prod.snd = a.items :=
  map_snd_placesFrom _

@[simp] theorem length_places (a : CountedArray α capacity) :
    a.places.length = a.count := by
  rw [← List.length_map (f := Prod.snd), map_snd_places, count]

theorem pairwise_placesFrom {start : Nat} {items : List α}
    (h : start + items.length ≤ capacity) :
    (placesFrom capacity start items h).Pairwise (fun p q => p.1 < q.1) := by
  induction items generalizing start with
  | nil => exact List.Pairwise.nil
  | cons first rest ih =>
      refine List.Pairwise.cons ?_ (ih _)
      rintro ⟨place, item⟩ hplace
      have hstart := (mem_placesFrom_iff.mp hplace).1
      exact Fin.lt_def.mpr (by simpa using hstart)

/-- The first place whose item passes the test. -/
def findPlace? (a : CountedArray α capacity) (test : α → Bool) : Option (Fin capacity) :=
  (a.places.find? fun p => test p.2).map Prod.fst

/-- What a successful search says: the item found passes the test. -/
theorem findPlace?_eq_some {a : CountedArray α capacity} {test : α → Bool}
    {place : Fin capacity} (h : a.findPlace? test = some place) :
    ∃ item, a.items[place.val]? = some item ∧ test item = true := by
  unfold findPlace? at h
  simp only [Option.map_eq_some_iff, Prod.exists, exists_and_right, exists_eq_right] at h
  obtain ⟨item, hfind⟩ := h
  exact ⟨item, mem_places_iff.mp (List.mem_of_find?_eq_some hfind), by
    simpa using List.find?_some hfind⟩

theorem placesFrom_map {β : Type} (f : α → β) {start : Nat} {items : List α}
    (h : start + items.length ≤ capacity) :
    placesFrom capacity start (items.map f) (by simpa using h) =
      (placesFrom capacity start items h).map (Prod.map id f) := by
  induction items generalizing start with
  | nil => rfl
  | cons first rest ih =>
      have hrest : start + 1 + rest.length ≤ capacity := by
        simp only [List.length_cons] at h
        omega
      simp only [List.map_cons, placesFrom, Prod.map_apply, id_eq, List.cons.injEq, true_and]
      exact ih hrest

/-- A search sees the items through its test only. -/
theorem findPlace?_congr {β : Type} {a b : CountedArray α capacity} (f : α → β)
    (test : β → Bool) (h : a.items.map f = b.items.map f) :
    a.findPlace? (fun item => test (f item)) = b.findPlace? (fun item => test (f item)) := by
  have hfind : ∀ c : CountedArray α capacity,
      c.findPlace? (fun item => test (f item)) =
        ((c.places.map (Prod.map id f)).find? fun p => test p.2).map Prod.fst := by
    intro c
    rw [findPlace?, List.find?_map, Option.map_map]
    rfl
  have hplaces : a.places.map (Prod.map id f) = b.places.map (Prod.map id f) := by
    simp only [places]
    rw [← placesFrom_map, ← placesFrom_map]
    simp only [h]
  rw [hfind a, hfind b, hplaces]

end CountedArray

/-! ## Filling an array from a list -/

/-- A relation between two lists that follows from another one at their members. -/
theorem forall₂_imp_of_mem {β : Type} {P Q : α → β → Prop} {xs : List α} {ys : List β}
    (h : List.Forall₂ P xs ys) (himp : ∀ x ∈ xs, ∀ y ∈ ys, P x y → Q x y) :
    List.Forall₂ Q xs ys := by
  induction h with
  | nil => exact .nil
  | cons hfirst hrest ih =>
      refine .cons (himp _ List.mem_cons_self _ List.mem_cons_self hfirst) ?_
      exact ih fun x hx y hy => himp x (List.mem_cons_of_mem _ hx) y (List.mem_cons_of_mem _ hy)

namespace CountedArray

variable {β ε : Type} {capacity : Nat}

/-- The loop that reads entry after entry into an array.  It ends where the array
is full, and it stops at an entry that cannot be read: the items read before it
have been written. -/
def fill (read : β → Except ε α) (a : CountedArray α capacity) :
    List β → CountedArray α capacity × Except ε Unit
  | [] => (a, .ok ())
  | entry :: rest =>
      if hroom : a.count < capacity then
        match read entry with
        | .error message => (a, .error message)
        | .ok item => fill read (a.push item hroom) rest
      else
        -- the `break` of the loop: the rest is not looked at
        (a, .ok ())

/-- The items read from a list of entries, one each, in order. -/
def ReadsAs (read : β → Except ε α) (entries : List β) (items : List α) : Prop :=
  List.Forall₂ (fun entry item => read entry = .ok item) entries items

variable {read : β → Except ε α} {a b : CountedArray α capacity} {entries : List β}

theorem ReadsAs.length_eq {items : List α} (h : ReadsAs read entries items) :
    entries.length = items.length :=
  List.Forall₂.length_eq h

/-- Every item is what the entry at its place is read as. -/
theorem ReadsAs.read_eq {items : List α} (h : ReadsAs read entries items) {k : Nat}
    {entry : β} {item : α} (hentry : entries[k]? = some entry) (hitem : items[k]? = some item) :
    read entry = .ok item := by
  obtain ⟨hk, rfl⟩ := List.getElem?_eq_some_iff.mp hentry
  obtain ⟨hk', rfl⟩ := List.getElem?_eq_some_iff.mp hitem
  exact List.Forall₂.get h hk hk'

/-- A list of entries is read in one way only. -/
theorem ReadsAs.unique {items items' : List α} (h : ReadsAs read entries items)
    (h' : ReadsAs read entries items') : items = items' := by
  have hread : Relator.RightUnique fun entry item => read entry = .ok item :=
    fun _ _ _ hfirst hfirst' => Except.ok.inj (hfirst.symm.trans hfirst')
  exact List.right_unique_forall₂' hread h h'

/-- A loop that comes to its end has read as many entries as there was room for. -/
theorem fill_eq_ok_iff :
    fill read a entries = (b, .ok ()) ↔
      ∃ items, ReadsAs read (entries.take (capacity - a.count)) items ∧
        b.items = a.items ++ items := by
  unfold ReadsAs
  induction entries generalizing a with
  | nil =>
      simp only [fill, Prod.mk.injEq, and_true, List.take_nil, List.forall₂_nil_left_iff,
        exists_eq_left, List.append_nil]
      exact ⟨fun h => h ▸ rfl, fun h => (ext h).symm⟩
  | cons entry rest ih =>
      rw [fill]
      by_cases hroom : a.count < capacity
      · rw [dif_pos hroom]
        have htake : capacity - a.count = capacity - (a.count + 1) + 1 := by omega
        rw [htake, List.take_succ_cons]
        cases hentry : read entry with
        | error message =>
            -- the first entry is among those looked at, and it cannot be read
            refine iff_of_false (by simp) ?_
            rintro ⟨items, hitems, -⟩
            cases hitems with
            | cons hfirst _ =>
                rw [hentry] at hfirst
                cases hfirst
        | ok item =>
            have hcount : (a.push item hroom).count = a.count + 1 := by simp [count]
            simp only [ih, items_push, hcount]
            constructor
            · rintro ⟨items, hitems, hb⟩
              exact ⟨item :: items, .cons hentry hitems, by simp [hb]⟩
            · rintro ⟨items, hitems, hb⟩
              cases hitems with
              | @cons _ item' _ items hfirst hitems =>
                  rw [hentry, Except.ok.injEq] at hfirst
                  subst hfirst
                  exact ⟨items, hitems, by simp [hb]⟩
      · rw [dif_neg hroom, Nat.sub_eq_zero_of_le (Nat.not_lt.mp hroom), List.take_zero]
        simp only [Prod.mk.injEq, and_true, List.forall₂_nil_left_iff, exists_eq_left,
          List.append_nil]
        exact ⟨fun h => h ▸ rfl, fun h => (ext h).symm⟩

/-- A loop that stops at an entry has written the items of the entries before it. -/
theorem fill_eq_error {message : ε} (h : fill read a entries = (b, .error message)) :
    ∃ done entry rest items, entries = done ++ entry :: rest ∧ ReadsAs read done items ∧
      read entry = .error message ∧ b.items = a.items ++ items := by
  unfold ReadsAs
  induction entries generalizing a with
  | nil => simp [fill] at h
  | cons entry rest ih =>
      rw [fill] at h
      split at h
      · next hroom =>
          cases hentry : read entry with
          | error message' =>
              simp only [hentry, Prod.mk.injEq, Except.error.injEq] at h
              obtain ⟨rfl, rfl⟩ := h
              exact ⟨[], entry, rest, [], rfl, .nil, hentry, by simp⟩
          | ok item =>
              simp only [hentry] at h
              obtain ⟨done, bad, rest', items, rfl, hitems, hbad, hb⟩ := ih h
              exact ⟨entry :: done, bad, rest', item :: items, rfl, .cons hentry hitems, hbad, by
                simp [hb]⟩
      · simp at h

/-- What holds of the array before, and of every item that can be read, holds of
the array that the loop leaves, wherever it stops. -/
theorem fill_forall {property : α → Prop} (hread : ∀ entry item, read entry = .ok item →
    property item) (ha : ∀ item ∈ a.items, property item) :
    ∀ item ∈ (fill read a entries).1.items, property item := by
  induction entries generalizing a with
  | nil => exact ha
  | cons entry rest ih =>
      rw [fill]
      split
      · split
        · exact ha
        · next hroom item hitem =>
            refine ih fun x hx => ?_
            rw [items_push, List.mem_append, List.mem_singleton] at hx
            rcases hx with hx | rfl
            · exact ha x hx
            · exact hread entry _ hitem
      · exact ha

end CountedArray

/-- An array of `size` places, all of them in use. -/
structure FixedArray (α : Type) (size : Nat) where
  items : List α
  length_items : items.length = size
  deriving DecidableEq, Repr

namespace FixedArray

variable {size : Nat}

@[ext] theorem ext {a b : FixedArray α size} (h : a.items = b.items) : a = b := by
  cases a
  cases b
  simpa using h

/-- Every place holds the same item, as after `memset`. -/
def replicate (size : Nat) (item : α) : FixedArray α size :=
  ⟨List.replicate size item, List.length_replicate⟩

/-- The array computed place by place. -/
def tabulate (f : Fin size → α) : FixedArray α size :=
  ⟨List.ofFn f, List.length_ofFn⟩

/-- `array[index]` for an index inside the array. -/
def get (a : FixedArray α size) (index : Fin size) : α :=
  a.items.get (index.cast a.length_items.symm)

/-- `array[index] = item` for an index inside the array. -/
def set (a : FixedArray α size) (index : Fin size) (item : α) : FixedArray α size :=
  ⟨a.items.set index item, by simpa using a.length_items⟩

@[simp] theorem items_set (a : FixedArray α size) (index : Fin size) (item : α) :
    (a.set index item).items = a.items.set index item := rfl

@[simp] theorem get_replicate (item : α) (index : Fin size) :
    (replicate size item).get index = item := by
  simp [get, replicate]

@[simp] theorem get_tabulate (f : Fin size → α) (index : Fin size) :
    (tabulate f).get index = f index := by
  rw [get, tabulate, List.get_ofFn]
  rfl

theorem get_set (a : FixedArray α size) (index other : Fin size) (item : α) :
    (a.set index item).get other = if other = index then item else a.get other := by
  unfold get set
  simp only [List.get_eq_getElem, Fin.val_cast, List.getElem_set]
  by_cases h : other = index
  · simp [h]
  · rw [if_neg (fun heq => h (Fin.ext heq.symm)), if_neg h]

@[simp] theorem get_set_self (a : FixedArray α size) (index : Fin size) (item : α) :
    (a.set index item).get index = item := by
  rw [get_set, if_pos rfl]

section Search

variable {p : Fin size → Prop} [DecidablePred p]

/-- The place that a search comes to. -/
theorem of_find?_eq_some {place : Fin size}
    (h : ((List.finRange size).find? fun place => decide (p place)) = some place) :
    p place := by
  have hfound := List.find?_some h
  exact of_decide_eq_true hfound

theorem not_of_find?_eq_none
    (h : ((List.finRange size).find? fun place => decide (p place)) = none) (place : Fin size) :
    ¬ p place := by
  intro hplace
  have hnot := List.find?_eq_none.mp h place (List.mem_finRange place)
  exact hnot (decide_eq_true hplace)

end Search

end FixedArray

end Library
end SqlCodeGenerator
