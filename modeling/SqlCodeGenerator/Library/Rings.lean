import Mathlib.Data.List.DropRight
import SqlCodeGenerator.Library.Arrays

/-!
# Rings of numbered records

Records get the numbers 1, 2, 3, … and each is stored at the place of its number
modulo the size of the array, over the record that was there.

* `NumberedRing`: what every such array satisfies;
* `NumberedRing.find?_eq`: a record that is still there is the one that a search by
  its number finds;
* `ringPlace_ne`: fewer than `size` later records leave it there;
* `NewestRing`: the records that are there are the last `size`;
* `RecentRing`: records that carry no number, each stored at the place of its position;
* `RecentRing.read_eq`: read from the oldest place on, they are the last `size` records;
* `Window`: the numbers that are still open are the last ones given out, when they
  are closed in the order of their opening.

The module names nothing of a particular program.
-/

namespace SqlCodeGenerator
namespace Library

variable {α : Type} {size : Nat} [NeZero size]

/-- The place of the record of a number. -/
def ringPlace (size : Nat) [NeZero size] (n : Nat) : Fin size :=
  ⟨n % size, Nat.mod_lt n (Nat.pos_of_ne_zero (NeZero.ne size))⟩

/-- Every place is unused, with number 0, or holds a record at the place of its
number, which has been given out. -/
def NumberedRing (number : α → Nat) (a : FixedArray α size) (next : Nat) : Prop :=
  ∀ place, number (a.get place) = 0 ∨
    number (a.get place) < next ∧ ringPlace size (number (a.get place)) = place

/-- Two numbers less than a whole round apart have different places. -/
theorem ringPlace_ne {n next : Nat} (hafter : n < next) (hround : next < n + size) :
    ringPlace size n ≠ ringPlace size next := by
  intro heq
  have hmod : n % size = next % size := congrArg Fin.val heq
  have hdiff : size ∣ next - n := (Nat.modEq_iff_dvd' (Nat.le_of_lt hafter)).mp hmod
  have hle := Nat.le_of_dvd (by omega) hdiff
  omega

namespace NumberedRing

variable {number : α → Nat} {a : FixedArray α size} {next : Nat}

theorem replicate {x : α} (hx : number x = 0) (next : Nat) :
    NumberedRing number (FixedArray.replicate size x) next := by
  intro place
  left
  rw [FixedArray.get_replicate, hx]

/-- The next record is stored at its place. -/
theorem store (h : NumberedRing number a next) {x : α} (hx : number x = next) :
    NumberedRing number (a.set (ringPlace size next) x) (next + 1) := by
  intro place
  rw [FixedArray.get_set]
  by_cases hplace : place = ringPlace size next
  · rw [if_pos hplace, hx]
    exact Or.inr ⟨Nat.lt_succ_self next, hplace.symm⟩
  · rw [if_neg hplace]
    rcases h place with hzero | ⟨hlt, hown⟩
    · exact Or.inl hzero
    · exact Or.inr ⟨Nat.lt_succ_of_lt hlt, hown⟩

/-- Changes that keep all numbers keep the ring. -/
theorem congr (h : NumberedRing number a next) {b : FixedArray α size}
    (hsame : ∀ place, number (b.get place) = number (a.get place)) :
    NumberedRing number b next := by
  intro place
  rw [hsame place]
  exact h place

/-- Only the place of a number holds its record. -/
theorem place_eq (h : NumberedRing number a next) {n : Nat} (hpos : 0 < n) {place : Fin size}
    (hnumber : number (a.get place) = n) : place = ringPlace size n := by
  rcases h place with hzero | ⟨-, hown⟩
  · omega
  · rw [← hown, hnumber]

/-- A record that is in the ring is found at its place. -/
theorem find?_eq (h : NumberedRing number a next) {n : Nat} (hpos : 0 < n)
    (hheld : number (a.get (ringPlace size n)) = n) :
    ((List.finRange size).find? fun place => decide (number (a.get place) = n)) =
      some (ringPlace size n) := by
  cases hfind : (List.finRange size).find? fun place => decide (number (a.get place) = n) with
  | none =>
      exact absurd hheld (FixedArray.not_of_find?_eq_none hfind (ringPlace size n))
  | some place =>
      have hplace := FixedArray.of_find?_eq_some hfind
      rw [h.place_eq hpos hplace]

end NumberedRing

/-- The records that are there are those of the last `size` numbers given out. -/
def NewestRing (number : α → Nat) (a : FixedArray α size) (next : Nat) : Prop :=
  ∀ n, 0 < n → (number (a.get (ringPlace size n)) = n ↔ n < next ∧ next ≤ n + size)

namespace NewestRing

variable {number : α → Nat} {a : FixedArray α size} {next : Nat}

theorem replicate {x : α} (hx : number x = 0) :
    NewestRing number (FixedArray.replicate size x) 1 := by
  intro n hpos
  rw [FixedArray.get_replicate, hx]
  omega

/-- The next record takes the place of the one a whole round before it. -/
theorem store (h : NewestRing number a next) {x : α} (hx : number x = next) :
    NewestRing number (a.set (ringPlace size next) x) (next + 1) := by
  intro n hpos
  rw [FixedArray.get_set]
  by_cases hplace : ringPlace size n = ringPlace size next
  · rw [if_pos hplace, hx]
    have hfar : n < next → n + size ≤ next := by
      intro hlt
      by_contra hnear
      exact ringPlace_ne hlt (by omega) hplace
    have hsize := Nat.pos_of_ne_zero (NeZero.ne size)
    omega
  · rw [if_neg hplace, h n hpos]
    have hround : next ≠ n + size := by
      rintro rfl
      exact hplace (Fin.ext (Nat.add_mod_right n size).symm)
    have hne : n ≠ next := by
      rintro rfl
      exact hplace rfl
    omega

/-- Changes that keep all numbers keep the ring. -/
theorem congr (h : NewestRing number a next) {b : FixedArray α size}
    (hsame : ∀ place, number (b.get place) = number (a.get place)) : NewestRing number b next := by
  intro n hpos
  rw [hsame]
  exact h n hpos

end NewestRing

/-! ## Records without a number -/

/-- The last `size` of the items stored so far stand each at the place of its position. -/
def RecentRing (a : FixedArray α size) (items : List α) : Prop :=
  ∀ i x, items[i]? = some x → items.length ≤ i + size → a.get (ringPlace size i) = x

theorem length_rtake (n : Nat) (items : List α) : (items.rtake n).length = min items.length n := by
  unfold List.rtake
  rw [List.length_drop]
  omega

namespace RecentRing

variable {a : FixedArray α size} {items : List α}

theorem nil (a : FixedArray α size) : RecentRing a [] := by
  intro i x hx
  simp at hx

/-- The next item is stored at the place of its position. -/
theorem store (h : RecentRing a items) (x : α) :
    RecentRing (a.set (ringPlace size items.length) x) (items ++ [x]) := by
  intro i y hy hround
  rw [List.length_append, List.length_singleton] at hround
  rcases Nat.lt_trichotomy i items.length with hlt | rfl | hgt
  · -- fewer than `size` items were stored after this one
    rw [List.getElem?_append_left hlt] at hy
    rw [FixedArray.get_set, if_neg (ringPlace_ne hlt (by omega))]
    exact h i y hy (by omega)
  · rw [List.getElem?_concat_length] at hy
    rw [FixedArray.get_set_self]
    exact Option.some.inj hy
  · have hlen := (List.getElem?_eq_some_iff.mp hy).1
    rw [List.length_append, List.length_singleton] at hlen
    omega

/-- Read from the oldest place on, the ring is the last `size` items. -/
theorem read_eq (h : RecentRing a items) :
    ((List.range' (items.length - size) (items.length - (items.length - size))).map
      fun i => a.get (ringPlace size i)) = items.rtake size := by
  unfold List.rtake
  apply List.ext_getElem?
  intro k
  rw [List.getElem?_map, List.getElem?_drop]
  by_cases hk : items.length - size + k < items.length
  · have hplace : k < items.length - (items.length - size) := by omega
    rw [List.getElem?_range' hplace, Option.map_some, List.getElem?_eq_getElem hk, Nat.one_mul]
    exact congrArg some (h _ _ (List.getElem?_eq_getElem hk) (by omega))
  · rw [List.getElem?_eq_none (Nat.le_of_not_lt hk), List.getElem?_eq_none]
    · rfl
    · rw [List.length_range']
      omega

end RecentRing

/-! ## Open numbers -/

/-- The numbers are consecutive, from a positive one up to the next to be given out. -/
def Window (numbers : List Nat) (next : Nat) : Prop :=
  numbers.length < next ∧ numbers = List.range' (next - numbers.length) numbers.length

namespace Window

variable {n next : Nat} {numbers : List Nat}

theorem nil (hpos : 0 < next) : Window [] next := ⟨hpos, rfl⟩

/-- The next number is opened. -/
theorem push (h : Window numbers next) : Window (numbers ++ [next]) (next + 1) := by
  obtain ⟨hlt, hnumbers⟩ := h
  have hfirst : next + 1 - (numbers ++ [next]).length = next - numbers.length := by
    rw [List.length_append, List.length_singleton]
    omega
  refine ⟨?_, ?_⟩
  · rw [List.length_append, List.length_singleton]
    omega
  · rw [hfirst, List.length_append, List.length_singleton, List.range'_concat, ← hnumbers,
      Nat.one_mul, Nat.sub_add_cancel (Nat.le_of_lt hlt)]

/-- The number that was opened first. -/
theorem head (h : Window (n :: numbers) next) : n + numbers.length + 1 = next := by
  obtain ⟨hlt, hnumbers⟩ := h
  rw [List.length_cons] at hlt hnumbers
  rw [List.range'_succ] at hnumbers
  have hn := (List.cons.inj hnumbers).1
  omega

/-- It is closed. -/
theorem tail (h : Window (n :: numbers) next) : Window numbers next := by
  have hhead := h.head
  obtain ⟨hlt, hnumbers⟩ := h
  rw [List.length_cons] at hlt hnumbers
  rw [List.range'_succ] at hnumbers
  refine ⟨by omega, (List.cons.inj hnumbers).2.trans ?_⟩
  congr 1
  omega

/-- Which numbers are open. -/
theorem mem_iff (h : Window numbers next) :
    n ∈ numbers ↔ next ≤ n + numbers.length ∧ n < next := by
  obtain ⟨hlt, hnumbers⟩ := h
  rw [hnumbers, List.mem_range'_1, List.length_range']
  omega

/-- A number is opened once. -/
theorem head_not_mem (h : Window (n :: numbers) next) : n ∉ numbers := by
  have hhead := h.head
  rw [h.tail.mem_iff]
  omega

end Window

end Library
end SqlCodeGenerator
