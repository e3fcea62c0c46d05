import Mathlib.Tactic

/-!
# Lists built block by block

A list that is written block by block, `xs.flatMap f`, and the places in it.

* `blockStart`: the place where the block of an entry begins;
* `getElem?_flatMap_eq_some_iff`: every place belongs to a block;
* `blockStart_lt_iff`: blocks stand in the order of their entries.

The module names nothing of a particular program.
-/

namespace SqlCodeGenerator
namespace Library

variable {α β : Type} {f : α → List β} {xs : List α}

/-- The place where the block of the entry at index `i` begins. -/
def blockStart (f : α → List β) (xs : List α) (i : Nat) : Nat := ((xs.take i).flatMap f).length

@[simp] theorem blockStart_zero : blockStart f xs 0 = 0 := by
  simp [blockStart]

@[simp] theorem blockStart_cons_succ (x : α) (i : Nat) :
    blockStart f (x :: xs) (i + 1) = (f x).length + blockStart f xs i := by
  simp [blockStart]

/-- The next block begins where the block of an entry ends. -/
theorem blockStart_succ {i : Nat} {x : α} (h : xs[i]? = some x) :
    blockStart f xs (i + 1) = blockStart f xs i + (f x).length := by
  unfold blockStart
  rw [List.take_add_one, h, List.flatMap_append, List.length_append]
  simp

theorem blockStart_mono {i j : Nat} (h : i ≤ j) : blockStart f xs i ≤ blockStart f xs j := by
  unfold blockStart
  obtain ⟨rest, hrest⟩ := (List.take_prefix_take_left h : xs.take i <+: xs.take j)
  rw [← hrest, List.flatMap_append, List.length_append]
  omega

/-- Every place of the list is a place of one block. -/
theorem getElem?_flatMap_eq_some_iff {k : Nat} {y : β} :
    (xs.flatMap f)[k]? = some y ↔
      ∃ i x m, xs[i]? = some x ∧ (f x)[m]? = some y ∧ k = blockStart f xs i + m := by
  induction xs generalizing k with
  | nil => simp
  | cons first xs ih =>
      rw [List.flatMap_cons]
      constructor
      · intro hy
        by_cases hk : k < (f first).length
        · rw [List.getElem?_append_left hk] at hy
          exact ⟨0, first, k, rfl, hy, by simp⟩
        · rw [List.getElem?_append_right (by omega), ih] at hy
          obtain ⟨i, x, m, hx, hm, hplace⟩ := hy
          refine ⟨i + 1, x, m, by simpa using hx, hm, ?_⟩
          rw [blockStart_cons_succ]
          omega
      · rintro ⟨i, x, m, hx, hm, rfl⟩
        cases i with
        | zero =>
            obtain rfl : first = x := by simpa using hx
            have hlt : m < (f first).length := (List.getElem?_eq_some_iff.mp hm).1
            rw [blockStart_zero, Nat.zero_add, List.getElem?_append_left hlt]
            exact hm
        | succ i =>
            rw [blockStart_cons_succ, List.getElem?_append_right (by omega), ih]
            exact ⟨i, x, m, by simpa using hx, hm, by omega⟩

/-- From the place where a block begins, the list is that block and the later ones. -/
theorem drop_blockStart {i : Nat} {x : α} (h : xs[i]? = some x) :
    (xs.flatMap f).drop (blockStart f xs i) = f x ++ (xs.drop (i + 1)).flatMap f := by
  obtain ⟨hi, rfl⟩ := List.getElem?_eq_some_iff.mp h
  have hsplit : xs = xs.take i ++ xs[i] :: xs.drop (i + 1) := by
    rw [← List.drop_eq_getElem_cons hi, List.take_append_drop]
  have hflat : xs.flatMap f =
      (xs.take i).flatMap f ++ (f xs[i] ++ (xs.drop (i + 1)).flatMap f) := by
    conv_lhs => rw [hsplit]
    rw [List.flatMap_append, List.flatMap_cons]
  rw [hflat, blockStart, List.drop_left]

/-- Blocks stand in the order of their entries: a block begins before a place of
another exactly when its entry does not come later. -/
theorem blockStart_lt_iff {i j m : Nat} {x : α} (hx : xs[i]? = some x) (hm : m < (f x).length)
    (hpos : 0 < m) : blockStart f xs j < blockStart f xs i + m ↔ j ≤ i := by
  constructor
  · intro h
    by_contra hlater
    have hnext : blockStart f xs (i + 1) ≤ blockStart f xs j := blockStart_mono (by omega)
    rw [blockStart_succ hx] at hnext
    omega
  · intro h
    have hstart : blockStart f xs j ≤ blockStart f xs i := blockStart_mono h
    omega

/-- The part of a list up to the first place of an item is found in one way only. -/
theorem upTo_unique {y : β} {ys ys' rest rest' : List β} (hys : y ∉ ys) (hys' : y ∉ ys')
    (h : ys ++ y :: rest = ys' ++ y :: rest') : ys = ys' := by
  induction ys generalizing ys' with
  | nil =>
      cases ys' with
      | nil => rfl
      | cons first ys' =>
          obtain ⟨rfl, -⟩ := List.cons.inj h
          exact absurd List.mem_cons_self hys'
  | cons first ys ih =>
      cases ys' with
      | nil =>
          obtain ⟨rfl, -⟩ := List.cons.inj h
          exact absurd List.mem_cons_self hys
      | cons first' ys' =>
          obtain ⟨rfl, htail⟩ := List.cons.inj h
          have hrest := ih (fun hmem => hys (List.mem_cons_of_mem _ hmem))
            (fun hmem => hys' (List.mem_cons_of_mem _ hmem)) htail
          rw [hrest]

end Library
end SqlCodeGenerator
