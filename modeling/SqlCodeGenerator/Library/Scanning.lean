import Mathlib.Data.List.DropRight
import Mathlib.Tactic

/-!
# Bounded scans of a text

A hand-written scanner copies characters into a buffer while a test holds and
there is room.  `spanUpTo` is that loop; the lemmas say what was consumed, that
nothing is lost, and how the scan runs over a text whose shape is known.

The module names nothing of a particular program.
-/

namespace SqlCodeGenerator
namespace Library

variable {α : Type}

/-- Copy while the test holds and fewer than `room` characters were copied: the
copy and the text that remains. -/
def spanUpTo (test : α → Bool) : (room : Nat) → List α → List α × List α
  | 0, p => ([], p)
  | _ + 1, [] => ([], [])
  | room + 1, c :: p =>
      if test c then
        (c :: (spanUpTo test room p).1, (spanUpTo test room p).2)
      else
        ([], c :: p)

theorem spanUpTo_append (test : α → Bool) (room : Nat) (p : List α) :
    (spanUpTo test room p).1 ++ (spanUpTo test room p).2 = p := by
  induction room generalizing p with
  | zero => rfl
  | succ room ih =>
      cases p with
      | nil => rfl
      | cons c p =>
          rw [spanUpTo]
          split
          · simp [ih p]
          · rfl

theorem length_spanUpTo_fst_le (test : α → Bool) (room : Nat) (p : List α) :
    (spanUpTo test room p).1.length ≤ room := by
  induction room generalizing p with
  | zero => simp [spanUpTo]
  | succ room ih =>
      cases p with
      | nil => simp [spanUpTo]
      | cons c p =>
          rw [spanUpTo]
          split
          · simpa using ih p
          · simp

theorem test_of_mem_spanUpTo_fst {test : α → Bool} {room : Nat} {p : List α} {c : α}
    (hc : c ∈ (spanUpTo test room p).1) : test c = true := by
  induction room generalizing p with
  | zero => simp [spanUpTo] at hc
  | succ room ih =>
      cases p with
      | nil => simp [spanUpTo] at hc
      | cons d p =>
          rw [spanUpTo] at hc
          split at hc
          · next hd =>
              rcases List.mem_cons.mp hc with rfl | hc
              · exact hd
              · exact ih hc
          · simp at hc

/-- The scan stops at a character that fails the test, at the end of the text,
or because the buffer is full. -/
theorem spanUpTo_stop {test : α → Bool} {room : Nat} {p : List α} {c : α} {rest : List α}
    (h : (spanUpTo test room p).2 = c :: rest) :
    test c = false ∨ (spanUpTo test room p).1.length = room := by
  induction room generalizing p with
  | zero => simp [spanUpTo]
  | succ room ih =>
      cases p with
      | nil => simp [spanUpTo] at h
      | cons d p =>
          rw [spanUpTo] at h ⊢
          by_cases hd : test d = true
          · rw [if_pos hd] at h ⊢
            simpa using ih h
          · rw [if_neg hd] at h
            obtain ⟨rfl, -⟩ := List.cons.inj h
            exact Or.inl (by simpa using hd)

/-- The scan over a word of tested characters that fits, followed by text whose
first character fails the test, or by any text once the room is used up. -/
theorem spanUpTo_word {test : α → Bool} {room : Nat} {word rest : List α}
    (hword : ∀ c ∈ word, test c = true) (hroom : word.length ≤ room)
    (hrest : ∀ c ∈ rest.head?, test c = false ∨ word.length = room) :
    spanUpTo test room (word ++ rest) = (word, rest) := by
  induction word generalizing room with
  | nil =>
      cases room with
      | zero => rfl
      | succ room =>
          cases rest with
          | nil => rfl
          | cons c rest =>
              have hc : test c = false := by simpa using hrest c rfl
              simp [spanUpTo, hc]
  | cons c word ih =>
      cases room with
      | zero => simp at hroom
      | succ room =>
          have hc : test c = true := hword c List.mem_cons_self
          have htail := ih (fun d hd => hword d (List.mem_cons_of_mem _ hd))
            (Nat.le_of_succ_le_succ hroom) (by simpa using hrest)
          simp [spanUpTo, hc, htail]

/-- What a scan does: it copies tested characters as long as there is room. -/
theorem spanUpTo_eq_iff {test : α → Bool} {room : Nat} {p word rest : List α} :
    spanUpTo test room p = (word, rest) ↔
      p = word ++ rest ∧ (∀ c ∈ word, test c = true) ∧ word.length ≤ room ∧
        ∀ c ∈ rest.head?, test c = false ∨ word.length = room := by
  constructor
  · intro h
    have hword : (spanUpTo test room p).1 = word := by rw [h]
    have hrest : (spanUpTo test room p).2 = rest := by rw [h]
    have hsplit := spanUpTo_append test room p
    have hlen := length_spanUpTo_fst_le test room p
    rw [hword, hrest] at hsplit
    rw [hword] at hlen
    refine ⟨hsplit.symm, fun c hc => test_of_mem_spanUpTo_fst (hword ▸ hc), hlen, ?_⟩
    intro c hc
    cases rest with
    | nil => simp at hc
    | cons d rest =>
        obtain rfl : d = c := by simpa using hc
        have hstop := spanUpTo_stop hrest
        rwa [hword] at hstop
  · rintro ⟨rfl, hword, hroom, hrest⟩
    exact spanUpTo_word hword hroom hrest

/-! ## Skipping -/

theorem length_dropWhile_le (test : α → Bool) (p : List α) :
    (p.dropWhile test).length ≤ p.length :=
  (List.dropWhile_sublist test).length_le

/-- Skipping stops at a character that fails the test. -/
theorem test_head_dropWhile {test : α → Bool} {p rest : List α} {c : α}
    (h : p.dropWhile test = c :: rest) : test c = false := by
  have hne : p.dropWhile test ≠ [] := by simp [h]
  have hhead := List.head_dropWhile_not test hne
  simpa [h] using hhead

theorem dropWhile_of_head {test : α → Bool} {p : List α}
    (h : ∀ c ∈ p.head?, test c = false) : p.dropWhile test = p := by
  cases p with
  | nil => rfl
  | cons c p => simp [h c rfl]

/-- Skipping over text of which only the end is skippable. -/
theorem dropWhile_append_stop {test : α → Bool} {p extra : List α}
    (h : p.dropWhile test ≠ []) :
    (p ++ extra).dropWhile test = p.dropWhile test ++ extra := by
  rw [List.dropWhile_append, if_neg (by simpa using h)]

theorem takeWhile_append_stop {test : α → Bool} {p extra : List α}
    (h : p.dropWhile test ≠ []) : (p ++ extra).takeWhile test = p.takeWhile test := by
  induction p with
  | nil => exact absurd rfl h
  | cons c p ih =>
      by_cases hc : test c = true
      · have hp : p.dropWhile test ≠ [] := by simpa [hc] using h
        simp [hc, ih hp]
      · simp [hc]

/-- Cutting the skippable end of a text leaves what stands in front of a
character that is not skipped. -/
theorem rdropWhile_append_cons {test : α → Bool} {p extra : List α} {c : α}
    (hc : test c = false) :
    (p ++ c :: extra).rdropWhile test = p ++ c :: extra.rdropWhile test := by
  induction extra using List.reverseRecOn with
  | nil =>
      rw [List.rdropWhile_concat_neg _ _ _ (by simp [hc]), List.rdropWhile_nil]
  | append_singleton extra d ih =>
      have hassoc : p ++ c :: (extra ++ [d]) = (p ++ c :: extra) ++ [d] := by simp
      by_cases hd : test d = true
      · rw [hassoc, List.rdropWhile_concat_pos _ _ _ hd, List.rdropWhile_concat_pos _ _ _ hd, ih]
      · rw [hassoc, List.rdropWhile_concat_neg _ _ _ hd, List.rdropWhile_concat_neg _ _ _ hd]
        simp

end Library
end SqlCodeGenerator
