import Mathlib.Tactic

/-!
# Keywords behind free text

A text that begins with free words, which the writer chose, and goes on with
keywords, which the printer added.  Where the free part ends can be read off the
text as long as the free part holds no keyword, and no keyword begins inside
another one.

* `Begins`: a text that is empty or begins with one of the keywords;
* `Apart`: no keyword begins inside another one;
* `freeText_unique`: the free part and the rest are found in one way only;
* `flag_unique`: a keyword that is printed or left out is seen in the text.

The module names nothing of a particular program.
-/

namespace SqlCodeGenerator
namespace Library

variable {α : Type}

/-- The text is empty, or it begins with one of the keywords. -/
def Begins (keywords : List (List α)) (text : List α) : Prop :=
  text = [] ∨ ∃ word ∈ keywords, word <+: text

/-- None of two texts is a prefix of the other. -/
def Differ (x y : List α) : Prop := ¬ x <+: y ∧ ¬ y <+: x

instance [DecidableEq α] (x y : List α) : Decidable (Differ x y) :=
  inferInstanceAs (Decidable (_ ∧ _))

/-- A keyword cannot begin inside another one: behind its first character, no end
of a keyword goes on as a keyword does. -/
def Apart (keywords : List (List α)) : Prop :=
  ∀ word ∈ keywords, ∀ other ∈ keywords, ∀ k < word.length, 0 < k →
    Differ (word.drop k) other

instance [DecidableEq α] (keywords : List (List α)) : Decidable (Apart keywords) :=
  inferInstanceAs (Decidable (∀ word ∈ keywords, ∀ other ∈ keywords, ∀ k < word.length, 0 < k →
    Differ (word.drop k) other))

variable {keywords : List (List α)}

theorem Begins.mono {keywords' : List (List α)} {text : List α} (h : Begins keywords text)
    (hsub : keywords ⊆ keywords') : Begins keywords' text := by
  rcases h with h | ⟨word, hword, hstart⟩
  · exact Or.inl h
  · exact Or.inr ⟨word, hsub hword, hstart⟩

theorem begins_nil : Begins keywords ([] : List α) := Or.inl rfl

/-- What stands behind a free part and is a keyword cannot reach into it. -/
theorem not_begins_inside (hapart : Apart keywords) {x rest : List α}
    (hfree : ∀ word ∈ keywords, ¬ word <:+: x) (hrest : Begins keywords rest) (hne : x ≠ []) :
    ¬ Begins keywords (x ++ rest) := by
  rintro (hnil | ⟨word, hword, hstart⟩)
  · exact hne (List.append_eq_nil_iff.mp hnil).1
  · rcases List.prefix_or_prefix_of_prefix hstart (List.prefix_append x rest) with hx | hx
    · exact hfree word hword hx.isInfix
    · obtain ⟨tail, rfl⟩ := hx
      have htail : tail ≠ [] := by
        rintro rfl
        exact hfree _ hword (by simp)
      have hbegin : tail <+: rest := (List.prefix_append_right_inj x).mp hstart
      rcases hrest with rfl | ⟨other, hother, hstart'⟩
      · exact htail (List.prefix_nil.mp hbegin)
      · have hk := hapart _ hword other hother x.length
          (by simpa using List.length_pos_iff.mpr htail) (List.length_pos_iff.mpr hne)
        rw [List.drop_left] at hk
        rcases List.prefix_or_prefix_of_prefix hbegin hstart' with h | h
        · exact hk.1 h
        · exact hk.2 h

/-- A free part without keywords and what stands behind it are found in one way
only. -/
theorem freeText_unique (hapart : Apart keywords) {free free' rest rest' : List α}
    (hfree : ∀ word ∈ keywords, ¬ word <:+: free)
    (hfree' : ∀ word ∈ keywords, ¬ word <:+: free')
    (hrest : Begins keywords rest) (hrest' : Begins keywords rest')
    (h : free ++ rest = free' ++ rest') : free = free' ∧ rest = rest' := by
  have hinside : ∀ x, (∀ word ∈ keywords, ¬ word <:+: x) → ∀ rest rest' : List α,
      Begins keywords rest → Begins keywords rest' → rest' = x ++ rest → x = [] := by
    intro x hx rest rest' hrest hrest' heq
    by_contra hne
    exact not_begins_inside hapart hx hrest hne (heq ▸ hrest')
  have hpart : ∀ (x y : List α), (∀ word ∈ keywords, ¬ word <:+: x ++ y) →
      ∀ word ∈ keywords, ¬ word <:+: y := by
    intro x y hxy word hword hpiece
    exact hxy word hword (hpiece.trans (List.suffix_append x y).isInfix)
  rcases List.append_eq_append_iff.mp h with ⟨x, rfl, hx⟩ | ⟨x, rfl, hx⟩
  · obtain rfl := hinside x (hpart _ _ hfree') rest' rest hrest' hrest hx
    exact ⟨(List.append_nil _).symm, by simpa using hx⟩
  · obtain rfl := hinside x (hpart _ _ hfree) rest rest' hrest hrest' hx
    exact ⟨List.append_nil _, by simpa using hx.symm⟩

/-- A keyword that may be left out is there exactly when the text begins with it:
what stands behind begins with other keywords. -/
theorem flag_unique {word rest rest' : List α} {flag flag' : Bool}
    (hdiffer : ∀ other ∈ keywords, Differ word other) (hne : word ≠ [])
    (hrest : Begins keywords rest) (hrest' : Begins keywords rest')
    (h : (if flag then word else []) ++ rest = (if flag' then word else []) ++ rest') :
    flag = flag' ∧ rest = rest' := by
  have hother : ∀ text : List α, Begins keywords text → ¬ word <+: text := by
    rintro text (rfl | ⟨other, hother, hstart⟩) hword
    · exact hne (List.prefix_nil.mp hword)
    · rcases List.prefix_or_prefix_of_prefix hword hstart with hcut | hcut
      · exact (hdiffer other hother).1 hcut
      · exact (hdiffer other hother).2 hcut
  cases flag with
  | true =>
      cases flag' with
      | true => exact ⟨rfl, List.append_cancel_left h⟩
      | false => exact absurd ⟨rest, h⟩ (hother rest' hrest')
  | false =>
      cases flag' with
      | true => exact absurd ⟨rest', h.symm⟩ (hother rest hrest)
      | false => exact ⟨rfl, h⟩

end Library
end SqlCodeGenerator
