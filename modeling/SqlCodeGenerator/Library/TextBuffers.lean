import Mathlib.Tactic

/-!
# Terminated texts in a buffer

A buffer of cells holds a text that ends at the first cell with a given value.  Every
access is checked: one outside the buffer has no result, and neither has the search for
the end of a text that the buffer does not hold.

* `Contains`: the buffer holds a text;
* `placeText_eq`: a text and its end are written where there is room for them;
* `appendCut_spec`: a text is appended to the one that is there, and what they make is cut
  to the buffer;
* `foldlM_appendCut_spec`: so are several, one after the other, with one cut.

The module names nothing of a particular program.
-/

namespace SqlCodeGenerator
namespace Library

variable {α : Type}

/-- A cell is written. -/
def storeCell (buffer : List α) (i : Nat) (a : α) : Option (List α) :=
  if i < buffer.length then some (buffer.set i a) else none

/-- The length of the text that a buffer holds. -/
def textLength [DecidableEq α] (stop : α) : List α → Option Nat
  | [] => none
  | a :: buffer => if a = stop then some 0 else (textLength stop buffer).map (· + 1)

/-- A text is written from a cell on, and its end behind it. -/
def placeText (stop : α) (buffer : List α) (i : Nat) : List α → Option (List α)
  | [] => storeCell buffer i stop
  | a :: text => do
      let buffer ← storeCell buffer i a
      placeText stop buffer (i + 1) text

/-- A text is written as far as `room` cells hold it with its end. -/
def placeCut (stop : α) (buffer : List α) (i room : Nat) (text : List α) : Option (List α) :=
  if room = 0 then some buffer else placeText stop buffer i (text.take (room - 1))

/-- A text is written at the end of the one that is there, in a buffer of `size` cells. -/
def appendCut [DecidableEq α] (stop : α) (size : Nat) (buffer text : List α) : Option (List α) := do
  let used ← textLength stop buffer
  if used ≥ size then some buffer else placeCut stop buffer used (size - used) text

/-- The buffer holds a text. -/
structure Contains (stop : α) (buffer text : List α) : Prop where
  clean : stop ∉ text
  held : ∃ rest, buffer = text ++ stop :: rest

variable {stop : α} {buffer text : List α}

/-! ## The end of a text -/

theorem Contains.length_lt (h : Contains stop buffer text) : text.length < buffer.length := by
  obtain ⟨rest, rfl⟩ := h.held
  rw [List.length_append, List.length_cons]
  omega

/-- The end is found behind the text. -/
theorem Contains.textLength_eq [DecidableEq α] (h : Contains stop buffer text) :
    textLength stop buffer = some text.length := by
  obtain ⟨hclean, rest, rfl⟩ := h
  induction text with
  | nil => exact if_pos rfl
  | cons a text ih =>
      have ha : a ≠ stop := by
        rintro rfl
        exact hclean List.mem_cons_self
      have htext : stop ∉ text := fun hmem => hclean (List.mem_cons_of_mem a hmem)
      show (if a = stop then some 0 else (textLength stop (text ++ stop :: rest)).map (· + 1)) = _
      rw [if_neg ha, ih htext]
      rfl

/-- A buffer that begins with the end holds the empty text. -/
theorem contains_nil (stop : α) (rest : List α) : Contains stop (stop :: rest) [] :=
  ⟨List.not_mem_nil, rest, rfl⟩

/-! ## Writing a text -/

theorem storeCell_append {before rest : List α} (b a : α) :
    storeCell (before ++ b :: rest) before.length a = some (before ++ a :: rest) := by
  have hroom : before.length < (before ++ b :: rest).length := by
    rw [List.length_append, List.length_cons]
    omega
  rw [storeCell, if_pos hroom, List.set_append_right _ _ (Nat.le_refl _), Nat.sub_self]
  rfl

/-- With room for the text and its end, both are written over what is there. -/
theorem placeText_eq {before old : List α} (hroom : text.length < old.length) :
    placeText stop (before ++ old) before.length text =
      some (before ++ text ++ stop :: old.drop (text.length + 1)) := by
  induction text generalizing before old with
  | nil =>
      cases old with
      | nil => exact absurd hroom (Nat.lt_irrefl 0)
      | cons b old =>
          rw [List.append_nil]
          exact storeCell_append b stop
  | cons a text ih =>
      cases old with
      | nil => exact absurd hroom (Nat.not_lt_zero _)
      | cons b old =>
          rw [placeText, storeCell_append]
          show placeText stop (before ++ a :: old) (before.length + 1) text = _
          have hnext : before.length + 1 = (before ++ [a]).length := by
            rw [List.length_append, List.length_singleton]
          rw [List.append_cons, hnext, ih (Nat.lt_of_succ_lt_succ hroom), List.length_cons,
            List.drop_succ_cons, ← List.append_cons]

/-- A text that is written over the end of another one is appended to it. -/
theorem placeCut_spec {before : List α} (h : Contains stop buffer before)
    (htext : stop ∉ text) :
    ∃ buffer', placeCut stop buffer before.length (buffer.length - before.length) text =
        some buffer' ∧
      buffer'.length = buffer.length ∧
      Contains stop buffer' (before ++ text.take (buffer.length - before.length - 1)) := by
  have hlt := h.length_lt
  obtain ⟨hclean, rest, rfl⟩ := h
  have hover : (before ++ stop :: rest).length - before.length = rest.length + 1 := by
    rw [List.length_append, List.length_cons]
    omega
  have hroom : (text.take rest.length).length < (stop :: rest).length := by
    rw [List.length_take, List.length_cons]
    omega
  rw [hover, placeCut, if_neg (Nat.succ_ne_zero _), Nat.add_sub_cancel, placeText_eq hroom]
  refine ⟨_, rfl, ?_, ?_, _, rfl⟩
  · rw [List.length_append, List.length_append, List.length_cons, List.length_drop,
      List.length_append, List.length_cons]
    rw [List.length_cons] at hroom
    omega
  · intro hmem
    rcases List.mem_append.mp hmem with hbefore | htaken
    · exact hclean hbefore
    · exact htext (List.mem_of_mem_take htaken)

/-! ## Appending -/

section Append

variable [DecidableEq α]

/-- What is there is a cut text: so is what an append leaves, of the longer text. -/
theorem appendCut_spec {whole : List α}
    (h : Contains stop buffer (whole.take (buffer.length - 1))) (htext : stop ∉ text) :
    ∃ buffer', appendCut stop buffer.length buffer text = some buffer' ∧
      buffer'.length = buffer.length ∧
      Contains stop buffer' ((whole ++ text).take (buffer.length - 1)) := by
  have hlt := h.length_lt
  obtain ⟨buffer', hplace, hlength, hheld⟩ := placeCut_spec h htext
  refine ⟨buffer', ?_, hlength, ?_⟩
  · rw [appendCut, h.textLength_eq]
    -- the text there ends inside the buffer
    show (if (whole.take (buffer.length - 1)).length ≥ buffer.length then _ else _) = _
    rw [if_neg (Nat.not_le_of_lt hlt)]
    exact hplace
  · have hcut : (whole ++ text).take (buffer.length - 1) = whole.take (buffer.length - 1) ++
        text.take (buffer.length - (whole.take (buffer.length - 1)).length - 1) := by
      rw [List.take_append, List.length_take]
      congr 2
      -- either the cut text is whole, or nothing is left of the room
      rw [List.length_take] at hlt
      omega
    rw [hcut]
    exact hheld

/-- Texts appended one after the other make one text, cut once. -/
theorem foldlM_appendCut_spec {β : Type} (f : β → List α) (xs : List β)
    (hclean : ∀ x ∈ xs, stop ∉ f x) {whole : List α} {size : Nat} (hsize : buffer.length = size)
    (h : Contains stop buffer (whole.take (size - 1))) :
    ∃ buffer', xs.foldlM (fun buffer x => appendCut stop size buffer (f x)) buffer =
        some buffer' ∧
      buffer'.length = size ∧ Contains stop buffer' ((whole ++ xs.flatMap f).take (size - 1)) := by
  induction xs generalizing buffer whole with
  | nil =>
      refine ⟨buffer, rfl, hsize, ?_⟩
      rw [List.flatMap_nil, List.append_nil]
      exact h
  | cons x xs ih =>
      subst hsize
      obtain ⟨middle, hfirst, hlength, hheld⟩ := appendCut_spec h (hclean x List.mem_cons_self)
      obtain ⟨buffer', hrest, hlength', hheld'⟩ :=
        ih (fun y hy => hclean y (List.mem_cons_of_mem x hy)) hlength hheld
      refine ⟨buffer', ?_, hlength', ?_⟩
      · rw [List.foldlM_cons, hfirst]
        exact hrest
      · rw [List.flatMap_cons, ← List.append_assoc]
        exact hheld'

end Append

end Library
end SqlCodeGenerator
