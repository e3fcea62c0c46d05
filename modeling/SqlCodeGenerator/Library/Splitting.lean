import Mathlib.Tactic

/-!
# Cutting a text with an automaton

A scanner that walks over a text, updates a small state at every character and
ends the current piece at some characters.  The state after the character
decides, so a separator inside a quoted stretch is an ordinary character.

The laws: cutting a concatenation whose first part leaves the scanner in a
state in which the separator cuts is cutting the two parts, and otherwise the
last piece of the first part is glued to the first piece of the second.

The module names nothing of a particular program.
-/

namespace SqlCodeGenerator
namespace Library

variable {σ α : Type}

/-- Put a character in front of the first piece. -/
def glue (a : α) : List (List α) → List (List α)
  | [] => [[a]]
  | piece :: pieces => (a :: piece) :: pieces

/-- The pieces of a text; the cutting characters are in no piece. -/
def cutText (step : σ → α → σ) (cuts : σ → α → Bool) : σ → List α → List (List α)
  | _, [] => [[]]
  | s, a :: rest =>
      if cuts (step s a) a then
        [] :: cutText step cuts (step s a) rest
      else
        glue a (cutText step cuts (step s a) rest)

/-- Glue the last of the first pieces to the first of the second pieces. -/
def joinPieces : List (List α) → List (List α) → List (List α)
  | [], second => second
  | [last], [] => [last]
  | [last], piece :: pieces => (last ++ piece) :: pieces
  | piece :: next :: pieces, second => piece :: joinPieces (next :: pieces) second

variable {step : σ → α → σ} {cuts : σ → α → Bool}

theorem glue_ne_nil (a : α) (pieces : List (List α)) : glue a pieces ≠ [] := by
  cases pieces <;> simp [glue]

theorem cutText_ne_nil (s : σ) (text : List α) : cutText step cuts s text ≠ [] := by
  cases text with
  | nil => simp [cutText]
  | cons a rest =>
      rw [cutText]
      split
      · simp
      · exact glue_ne_nil _ _

theorem glue_append {a : α} {first second : List (List α)} (hfirst : first ≠ []) :
    glue a (first ++ second) = glue a first ++ second := by
  cases first with
  | nil => exact absurd rfl hfirst
  | cons piece pieces => rfl

theorem joinPieces_cons {piece : List α} {first second : List (List α)}
    (hfirst : first ≠ []) :
    joinPieces (piece :: first) second = piece :: joinPieces first second := by
  cases first with
  | nil => exact absurd rfl hfirst
  | cons next pieces => rw [joinPieces]

theorem joinPieces_glue {a : α} {first second : List (List α)} (hfirst : first ≠ [])
    (hsecond : second ≠ []) :
    joinPieces (glue a first) second = glue a (joinPieces first second) := by
  cases first with
  | nil => exact absurd rfl hfirst
  | cons piece pieces =>
      cases pieces with
      | nil =>
          cases second with
          | nil => exact absurd rfl hsecond
          | cons other others => rfl
      | cons next pieces => rfl

/-- Only the last of the first pieces and the first of the second are glued. -/
theorem joinPieces_concat (pieces : List (List α)) (last piece : List α)
    (more : List (List α)) :
    joinPieces (pieces ++ [last]) (piece :: more) = pieces ++ (last ++ piece) :: more := by
  induction pieces with
  | nil => rfl
  | cons first pieces ih =>
      rw [List.cons_append, joinPieces_cons (by simp), ih, List.cons_append]

/-- The pieces of a concatenation: the last piece of the first part goes on in
the second part. -/
theorem cutText_append (s : σ) (first second : List α) :
    cutText step cuts s (first ++ second) =
      joinPieces (cutText step cuts s first)
        (cutText step cuts (first.foldl step s) second) := by
  induction first generalizing s with
  | nil =>
      cases hpieces : cutText step cuts s second with
      | nil => exact absurd hpieces (cutText_ne_nil s second)
      | cons piece pieces => simp [cutText, joinPieces, hpieces]
  | cons a rest ih =>
      simp only [List.cons_append, cutText, List.foldl_cons]
      split
      · rw [ih, joinPieces_cons (cutText_ne_nil _ _)]
      · rw [ih, joinPieces_glue (cutText_ne_nil _ _) (cutText_ne_nil _ _)]

/-- A separator that cuts ends the pieces of the first part. -/
theorem cutText_append_cut {s : σ} {first second : List α} {a : α}
    (hcut : cuts (step (first.foldl step s) a) a = true) :
    cutText step cuts s (first ++ a :: second) =
      cutText step cuts s first ++
        cutText step cuts (step (first.foldl step s) a) second := by
  induction first generalizing s with
  | nil =>
      have hcut' : cuts (step s a) a = true := hcut
      simp [cutText, hcut']
  | cons b rest ih =>
      simp only [List.cons_append, cutText, List.foldl_cons]
      split
      · rw [ih hcut, List.cons_append]
      · rw [ih hcut, glue_append (cutText_ne_nil _ _)]

/-- Two states that step alike and cut alike have the same pieces. -/
theorem cutText_congr {τ : Type} {step' : τ → α → τ} {cuts' : τ → α → Bool}
    (alike : σ → τ → Prop)
    (hstep : ∀ s t a, alike s t → alike (step s a) (step' t a))
    (hcuts : ∀ s t a, alike s t → cuts (step s a) a = cuts' (step' t a) a)
    {s : σ} {t : τ} (h : alike s t) (text : List α) :
    cutText step cuts s text = cutText step' cuts' t text := by
  induction text generalizing s t with
  | nil => rfl
  | cons a rest ih =>
      simp only [cutText, hcuts s t a h]
      rw [ih (hstep s t a h)]

end Library
end SqlCodeGenerator
