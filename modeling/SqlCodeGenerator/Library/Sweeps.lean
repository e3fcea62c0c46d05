import Mathlib.Tactic

/-!
# Sweeps that remove and append

A sweep goes once through the items of an array.  What is done with an item that it visits
may end with its removal, the items behind it moving down, or with a new item at the end of
the array; items that are not ready are passed over.

* `sweep`: the sweep, as a recursion over the items;
* `map_fst_visits`: each ready item is visited once, in order, and no other is;
* `kept_eq`, `appended_eq`: what is left is said by the visits;
* `sweep_append`: items that are not ready and come at the end stay there;
* `take_shiftDown`: a `memmove` over an item is its removal.

The module names nothing of a particular program.
-/

namespace SqlCodeGenerator
namespace Library

variable {α σ : Type}

/-- What becomes of an item that is visited. -/
inductive Visit (α : Type) where
  | keep
  | remove
  | append (item : α)
  deriving DecidableEq

namespace Visit

/-- The item visited, if it is still there. -/
def kept (a : α) : Visit α → List α
  | keep => [a]
  | remove => []
  | append _ => [a]

/-- The new item. -/
def added : Visit α → List α
  | keep => []
  | remove => []
  | append b => [b]

/-- The number of items after the visit. -/
def used (count : Nat) : Visit α → Nat
  | keep => count
  | remove => count - 1
  | append _ => count + 1

end Visit

/-- What a sweep leaves: the items it kept, those it appended, and the items it visited with
what became of them. -/
structure Swept (σ α : Type) where
  world : σ
  kept : List α
  appended : List α
  visits : List (α × Visit α)

section Sweep

variable (ready : α → Bool) (handle : σ → Nat → α → σ × Visit α)

/-- A sweep through items, where `count` of them are in the array. -/
def sweep : Nat → σ → List α → Swept σ α
  | _, world, [] => ⟨world, [], [], []⟩
  | count, world, a :: rest =>
      if ready a then
        let visited := handle world count a
        let later := sweep (visited.2.used count) visited.1 rest
        ⟨later.world, visited.2.kept a ++ later.kept, visited.2.added ++ later.appended,
          (a, visited.2) :: later.visits⟩
      else
        let later := sweep count world rest
        { later with kept := a :: later.kept }

/-- The items that are left of those there were, when the ready ones were visited so. -/
def survivors : List α → List (Visit α) → List α
  | [], _ => []
  | a :: rest, visits =>
      if ready a then (visits.headD .keep).kept a ++ survivors rest visits.tail
      else a :: survivors rest visits

variable {ready handle} {count : Nat} {world : σ} {a : α} {items : List α}

theorem sweep_ready (ha : ready a = true) :
    sweep ready handle count world (a :: items) =
      ⟨(sweep ready handle ((handle world count a).2.used count) (handle world count a).1
          items).world,
        (handle world count a).2.kept a ++
          (sweep ready handle ((handle world count a).2.used count) (handle world count a).1
            items).kept,
        (handle world count a).2.added ++
          (sweep ready handle ((handle world count a).2.used count) (handle world count a).1
            items).appended,
        (a, (handle world count a).2) ::
          (sweep ready handle ((handle world count a).2.used count) (handle world count a).1
            items).visits⟩ := by
  rw [sweep, if_pos ha]

theorem sweep_quiet (ha : ready a = false) :
    sweep ready handle count world (a :: items) =
      { sweep ready handle count world items with
        kept := a :: (sweep ready handle count world items).kept } := by
  rw [sweep, if_neg (Bool.eq_false_iff.mp ha)]

/-- Each ready item is visited once, in the order of the items, and no other one is. -/
theorem map_fst_visits (count : Nat) (world : σ) (items : List α) :
    (sweep ready handle count world items).visits.map Prod.fst = items.filter ready := by
  induction items generalizing count world with
  | nil => rfl
  | cons a items ih =>
      cases ha : ready a with
      | true =>
          rw [sweep_ready ha, List.filter_cons_of_pos ha, List.map_cons, ih]
      | false =>
          rw [sweep_quiet ha, List.filter_cons_of_neg (Bool.eq_false_iff.mp ha)]
          exact ih count world

theorem kept_eq (count : Nat) (world : σ) (items : List α) :
    (sweep ready handle count world items).kept =
      survivors ready items ((sweep ready handle count world items).visits.map Prod.snd) := by
  induction items generalizing count world with
  | nil => rfl
  | cons a items ih =>
      cases ha : ready a with
      | true =>
          rw [sweep_ready ha, List.map_cons, survivors, if_pos ha]
          exact congrArg _ (ih _ _)
      | false =>
          rw [sweep_quiet ha, survivors, if_neg (Bool.eq_false_iff.mp ha)]
          exact congrArg _ (ih count world)

theorem appended_eq (count : Nat) (world : σ) (items : List α) :
    (sweep ready handle count world items).appended =
      (sweep ready handle count world items).visits.flatMap fun visited => visited.2.added := by
  induction items generalizing count world with
  | nil => rfl
  | cons a items ih =>
      cases ha : ready a with
      | true =>
          rw [sweep_ready ha, List.flatMap_cons, ih]
      | false =>
          rw [sweep_quiet ha]
          exact ih count world

/-- What each visit was, given what the visits of items do. -/
theorem visits_forall {P : α → Visit α → Prop}
    (hhandle : ∀ world count a, a ∈ items → ready a = true → P a (handle world count a).2)
    (count : Nat) (world : σ) :
    ∀ visited ∈ (sweep ready handle count world items).visits, P visited.1 visited.2 := by
  induction items generalizing count world with
  | nil =>
      intro visited hvisited
      cases hvisited
  | cons a items ih =>
      have hrest := ih fun world count b hb => hhandle world count b (List.mem_cons_of_mem a hb)
      cases ha : ready a with
      | true =>
          rw [sweep_ready ha]
          intro visited hvisited
          rcases List.mem_cons.mp hvisited with rfl | hlater
          · exact hhandle world count a List.mem_cons_self ha
          · exact hrest _ _ visited hlater
      | false =>
          rw [sweep_quiet ha]
          exact hrest count world

/-- Items at the end that are not ready are kept behind the others. -/
theorem sweep_append {quiet : List α} (hquiet : ∀ b ∈ quiet, ready b = false) (count : Nat)
    (world : σ) (items : List α) :
    sweep ready handle count world (items ++ quiet) =
      { sweep ready handle count world items with
        kept := (sweep ready handle count world items).kept ++ quiet } := by
  induction items generalizing count world with
  | nil =>
      rw [List.nil_append]
      induction quiet with
      | nil => rfl
      | cons b quiet ih =>
          rw [sweep_quiet (hquiet b List.mem_cons_self),
            ih fun c hc => hquiet c (List.mem_cons_of_mem b hc)]
          rfl
  | cons a items ih =>
      rw [List.cons_append]
      cases ha : ready a with
      | true =>
          rw [sweep_ready ha, sweep_ready ha, ih, List.append_assoc]
      | false =>
          rw [sweep_quiet ha, sweep_quiet ha, ih, List.cons_append]

end Sweep

/-! ## What is left of different items -/

/-- Of different items, those are left that were not visited and removed. -/
theorem survivors_eq_filter [DecidableEq α] {ready : α → Bool} {items : List α}
    (hnodup : items.Nodup) {visits : List (α × Visit α)}
    (hvisits : visits.map Prod.fst = items.filter ready) :
    survivors ready items (visits.map Prod.snd) =
      items.filter fun a => decide ((a, Visit.remove) ∉ visits) := by
  induction items generalizing visits with
  | nil => rfl
  | cons a items ih =>
      obtain ⟨ha, hothers⟩ := List.nodup_cons.mp hnodup
      -- an item that is not there is not visited
      have hfst : ∀ {visits : List (α × Visit α)}, visits.map Prod.fst = items.filter ready →
          (a, Visit.remove) ∉ visits := by
        intro visits hvisits hmem
        have hin : a ∈ visits.map Prod.fst := List.mem_map_of_mem hmem
        rw [hvisits] at hin
        exact ha (List.mem_of_mem_filter hin)
      cases hready : ready a with
      | true =>
          rw [List.filter_cons_of_pos hready] at hvisits
          cases visits with
          | nil => cases hvisits
          | cons visited visits =>
              obtain ⟨b, visit⟩ := visited
              obtain ⟨rfl, hrest⟩ := List.cons.inj hvisits
              have hsame : items.filter (fun c => decide ((c, Visit.remove) ∉
                  (b, visit) :: visits)) =
                  items.filter fun c => decide ((c, Visit.remove) ∉ visits) := by
                refine List.filter_congr fun c hc => decide_eq_decide.mpr ?_
                have hne : (c, Visit.remove) ≠ (b, visit) := by
                  intro heq
                  exact ha ((Prod.mk.inj heq).1 ▸ hc)
                rw [List.mem_cons, not_or]
                exact ⟨fun h => h.2, fun h => ⟨hne, h⟩⟩
              rw [List.map_cons, survivors, if_pos hready]
              show visit.kept b ++ survivors ready items (visits.map Prod.snd) = _
              rw [ih hothers hrest, List.filter_cons, hsame]
              have hremoved : (b, Visit.remove) ∈ (b, visit) :: visits ↔ visit = .remove := by
                rw [List.mem_cons, Prod.mk.injEq]
                constructor
                · rintro (⟨-, hvisit⟩ | hmem)
                  · exact hvisit.symm
                  · exact absurd hmem (hfst hrest)
                · rintro rfl
                  exact Or.inl ⟨rfl, rfl⟩
              cases visit with
              | remove => simp [hremoved, Visit.kept]
              | keep => simp [hremoved, Visit.kept]
              | append c => simp [hremoved, Visit.kept]
      | false =>
          rw [List.filter_cons_of_neg (Bool.eq_false_iff.mp hready)] at hvisits
          have hleft : decide ((a, Visit.remove) ∉ visits) = true :=
            decide_eq_true (hfst hvisits)
          rw [survivors, if_neg (Bool.eq_false_iff.mp hready), ih hothers hvisits,
            List.filter_cons, if_pos hleft]

/-! ## Moving items down -/

/-- `memmove(&a[i], &a[i + 1], count)`, in cells. -/
def shiftDown (cells : List α) (i count : Nat) : List α :=
  cells.take i ++ (cells.drop (i + 1)).take count ++ cells.drop (i + count)

theorem length_shiftDown {cells : List α} {i count : Nat} (h : i + count < cells.length) :
    (shiftDown cells i count).length = cells.length := by
  unfold shiftDown
  simp only [List.length_append, List.length_take, List.length_drop]
  omega

/-- The items behind one are moved over it. -/
theorem take_shiftDown {cells : List α} {i used : Nat} (hi : i < used)
    (hused : used ≤ cells.length) :
    (shiftDown cells i (used - i - 1)).take (used - 1) =
      cells.take i ++ (cells.take used).drop (i + 1) := by
  unfold shiftDown
  have hmoved : (cells.take i ++ (cells.drop (i + 1)).take (used - i - 1)).length = used - 1 := by
    simp only [List.length_append, List.length_take, List.length_drop]
    omega
  have hbehind : (cells.take used).drop (i + 1) = (cells.drop (i + 1)).take (used - i - 1) := by
    rw [List.drop_take]
    congr 1
  rw [List.take_left' hmoved, hbehind]

end Library
end SqlCodeGenerator
