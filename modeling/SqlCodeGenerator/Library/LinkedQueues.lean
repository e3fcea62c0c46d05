import Mathlib.Tactic

/-!
# Linked queues

A queue whose items stand at places that are linked: a first place, at each place a link
to the next one, and a last place.

* `Chain`: the places met from a first one on;
* `Chain.nodup`: none of them is met twice;
* `LinkedQueue.Represents`: a linked queue holds a list of places;
* `LinkedQueue.Represents.push`, `LinkedQueue.Represents.pop`: a place is linked behind
  the last one, and the first one is taken off.

The module names nothing of a particular program.
-/

namespace SqlCodeGenerator
namespace Library

variable {π : Type} {next next' : π → Option π}

/-- The places met from a first one on, along the links, until there is no further one. -/
inductive Chain (next : π → Option π) : Option π → List π → Prop where
  | nil : Chain next none []
  | cons (p : π) (places : List π) (h : Chain next (next p) places) :
      Chain next (some p) (p :: places)

namespace Chain

variable {first : Option π} {p : π} {places places' : List π}

/-- The links say which places are met. -/
theorem unique (h : Chain next first places) (h' : Chain next first places') :
    places = places' := by
  induction h generalizing places' with
  | nil =>
      cases h'
      rfl
  | cons p places _ ih =>
      cases h' with
      | cons _ rest hrest => rw [ih hrest]

theorem eq_nil_iff (h : Chain next first places) : places = [] ↔ first = none := by
  cases h with
  | nil => simp
  | cons p places h => simp

/-- From every place on the rest is met. -/
theorem suffix (h : Chain next first (places ++ p :: places')) :
    Chain next (some p) (p :: places') := by
  induction places generalizing first with
  | nil =>
      cases h with
      | cons _ _ h => exact .cons p places' h
  | cons q places ih =>
      cases h with
      | cons _ _ h => exact ih h

/-- No place is met twice: behind it the same places would be met again. -/
theorem nodup (h : Chain next first places) : places.Nodup := by
  induction h with
  | nil => exact List.nodup_nil
  | cons p places h ih =>
      refine List.nodup_cons.mpr ⟨fun hmem => ?_, ih⟩
      obtain ⟨before, after, hplaces⟩ := List.append_of_mem hmem
      rw [hplaces] at h
      have hagain : Chain next (some p) (p :: after) := h.suffix
      have hsame := hagain.unique (.cons p _ h)
      have hlength := congrArg List.length (List.cons.inj hsame).2
      rw [List.length_append, List.length_cons] at hlength
      omega

/-- A place is linked behind the last one, and no other link changes. -/
theorem concat {front : List π} {last : π} (h : Chain next first (front ++ [last]))
    (hother : ∀ r ∈ front, next' r = next r) (hlink : next' last = some p)
    (hend : next' p = none) : Chain next' first (front ++ [last] ++ [p]) := by
  induction front generalizing first with
  | nil =>
      cases h with
      | cons _ _ h =>
          apply Chain.cons last
          rw [hlink]
          apply Chain.cons p
          rw [hend]
          exact .nil
  | cons r front ih =>
      cases h with
      | cons _ _ h =>
          apply Chain.cons r
          rw [hother r List.mem_cons_self]
          exact ih h fun r' hr' => hother r' (List.mem_cons_of_mem r hr')

end Chain

/-- The first place and the last one. -/
structure LinkedQueue (π : Type) where
  head : Option π
  tail : Option π

namespace LinkedQueue

variable {q : LinkedQueue π} {p : π} {places : List π}

/-- The links after a place is linked behind the last one. -/
def linkLast [DecidableEq π] (next : π → Option π) (q : LinkedQueue π) (p : π) : π → Option π :=
  match q.tail with
  | none => Function.update next p none
  | some last => Function.update (Function.update next p none) last (some p)

/-- The queue after a place is linked behind the last one. -/
def push (q : LinkedQueue π) (p : π) : LinkedQueue π :=
  match q.tail with
  | none => ⟨some p, some p⟩
  | some _ => ⟨q.head, some p⟩

/-- The queue after its first place, with that link, is taken off. -/
def pop (q : LinkedQueue π) (link : Option π) : LinkedQueue π :=
  ⟨link, if link = none then none else q.tail⟩

/-- The places of the queue are met from the first one on, and the last of them is the
last place. -/
structure Represents (next : π → Option π) (q : LinkedQueue π) (places : List π) : Prop where
  chain : Chain next q.head places
  tail : q.tail = places.getLast?

namespace Represents

theorem empty (next : π → Option π) : Represents next ⟨none, none⟩ [] := ⟨.nil, rfl⟩

/-- There is no last place exactly if there is no first one. -/
theorem tail_eq_none_iff (h : Represents next q places) : q.tail = none ↔ q.head = none := by
  rw [h.tail, List.getLast?_eq_none_iff]
  exact h.chain.eq_nil_iff

/-- A new place is the last one. -/
theorem push [DecidableEq π] (h : Represents next q places) (hp : p ∉ places) :
    Represents (linkLast next q p) (q.push p) (places ++ [p]) := by
  obtain ⟨head, tail⟩ := q
  have htail : tail = places.getLast? := h.tail
  have hchain : Chain next head places := h.chain
  refine ⟨?_, ?_⟩
  · cases htail' : tail with
    | none =>
        have hempty : places = [] := List.getLast?_eq_none_iff.mp (htail.symm.trans htail')
        subst hempty
        apply Chain.cons
        show Chain _ (Function.update next p none p) []
        rw [Function.update_self]
        exact .nil
    | some last =>
        obtain ⟨front, rfl⟩ := List.getLast?_eq_some_iff.mp (htail.symm.trans htail')
        have hne : p ≠ last := by
          rintro rfl
          exact hp (List.mem_append_right front List.mem_cons_self)
        show Chain (Function.update (Function.update next p none) last (some p)) head
          (front ++ [last] ++ [p])
        apply hchain.concat
        · intro r hr
          have hrlast : r ≠ last := by
            rintro rfl
            exact (List.nodup_append.mp hchain.nodup).2.2 r hr r List.mem_cons_self rfl
          have hrp : r ≠ p := by
            rintro rfl
            exact hp (List.mem_append_left _ hr)
          rw [Function.update_of_ne hrlast, Function.update_of_ne hrp]
        · rw [Function.update_self]
        · rw [Function.update_of_ne hne, Function.update_self]
  · show (LinkedQueue.push ⟨head, tail⟩ p).tail = _
    rw [List.getLast?_concat]
    cases tail with
    | none => rfl
    | some last => rfl

/-- The first place is taken off, with its link. -/
theorem pop (h : Represents next q (p :: places)) :
    q.head = some p ∧ Represents next (q.pop (next p)) places := by
  obtain ⟨head, tail⟩ := q
  have htail : tail = (p :: places).getLast? := h.tail
  cases h.chain with
  | cons _ _ hrest =>
      refine ⟨rfl, hrest, ?_⟩
      show (if next p = none then none else tail) = places.getLast?
      by_cases hlink : next p = none
      · rw [if_pos hlink, hrest.eq_nil_iff.mpr hlink]
        rfl
      · have hne : places ≠ [] := fun hempty => hlink (hrest.eq_nil_iff.mp hempty)
        rw [if_neg hlink, htail, List.getLast?_cons_of_ne_nil hne]

end Represents

end LinkedQueue

end Library
end SqlCodeGenerator
