import Mathlib.Tactic

/-!
# Fragmented streams

What the reader of a byte stream meets: segments of any size, interruptions
between them, and in the end a peer that has closed the connection or a failure.
A read takes at most as much as it asks for, from one segment.

* `Incoming.recv`: one read;
* `Incoming.recv_spec`: what a read that asks for something can do;
* `Incoming.weight`: every read of something that arrives makes it smaller, so a
  loop of reads ends.

The other direction is a list of answers to writes: interrupted, or so many items
accepted; a writer that has met all of them is accepted whole.

The module names nothing of a particular program.
-/

namespace SqlCodeGenerator
namespace Library

variable {α : Type}

/-- What a read meets.  A segment is not empty. -/
inductive Arrival (α : Type) where
  | interrupted
  | segment (first : α) (rest : List α)

/-- The items of an arrival. -/
def Arrival.items : Arrival α → List α
  | interrupted => []
  | segment first rest => first :: rest

/-- What is still to arrive on a stream, and how the stream ends. -/
structure Incoming (α : Type) where
  arrivals : List (Arrival α)
  fails : Bool

/-- The answer to a read. -/
inductive Answer (α : Type) where
  | items (xs : List α)
  | interrupted
  | closed
  | failed

namespace Incoming

/-- The items still to arrive. -/
def items (s : Incoming α) : List α := s.arrivals.flatMap Arrival.items

/-- A bound for the number of reads that the arrivals can answer. -/
def weight (s : Incoming α) : Nat := s.items.length + s.arrivals.length

/-- The arrivals with a segment in front, if anything is left of it. -/
def putBack : List α → List (Arrival α) → List (Arrival α)
  | [], arrivals => arrivals
  | first :: rest, arrivals => .segment first rest :: arrivals

/-- One read that asks for at most `limit` items. -/
def recv (limit : Nat) (s : Incoming α) : Answer α × Incoming α :=
  match s.arrivals with
  | [] => (if s.fails then .failed else .closed, s)
  | .interrupted :: arrivals => (.interrupted, { s with arrivals := arrivals })
  | .segment first rest :: arrivals =>
      (.items ((first :: rest).take limit),
        { s with arrivals := putBack ((first :: rest).drop limit) arrivals })

theorem items_putBack (left : List α) (arrivals : List (Arrival α)) :
    (putBack left arrivals).flatMap Arrival.items = left ++ arrivals.flatMap Arrival.items := by
  cases left with
  | nil => rfl
  | cons first rest => simp [putBack, Arrival.items]

theorem length_putBack_le (left : List α) (arrivals : List (Arrival α)) :
    (putBack left arrivals).length ≤ arrivals.length + 1 := by
  cases left with
  | nil => exact Nat.le_succ _
  | cons first rest => exact Nat.le_refl _

/-- The possible answers to a read that asks for something: a part of what
arrives, an interruption, or the end of the stream. -/
inductive RecvSpec (limit : Nat) (s : Incoming α) : Answer α × Incoming α → Prop where
  | items (xs : List α) (s' : Incoming α) (hne : xs ≠ []) (hlimit : xs.length ≤ limit)
      (hitems : s.items = xs ++ s'.items) (hfails : s'.fails = s.fails)
      (hweight : s'.weight < s.weight) : RecvSpec limit s (.items xs, s')
  | interrupted (s' : Incoming α) (hitems : s'.items = s.items) (hfails : s'.fails = s.fails)
      (hweight : s'.weight < s.weight) : RecvSpec limit s (.interrupted, s')
  | closed (hitems : s.items = []) (hfails : s.fails = false) : RecvSpec limit s (.closed, s)
  | failed (hitems : s.items = []) (hfails : s.fails = true) : RecvSpec limit s (.failed, s)

theorem recv_spec {limit : Nat} (hlimit : 0 < limit) (s : Incoming α) :
    RecvSpec limit s (s.recv limit) := by
  obtain ⟨arrivals, fails⟩ := s
  cases arrivals with
  | nil =>
      cases fails with
      | true => exact .failed rfl rfl
      | false => exact .closed rfl rfl
  | cons arrival arrivals =>
      cases arrival with
      | interrupted =>
          refine .interrupted _ (by simp [items, Arrival.items]) rfl ?_
          simp [weight, items, Arrival.items]
      | segment first rest =>
          have hsplit : items ⟨.segment first rest :: arrivals, fails⟩ =
              (first :: rest).take limit ++
                items ⟨putBack ((first :: rest).drop limit) arrivals, fails⟩ := by
            simp only [items, items_putBack]
            rw [← List.append_assoc, List.take_append_drop]
            rfl
          have htaken : ((first :: rest).take limit).length = min limit (rest.length + 1) :=
            List.length_take
          refine .items _ _ ?_ ?_ hsplit rfl ?_
          · rw [← List.length_pos_iff, htaken]
            omega
          · omega
          · have hlength := congrArg List.length hsplit
            rw [List.length_append, htaken] at hlength
            have hput := length_putBack_le ((first :: rest).drop limit) arrivals
            simp only [weight, List.length_cons]
            omega

end Incoming

/-- The answer to a write: interrupted, or so many items accepted, or a failure. -/
inductive WriteAnswer where
  | interrupted
  | accepted (count : Nat)
  | failed

/-- An answer that lets the writer go on. -/
def WriteAnswer.goesOn : WriteAnswer → Bool
  | interrupted => true
  | accepted count => 0 < count
  | failed => false

end Library
end SqlCodeGenerator
