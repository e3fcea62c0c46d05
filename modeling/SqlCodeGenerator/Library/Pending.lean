import Mathlib.Tactic

/-!
# One cell for many requests

Requests are asked for and looked at one by one; what is asked for stays owed until it
is looked at.  A single cell that every request overwrites stands for all of them.  What
is found in the cell is cleared from it, which need not be at once.

* `Pending.Standing`: the cell holds nothing but what is owed.
* `Pending.exact_iff`: the cell then tells whether a request is owed, unless the cell was
  written or cleared since the request was asked for.

The module names nothing of a particular program.
-/

namespace SqlCodeGenerator
namespace Library

variable {α : Type}

/-- What has been asked for and not been looked at since, and what was asked for last,
if the cell has not been cleared since. -/
structure Pending (α : Type) where
  owed : Finset α
  last : Option α

namespace Pending

/-- Nothing has been asked for. -/
def empty : Pending α := ⟨∅, none⟩

/-- A request is asked for. -/
def ask [DecidableEq α] (p : Pending α) (a : α) : Pending α := ⟨insert a p.owed, some a⟩

/-- A request is looked at. -/
def done [DecidableEq α] (p : Pending α) (a : α) : Pending α := { p with owed := p.owed.erase a }

/-- The cell is cleared. -/
def wipe (p : Pending α) : Pending α := { p with last := none }

/-- The cell holds nothing but what is owed. -/
def Standing (p : Pending α) : Prop := ∀ a, p.last = some a → a ∈ p.owed

variable {p : Pending α} {a : α}

theorem standing_ask [DecidableEq α] (p : Pending α) (a : α) : (p.ask a).Standing := by
  intro b hlast
  obtain rfl := Option.some.inj hlast
  exact Finset.mem_insert_self a p.owed

theorem standing_wipe (p : Pending α) : p.wipe.Standing := fun _ hlast => by cases hlast

/-- What is looked at and not found in the cell leaves it as it is. -/
theorem Standing.done [DecidableEq α] (hp : p.Standing) (hother : p.last ≠ some a) :
    (p.done a).Standing := by
  intro b hlast
  refine Finset.mem_erase.mpr ⟨fun heq => ?_, hp b hlast⟩
  rw [heq] at hlast
  exact hother hlast

/-- The cell tells whether a request is owed, unless it was overwritten or cleared
since. -/
theorem Standing.exact_iff (hp : p.Standing) :
    (p.last = some a ↔ a ∈ p.owed) ↔ (a ∈ p.owed → p.last = some a) :=
  ⟨fun h => h.mpr, fun h => ⟨hp a, h⟩⟩

end Pending

end Library
end SqlCodeGenerator
