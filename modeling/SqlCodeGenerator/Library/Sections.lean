import Mathlib.Tactic

/-!
# Critical sections

A program that goes through a shared memory access by access, and comes to a result.  Run
without interruption it is a function of the memory.  Where nobody else writes to the
memory, what is left of a program brings, at every access, what the whole brings.

* `Section.run`: the program without interruption;
* `Section.access`, `Section.run_access`: one access, and what is left then;
* `Section.KeepsToEnd`: no access but the last changes a given part of the memory.

The module names nothing of a particular program.
-/

namespace SqlCodeGenerator
namespace Library

/-- A program on a memory `σ` with a result `ρ`. -/
inductive Section (σ ρ : Type) where
  | done (result : ρ)
  /-- What follows depends on the memory. -/
  | read (next : σ → Section σ ρ)
  | write (change : σ → σ) (next : Section σ ρ)

namespace Section

variable {σ ρ δ : Type}

/-- The program without interruption. -/
def run : Section σ ρ → σ → ρ × σ
  | done result, s => (result, s)
  | read next, s => (next s).run s
  | write change next, s => next.run (change s)

/-- One access: what is left of the program, and the memory. -/
def access : Section σ ρ → σ → Section σ ρ × σ
  | done result, s => (done result, s)
  | read next, s => (next s, s)
  | write change next, s => (next, change s)

/-- The result, if nothing is left to do. -/
def result? : Section σ ρ → Option ρ
  | done result => some result
  | _ => none

variable {p : Section σ ρ} {s : σ} {view : σ → δ}

/-- What is left brings what the whole brings. -/
theorem run_access (p : Section σ ρ) (s : σ) : (p.access s).1.run (p.access s).2 = p.run s := by
  cases p with
  | done result => rfl
  | read next => rfl
  | write change next => rfl

theorem run_of_result {result : ρ} (h : p.result? = some result) : p.run s = (result, s) := by
  cases p with
  | done other =>
      obtain rfl := Option.some.inj h
      rfl
  | read next => cases h
  | write change next => cases h

/-- No access changes a part of the memory, unless it is the last. -/
def KeepsToEnd (view : σ → δ) : Section σ ρ → Prop
  | done _ => True
  | read next => ∀ s, (next s).KeepsToEnd view
  | write change next =>
      next.KeepsToEnd view ∧ (next.result? = none → ∀ s, view (change s) = view s)

theorem KeepsToEnd.access (h : p.KeepsToEnd view) (s : σ) : (p.access s).1.KeepsToEnd view := by
  cases p with
  | done result => exact h
  | read next => exact h s
  | write change next => exact h.1

theorem KeepsToEnd.view_eq (h : p.KeepsToEnd view) (hleft : (p.access s).1.result? = none) :
    view (p.access s).2 = view s := by
  cases p with
  | done result => rfl
  | read next => rfl
  | write change next => exact h.2 hleft s

end Section

end Library
end SqlCodeGenerator
