import Mathlib.Tactic

/-!
# Outcomes of a C function

A C function of the error-code style either returns success with a result, or
returns failure with a text for its caller, or performs a memory access that
the language gives no meaning to.  `Outcome` keeps the three apart, so that
nothing is ever proved about a run after an undefined access: `fault` absorbs
every continuation and is equal to no `ok` and to no `error`.

The module names nothing of a particular program.
-/

namespace SqlCodeGenerator
namespace Library

/-- The outcome of a call: success with a value, failure with a message, or an
undefined memory access. -/
inductive Outcome (ε α : Type) where
  | ok (value : α)
  | error (message : ε)
  | fault
  deriving DecidableEq, Repr

namespace Outcome

variable {ε α β : Type}

/-- Sequencing: the continuation runs on a successful value only. -/
def bind : Outcome ε α → (α → Outcome ε β) → Outcome ε β
  | ok value, next => next value
  | error message, _ => error message
  | fault, _ => fault

instance : Monad (Outcome ε) where
  pure := ok
  bind := bind

@[simp] theorem ok_bind (value : α) (next : α → Outcome ε β) :
    (ok value >>= next) = next value := rfl

@[simp] theorem error_bind (message : ε) (next : α → Outcome ε β) :
    ((error message : Outcome ε α) >>= next) = error message := rfl

@[simp] theorem fault_bind (next : α → Outcome ε β) :
    ((fault : Outcome ε α) >>= next) = fault := rfl

@[simp] theorem pure_eq_ok (value : α) : (pure value : Outcome ε α) = ok value := rfl

instance : LawfulMonad (Outcome ε) :=
  LawfulMonad.mk' _
    (by intro α outcome; cases outcome <;> rfl)
    (by intros; rfl)
    (by intro α β γ outcome f g; cases outcome <;> rfl)

/-- Inversion of a successful sequence: both halves succeeded. -/
theorem bind_eq_ok_iff {outcome : Outcome ε α} {next : α → Outcome ε β} {result : β} :
    (outcome >>= next) = ok result ↔
      ∃ value, outcome = ok value ∧ next value = ok result := by
  cases outcome with
  | ok value => simp
  | error message => simp
  | fault => simp

/-- The same for a first half that only checks. -/
theorem check_bind_eq_ok_iff {check : Outcome ε Unit} {next : Unit → Outcome ε β}
    {result : β} :
    (check >>= next) = ok result ↔ check = ok () ∧ next () = ok result := by
  cases check with
  | ok value => simp
  | error message => simp
  | fault => simp

/-- A sequence is undefined where one of its halves is. -/
theorem bind_eq_fault_iff {outcome : Outcome ε α} {next : α → Outcome ε β} :
    (outcome >>= next) = fault ↔
      outcome = fault ∨ ∃ value, outcome = ok value ∧ next value = fault := by
  cases outcome with
  | ok value => simp
  | error message => simp
  | fault => simp

/-- The guard of a C function: fail with the message when the test holds. -/
def failWhen (test : Prop) [Decidable test] (message : ε) : Outcome ε Unit :=
  if test then error message else ok ()

@[simp] theorem failWhen_eq_ok_iff {test : Prop} [Decidable test] {message : ε} :
    (failWhen test message : Outcome ε Unit) = ok () ↔ ¬ test := by
  unfold failWhen
  split <;> simp_all

theorem failWhen_ne_fault {test : Prop} [Decidable test] {message : ε} :
    (failWhen test message : Outcome ε Unit) ≠ fault := by
  unfold failWhen
  split <;> simp

end Outcome

end Library
end SqlCodeGenerator
