import Mathlib.Tactic

/-!
# Dialogues

A program that does nothing but send messages and wait for answers is a tree: after a message
it goes on by whether that was taken, and at a receive by what came.  Two programs are alike
when they send the same messages whatever they are answered, and end in related results.

* `Dialogue`: the programs, with their sequencing;
* `Dialogue.run`: a dialogue with a partner;
* `Alike`: programs that speak alike; `Alike.bind` for sequences, `Alike.run` for every partner.

A program that may go on forever is followed for so many rounds, and is `cut` there.

The module names nothing of a particular program.
-/

namespace SqlCodeGenerator
namespace Library

variable {μ ν α β γ δ σ : Type}

/-- A program that sends `μ` and receives `ν`. -/
inductive Dialogue (μ ν α : Type) where
  | done (result : α)
  /-- What follows depends on whether the message could be sent. -/
  | send (m : μ) (next : Bool → Dialogue μ ν α)
  /-- Nothing is received where the connection has ended. -/
  | receive (next : Option ν → Dialogue μ ν α)
  /-- The program goes on, and is not followed. -/
  | cut

namespace Dialogue

/-- Sequencing. -/
def bind : Dialogue μ ν α → (α → Dialogue μ ν β) → Dialogue μ ν β
  | done a, f => f a
  | send m next, f => send m fun sent => (next sent).bind f
  | receive next, f => receive fun answer => (next answer).bind f
  | cut, _ => cut

instance : Monad (Dialogue μ ν) where
  pure := done
  bind := bind

@[simp] theorem pure_eq_done (a : α) : (pure a : Dialogue μ ν α) = done a := rfl

@[simp] theorem done_bind (a : α) (f : α → Dialogue μ ν β) : (done a >>= f) = f a := rfl

@[simp] theorem send_bind (m : μ) (next : Bool → Dialogue μ ν α) (f : α → Dialogue μ ν β) :
    (send m next >>= f) = send m fun sent => next sent >>= f := rfl

@[simp] theorem receive_bind (next : Option ν → Dialogue μ ν α) (f : α → Dialogue μ ν β) :
    (receive next >>= f) = receive fun answer => next answer >>= f := rfl

@[simp] theorem cut_bind (f : α → Dialogue μ ν β) : ((cut : Dialogue μ ν α) >>= f) = cut := rfl

theorem bind_done (d : Dialogue μ ν α) : (d >>= done) = d := by
  induction d with
  | done a => rfl
  | send m next ih => exact congrArg (send m) (funext ih)
  | receive next ih => exact congrArg receive (funext ih)
  | cut => rfl

theorem bind_assoc (d : Dialogue μ ν α) (f : α → Dialogue μ ν β) (g : β → Dialogue μ ν γ) :
    (d >>= f >>= g) = (d >>= fun a => f a >>= g) := by
  induction d with
  | done a => rfl
  | send m next ih => exact congrArg (send m) (funext ih)
  | receive next ih => exact congrArg receive (funext ih)
  | cut => rfl

instance : LawfulMonad (Dialogue μ ν) :=
  LawfulMonad.mk' _ bind_done (fun _ _ => rfl) bind_assoc

end Dialogue

/-! ## Partners -/

/-- Whom a program talks to: is a message taken, and what comes next, if anything does? -/
structure Partner (σ μ ν : Type) where
  take : σ → μ → Bool × σ
  give : σ → Option (Option ν × σ)

/-- A dialogue with a partner.  No result where it waits forever, or is not followed to its end. -/
def Dialogue.run (partner : Partner σ μ ν) : Dialogue μ ν α → σ → Option (α × σ)
  | done a, s => some (a, s)
  | send m next, s => (next (partner.take s m).1).run partner (partner.take s m).2
  | receive next, s =>
      match partner.give s with
      | none => none
      | some (answer, s) => (next answer).run partner s
  | cut, _ => none

theorem Dialogue.run_bind (partner : Partner σ μ ν) (d : Dialogue μ ν α) (f : α → Dialogue μ ν β)
    (s : σ) :
    (d >>= f).run partner s = (d.run partner s).bind fun (a, s) => (f a).run partner s := by
  induction d generalizing s with
  | done a => rfl
  | send m next ih => exact ih _ _
  | receive next ih =>
      rw [receive_bind, run, run]
      cases partner.give s with
      | none => rfl
      | some given => exact ih given.1 given.2
  | cut => rfl

theorem Dialogue.run_map (partner : Partner σ μ ν) (f : α → β) (d : Dialogue μ ν α) (s : σ) :
    (f <$> d).run partner s = (d.run partner s).map fun (a, s) => (f a, s) := by
  rw [map_eq_pure_bind, run_bind, Option.map_eq_bind]
  rfl

/-! ## Programs that speak alike -/

/-- The same messages, whatever is answered, and related results. -/
inductive Alike (R : α → β → Prop) : Dialogue μ ν α → Dialogue μ ν β → Prop where
  | done {a : α} {b : β} (h : R a b) : Alike R (.done a) (.done b)
  | send (m : μ) {next : Bool → Dialogue μ ν α} {next' : Bool → Dialogue μ ν β}
      (h : ∀ sent, Alike R (next sent) (next' sent)) : Alike R (.send m next) (.send m next')
  | receive {next : Option ν → Dialogue μ ν α} {next' : Option ν → Dialogue μ ν β}
      (h : ∀ answer, Alike R (next answer) (next' answer)) :
      Alike R (.receive next) (.receive next')
  | cut : Alike R .cut .cut

namespace Alike

variable {R : α → β → Prop} {S : γ → δ → Prop} {d : Dialogue μ ν α} {d' : Dialogue μ ν β}

/-- Sequences of programs that speak alike. -/
theorem bind {f : α → Dialogue μ ν γ} {g : β → Dialogue μ ν δ} (h : Alike R d d')
    (hnext : ∀ a b, R a b → Alike S (f a) (g b)) : Alike S (d >>= f) (d' >>= g) := by
  induction h with
  | done hab => exact hnext _ _ hab
  | send m _ ih => exact .send m ih
  | receive _ ih => exact .receive ih
  | cut => exact .cut

/-- With any partner they come to related results, and leave the partner the same. -/
theorem run (h : Alike R d d') (partner : Partner σ μ ν) (s : σ) :
    Option.Rel (fun r r' => R r.1 r'.1 ∧ r.2 = r'.2) (d.run partner s) (d'.run partner s) := by
  induction h generalizing s with
  | done hab => exact .some ⟨hab, rfl⟩
  | send m _ ih => exact ih _ _
  | receive _ ih =>
      simp only [Dialogue.run]
      cases partner.give s with
      | none => exact .none
      | some given => exact ih given.1 given.2
  | cut => exact .none

end Alike

/-- Sequences that have come to related results so far. -/
theorem Dialogue.rel_bind {R : α → β → Prop} {S : γ → δ → Prop} {partner : Partner σ μ ν} {s : σ}
    {d : Dialogue μ ν α} {d' : Dialogue μ ν β} {f : α → Dialogue μ ν γ} {g : β → Dialogue μ ν δ}
    (h : Option.Rel (fun r r' => R r.1 r'.1 ∧ r.2 = r'.2) (d.run partner s) (d'.run partner s))
    (hnext : ∀ a b, R a b → ∀ s,
      Option.Rel (fun r r' => S r.1 r'.1 ∧ r.2 = r'.2) ((f a).run partner s)
        ((g b).run partner s)) :
    Option.Rel (fun r r' => S r.1 r'.1 ∧ r.2 = r'.2) ((d >>= f).run partner s)
      ((d' >>= g).run partner s) := by
  rw [run_bind, run_bind]
  generalize d.run partner s = result at h ⊢
  generalize d'.run partner s = result' at h ⊢
  cases h with
  | none => exact .none
  | @some r r' hr =>
      obtain ⟨a, s₁⟩ := r
      obtain ⟨b, s₂⟩ := r'
      obtain ⟨hab, rfl⟩ := hr
      exact hnext a b hab s₁

end Library
end SqlCodeGenerator
