import SqlCodeGenerator.Library.Outcome

/-!
# Runs with checked accesses and counted rounds

A piece of C code with its array accesses and its loops: an access outside an array
ends the run and names the array, and a loop gets a number of rounds and ends the run
when it needs more.  A run that is `done` or `failed` has therefore made every access
inside its array and left every loop.

* `CheckedRun.loop`: a loop by its body, which says after every round whether to go on;
* `loop_bind_eq`: a loop that comes closer to its end in every round computes what its
  rounds compute, if it gets as many rounds as it is far from the end;
* `loop_returns`: such a loop returns, and so does what each round says of the result;
* `CheckedRun.ofOutcome`: the run of code that is known by its outcome.

The module names nothing of a particular program.
-/

namespace SqlCodeGenerator
namespace Library

/-- What a run comes to: a value, a failure with a message, an access outside an array, or
a loop that needs more rounds than it got. -/
inductive CheckedRun (φ ε α : Type) where
  | done (value : α)
  | failed (message : ε)
  | outside (array : φ)
  | spent
  deriving DecidableEq

/-- How a round of a loop ends: with another round, or with the result of the loop. -/
inductive Round (σ ρ : Type) where
  | next (s : σ)
  | stop (result : ρ)

namespace CheckedRun

variable {φ ε α β σ ρ : Type}

/-- Sequencing: what follows runs on a value only. -/
def bind : CheckedRun φ ε α → (α → CheckedRun φ ε β) → CheckedRun φ ε β
  | done value, next => next value
  | failed message, _ => failed message
  | outside array, _ => outside array
  | spent, _ => spent

instance : Monad (CheckedRun φ ε) where
  pure := done
  bind := bind

@[simp] theorem done_bind (value : α) (next : α → CheckedRun φ ε β) :
    (done value >>= next) = next value := rfl

@[simp] theorem failed_bind (message : ε) (next : α → CheckedRun φ ε β) :
    ((failed message : CheckedRun φ ε α) >>= next) = failed message := rfl

@[simp] theorem outside_bind (array : φ) (next : α → CheckedRun φ ε β) :
    ((outside array : CheckedRun φ ε α) >>= next) = outside array := rfl

@[simp] theorem spent_bind (next : α → CheckedRun φ ε β) :
    ((spent : CheckedRun φ ε α) >>= next) = spent := rfl

@[simp] theorem pure_eq_done (value : α) : (pure value : CheckedRun φ ε α) = done value := rfl

instance : LawfulMonad (CheckedRun φ ε) :=
  LawfulMonad.mk' _
    (by intro α run; cases run <;> rfl)
    (by intros; rfl)
    (by intro α β γ run f g; cases run <;> rfl)

/-- An access to a place of an array. -/
def inside (array : φ) (index size : Nat) : CheckedRun φ ε Unit :=
  if index < size then done () else outside array

theorem inside_of_lt {array : φ} {index size : Nat} (h : index < size) :
    (inside array index size : CheckedRun φ ε Unit) = done () := if_pos h

/-! ## Loops -/

/-- A loop that gets a number of rounds. -/
def loop (body : σ → CheckedRun φ ε (Round σ ρ)) : Nat → σ → CheckedRun φ ε ρ
  | 0, _ => spent
  | fuel + 1, s => body s >>= fun
      | .next s' => loop body fuel s'
      | .stop result => done result

/-- What one round of a loop does when the loop and what follows it compute `f`: it comes
closer to the end and leaves the same to compute, or it ends the loop or the run. -/
inductive Leads (body : σ → CheckedRun φ ε (Round σ ρ)) (f : σ → CheckedRun φ ε β)
    (k : ρ → CheckedRun φ ε β) (invariant : σ → Prop) (measure : σ → Nat) (s : σ) : Prop
  | next (s' : σ) (hbody : body s = done (.next s')) (hs' : invariant s')
      (hlt : measure s' < measure s) (hf : f s = f s') : Leads body f k invariant measure s
  | stop (result : ρ) (hbody : body s = done (.stop result)) (hf : f s = k result) :
      Leads body f k invariant measure s
  | failed (message : ε) (hbody : body s = failed message) (hf : f s = failed message) :
      Leads body f k invariant measure s
  | outside (array : φ) (hbody : body s = outside array) (hf : f s = outside array) :
      Leads body f k invariant measure s

section Loops

variable {body : σ → CheckedRun φ ε (Round σ ρ)} {s : σ} {fuel : Nat}

/-- A loop and what follows it compute what every round leads to, if the loop gets more
rounds than it is far from its end. -/
theorem loop_bind_eq {f : σ → CheckedRun φ ε β} {k : ρ → CheckedRun φ ε β}
    (invariant : σ → Prop) (measure : σ → Nat) {bound : Nat}
    (hround : ∀ s, invariant s → measure s < bound → Leads body f k invariant measure s)
    (hfuel : bound ≤ fuel) (hs : invariant s) (hbound : measure s < bound) :
    (loop body fuel s >>= k) = f s := by
  have hrounds : measure s < fuel := Nat.lt_of_lt_of_le hbound hfuel
  clear hfuel
  induction fuel generalizing s with
  | zero => exact absurd hrounds (Nat.not_lt_zero _)
  | succ fuel ih =>
      rw [loop]
      cases hround s hs hbound with
      | next _ hbody hs' hlt hf =>
          rw [hbody, hf]
          exact ih hs' (hlt.trans hbound) (Nat.lt_of_lt_of_le hlt (Nat.le_of_lt_succ hrounds))
      | stop _ hbody hf =>
          rw [hbody, hf]
          rfl
      | failed _ hbody hf =>
          rw [hbody, hf]
          rfl
      | outside _ hbody hf =>
          rw [hbody, hf]
          rfl

/-- The same for a loop that nothing follows. -/
theorem loop_eq_of_invariant {f : σ → CheckedRun φ ε ρ} (invariant : σ → Prop)
    (measure : σ → Nat)
    (hround : ∀ s, invariant s → measure s < fuel → Leads body f done invariant measure s)
    (hs : invariant s) (hbound : measure s < fuel) : loop body fuel s = f s := by
  have hloop := loop_bind_eq (k := done) invariant measure hround (Nat.le_refl fuel) hs hbound
  exact (bind_pure (loop body fuel s)).symm.trans hloop

/-- The same for a loop without an invariant. -/
theorem loop_eq {f : σ → CheckedRun φ ε ρ} (measure : σ → Nat)
    (hround : ∀ s, measure s < fuel → Leads body f done (fun _ => True) measure s)
    (hs : measure s < fuel) : loop body fuel s = f s :=
  loop_eq_of_invariant (fun _ => True) measure (fun s _ hlt => hround s hlt) trivial hs

end Loops

/-- What one round of a loop does when the loop returns something that is in relation to its
start: it comes closer to the end, and what is in relation to the next start is in relation
to this one, or it ends the loop. -/
inductive Reaches (body : σ → CheckedRun φ ε (Round σ ρ)) (relation : σ → ρ → Prop)
    (measure : σ → Nat) (s : σ) : Prop
  | next (s' : σ) (hbody : body s = done (.next s')) (hlt : measure s' < measure s)
      (hrelation : ∀ result, relation s' result → relation s result) :
      Reaches body relation measure s
  | stop (result : ρ) (hbody : body s = done (.stop result)) (hrelation : relation s result) :
      Reaches body relation measure s

/-- A loop all of whose rounds do so returns, if it gets more rounds than it is far from
its end. -/
theorem loop_returns {body : σ → CheckedRun φ ε (Round σ ρ)} {relation : σ → ρ → Prop}
    {measure : σ → Nat} (hround : ∀ s, Reaches body relation measure s) {fuel : Nat} {s : σ}
    (hfuel : measure s < fuel) :
    ∃ result, loop body fuel s = done result ∧ relation s result := by
  induction fuel generalizing s with
  | zero => exact absurd hfuel (Nat.not_lt_zero _)
  | succ fuel ih =>
      rw [loop]
      cases hround s with
      | next s' hbody hlt hrelation =>
          rw [hbody]
          obtain ⟨result, hloop, hresult⟩ := ih (Nat.lt_of_lt_of_le hlt (Nat.le_of_lt_succ hfuel))
          exact ⟨result, hloop, hrelation result hresult⟩
      | stop result hbody hrelation =>
          rw [hbody]
          exact ⟨result, rfl, hrelation⟩

/-! ## Code that is known by its outcome -/

/-- The run of code whose outcome is known; an undefined access is one to the array. -/
def ofOutcome (array : φ) : Outcome ε α → CheckedRun φ ε α
  | .ok value => done value
  | .error message => failed message
  | .fault => outside array

@[simp] theorem ofOutcome_ok (array : φ) (value : α) :
    (ofOutcome array (.ok value) : CheckedRun φ ε α) = done value := rfl

@[simp] theorem ofOutcome_error (array : φ) (message : ε) :
    (ofOutcome array (.error message) : CheckedRun φ ε α) = failed message := rfl

@[simp] theorem ofOutcome_fault (array : φ) :
    (ofOutcome array .fault : CheckedRun φ ε α) = outside array := rfl

theorem ofOutcome_bind (array : φ) (outcome : Outcome ε α) (next : α → Outcome ε β) :
    ofOutcome array (outcome >>= next) =
      ofOutcome array outcome >>= fun value => ofOutcome array (next value) := by
  cases outcome <;> rfl

/-- Code that is known by its outcome leaves an array exactly where the outcome is a
fault, and then it is that array. -/
theorem ofOutcome_eq_outside_iff {array array' : φ} {outcome : Outcome ε α} :
    ofOutcome array outcome = outside array' ↔ outcome = .fault ∧ array = array' := by
  cases outcome <;> simp [ofOutcome]

theorem ofOutcome_ne_spent (array : φ) (outcome : Outcome ε α) :
    ofOutcome array outcome ≠ spent := by
  cases outcome <;> simp [ofOutcome]

end CheckedRun

end Library
end SqlCodeGenerator
