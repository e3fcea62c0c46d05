import SqlCodeGenerator.Library.Runs

/-!
# Work that is put off

Tasks are accepted as they arrive and performed later, the oldest first.  What is
accepted is put down in the state at once; what a task does to the state, it does
when it is performed.

* `Deferral.Settled`: accepting an arrival commutes with performing a task that was
  accepted before it.
* `Deferral.run_eq_oneByOne`: then a run that has performed everything it accepted
  leaves the state that performing each task at its arrival leaves, whatever the
  arrivals between acceptance and performance.

The module names nothing of a particular program.
-/

namespace SqlCodeGenerator
namespace Library

variable {σ ρ α : Type}

/-- What an arrival puts down, with the task it becomes, and what a task does. -/
structure Deferral (σ ρ α : Type) where
  accept : σ → α → ρ × σ
  perform : σ → ρ → Option σ

/-- The state, and the tasks accepted and not performed, the oldest first. -/
structure Backlog (σ ρ : Type) where
  state : σ
  waiting : List ρ

namespace Deferral

/-- One step of a system that puts its tasks off. -/
inductive Step (α : Type) where
  | arrive (a : α)
  | perform

/-- The arrival of a step. -/
def Step.arrival : Step α → Option α
  | arrive a => some a
  | perform => none

variable (m : Deferral σ ρ α)

/-- An arrival goes to the end of the backlog; the task at its head is performed. -/
def step (b : Backlog σ ρ) : Step α → Option (Backlog σ ρ)
  | .arrive a => some ⟨(m.accept b.state a).2, b.waiting ++ [(m.accept b.state a).1]⟩
  | .perform =>
      match b.waiting with
      | [] => none
      | r :: rest => (m.perform b.state r).map fun s => ⟨s, rest⟩

/-- An arrival whose task is performed at once. -/
def atOnce (s : σ) (a : α) : Option σ := m.perform (m.accept s a).2 (m.accept s a).1

/-- The backlog is performed, and then every arrival at once. -/
def oneByOne (b : Backlog σ ρ) (arrivals : List α) : Option σ :=
  (runFrom m.perform b.state b.waiting).bind fun s => runFrom m.atOnce s arrivals

/-- Accepting an arrival commutes with performing a task accepted before it.
`Accepted` is what holds of such a task. -/
structure Settled (Accepted : σ → ρ → Prop) : Prop where
  accepted : ∀ s a, Accepted (m.accept s a).2 (m.accept s a).1
  accept : ∀ s a r, Accepted s r → Accepted (m.accept s a).2 r
  perform : ∀ s r r' s', m.perform s r = some s' → Accepted s r' → Accepted s' r'
  task : ∀ s a r s', m.perform s r = some s' → (m.accept s' a).1 = (m.accept s a).1
  comm : ∀ s a r, Accepted s r →
    m.perform (m.accept s a).2 r = (m.perform s r).map fun s' => (m.accept s' a).2

variable {m} {Accepted : σ → ρ → Prop}

/-- A whole backlog becomes the same task of an arrival. -/
theorem Settled.task_runFrom (h : m.Settled Accepted) {s s' : σ} {tasks : List ρ}
    (hrun : runFrom m.perform s tasks = some s') (a : α) :
    (m.accept s' a).1 = (m.accept s a).1 := by
  have hinv : ∀ t r t', (m.accept t a).1 = (m.accept s a).1 → m.perform t r = some t' →
      (m.accept t' a).1 = (m.accept s a).1 := by
    intro t r t' ht hperform
    rw [h.task t a r t' hperform, ht]
  exact runFrom_invariant hinv rfl hrun

/-- An arrival may be accepted before a whole backlog is performed, or after. -/
theorem Settled.comm_runFrom (h : m.Settled Accepted) {s : σ} {tasks : List ρ}
    (haccepted : ∀ r ∈ tasks, Accepted s r) (a : α) :
    runFrom m.perform (m.accept s a).2 tasks =
      (runFrom m.perform s tasks).map fun s' => (m.accept s' a).2 := by
  induction tasks generalizing s with
  | nil => rfl
  | cons r tasks ih =>
      rw [runFrom_cons, runFrom_cons, h.comm s a r (haccepted r List.mem_cons_self),
        Option.bind_map, Option.map_bind]
      cases hperform : m.perform s r with
      | none => rfl
      | some s' =>
          refine ih fun r' hr' => ?_
          exact h.perform s r r' s' hperform (haccepted r' (List.mem_cons_of_mem r hr'))

/-- All tasks of a backlog have been accepted. -/
def Known (Accepted : σ → ρ → Prop) (b : Backlog σ ρ) : Prop :=
  ∀ r ∈ b.waiting, Accepted b.state r

theorem Settled.step_known (h : m.Settled Accepted) {b b' : Backlog σ ρ} {e : Step α}
    (hb : Known Accepted b) (hstep : m.step b e = some b') : Known Accepted b' := by
  cases e with
  | arrive a =>
      obtain rfl := Option.some.inj hstep
      intro r hr
      rcases List.mem_append.mp hr with hr | hr
      · exact h.accept _ _ _ (hb r hr)
      · obtain rfl := List.mem_singleton.mp hr
        exact h.accepted _ _
  | perform =>
      simp only [step] at hstep
      split at hstep
      · cases hstep
      · next r rest hwaiting =>
          obtain ⟨s, hperform, rfl⟩ := Option.map_eq_some_iff.mp hstep
          intro r' hr'
          refine h.perform _ _ _ _ hperform (hb r' ?_)
          rw [hwaiting]
          exact List.mem_cons_of_mem r hr'

/-- A step brings forward what performing one by one would come to. -/
theorem Settled.oneByOne_step (h : m.Settled Accepted) {b b' : Backlog σ ρ} {e : Step α}
    (hb : Known Accepted b) (hstep : m.step b e = some b') (rest : List α) :
    m.oneByOne b (e.arrival.toList ++ rest) = m.oneByOne b' rest := by
  cases e with
  | arrive a =>
      obtain rfl := Option.some.inj hstep
      show (runFrom m.perform b.state b.waiting).bind (fun s => runFrom m.atOnce s (a :: rest)) =
        (runFrom m.perform (m.accept b.state a).2 (b.waiting ++ [(m.accept b.state a).1])).bind
          fun s => runFrom m.atOnce s rest
      rw [runFrom_append, h.comm_runFrom hb a, Option.bind_map, Option.bind_assoc]
      cases hrun : runFrom m.perform b.state b.waiting with
      | none => rfl
      | some s =>
          -- the task of the arrival is the same behind the backlog
          have htask := h.task_runFrom hrun a
          simp only [Option.bind_some, Function.comp_apply, runFrom_cons, runFrom_nil, atOnce,
            htask, Option.bind_fun_some]
  | perform =>
      simp only [step] at hstep
      split at hstep
      · cases hstep
      · next r waiting hwaiting =>
          obtain ⟨s, hperform, rfl⟩ := Option.map_eq_some_iff.mp hstep
          show m.oneByOne b rest = m.oneByOne ⟨s, waiting⟩ rest
          unfold oneByOne
          rw [hwaiting, runFrom_cons, hperform, Option.bind_some]

/-- A run that has performed all it accepted leaves what performing each task at its
arrival leaves. -/
theorem Settled.run_eq_oneByOne (h : m.Settled Accepted) {b b' : Backlog σ ρ}
    {steps : List (Step α)} (hb : Known Accepted b) (hrun : runFrom m.step b steps = some b')
    (hdone : b'.waiting = []) :
    m.oneByOne b (steps.filterMap Step.arrival) = some b'.state := by
  induction steps generalizing b with
  | nil =>
      obtain rfl := Option.some.inj hrun
      unfold oneByOne
      rw [hdone]
      rfl
  | cons e steps ih =>
      obtain ⟨middle, hfirst, hrest⟩ := runFrom_cons_eq_some_iff.mp hrun
      have hsplit : (e :: steps).filterMap Step.arrival =
          e.arrival.toList ++ steps.filterMap Step.arrival := by
        cases e <;> rfl
      rw [hsplit, h.oneByOne_step hb hfirst, ih (h.step_known hb hfirst) hrest]

end Deferral

end Library
end SqlCodeGenerator
