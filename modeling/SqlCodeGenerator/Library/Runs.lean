import Mathlib.Tactic

/-!
# Runs of a partial step function

A system whose step may have no result: an operation performed in a state either
leaves a state or leaves nothing that can be spoken about.  A run performs a list
of operations one after the other.

* `runFrom_invariant`: what one step preserves, a run preserves.
* `everyStep_invariant`: what one step of a kind preserves, a run of such steps
  preserves.
* `throughout_iff`: an invariant that a step keeps exactly when it is of a kind holds
  throughout a run exactly when all its steps are of that kind.
* `everyStep_iff`: a property of all steps of a run, as the run meets them, is
  the property at every state the run passes through.
* `runFrom_map`: what a run leaves, seen through a function of the state that every
  step commutes with.
* `runFrom_simulates`: a run that another system follows step by step.
* `collected`: what the steps of a run yield, in order.
* `withHistory`: a step beside a history that it writes and never reads.

The module names nothing of a particular program.
-/

namespace SqlCodeGenerator
namespace Library

variable {σ ω : Type} (step : σ → ω → Option σ)

/-- The state after a list of operations, if every one of them leaves a state. -/
def runFrom (s : σ) (ops : List ω) : Option σ := ops.foldlM step s

@[simp] theorem runFrom_nil (s : σ) : runFrom step s [] = some s := rfl

theorem runFrom_cons (s : σ) (op : ω) (ops : List ω) :
    runFrom step s (op :: ops) = (step s op).bind fun s' => runFrom step s' ops := rfl

theorem runFrom_append (s : σ) (ops ops' : List ω) :
    runFrom step s (ops ++ ops') =
      (runFrom step s ops).bind fun s' => runFrom step s' ops' :=
  List.foldlM_append

/-- The property `P` of every step of a run, in the state the run meets it in. -/
def EveryStep (P : σ → ω → Prop) : σ → List ω → Prop
  | _, [] => True
  | s, op :: ops => P s op ∧ ∀ s', step s op = some s' → EveryStep P s' ops

/-- Along a run of which every state is computed, a property that can be checked can
be checked of all steps. -/
instance decidableEveryStep (P : σ → ω → Prop) [∀ s op, Decidable (P s op)] :
    ∀ s ops, Decidable (EveryStep step P s ops)
  | _, [] => isTrue trivial
  | s, op :: ops =>
      match hstep : step s op with
      | none =>
          decidable_of_iff (P s op) (by simp [EveryStep, hstep])
      | some s' =>
          have := decidableEveryStep P s' ops
          decidable_of_iff (P s op ∧ EveryStep step P s' ops) (by simp [EveryStep, hstep])

variable {step}

/-- Inversion of a run that begins with an operation. -/
theorem runFrom_cons_eq_some_iff {s s' : σ} {op : ω} {ops : List ω} :
    runFrom step s (op :: ops) = some s' ↔
      ∃ middle, step s op = some middle ∧ runFrom step middle ops = some s' := by
  rw [runFrom_cons, Option.bind_eq_some_iff]

/-- What every step preserves, a run preserves. -/
theorem runFrom_invariant {inv : σ → Prop}
    (hstep : ∀ s op s', inv s → step s op = some s' → inv s')
    {s s' : σ} {ops : List ω} (hs : inv s) (hrun : runFrom step s ops = some s') : inv s' := by
  induction ops generalizing s with
  | nil =>
      obtain rfl := Option.some.inj hrun
      exact hs
  | cons op ops ih =>
      obtain ⟨middle, hfirst, hrest⟩ := runFrom_cons_eq_some_iff.mp hrun
      exact ih (hstep s op middle hs hfirst) hrest

/-- What every step with the property `P` preserves, a run of such steps preserves. -/
theorem everyStep_invariant {P : σ → ω → Prop} {inv : σ → Prop}
    (hstep : ∀ s op s', inv s → P s op → step s op = some s' → inv s')
    {s s' : σ} {ops : List ω} (hs : inv s) (hevery : EveryStep step P s ops)
    (hrun : runFrom step s ops = some s') : inv s' := by
  induction ops generalizing s with
  | nil =>
      obtain rfl := Option.some.inj hrun
      exact hs
  | cons op ops ih =>
      obtain ⟨middle, hfirst, hrest⟩ := runFrom_cons_eq_some_iff.mp hrun
      exact ih (hstep s op middle hs hevery.1 hfirst) (hevery.2 middle hfirst) hrest

/-- A run seen through a function of the state that every step commutes with. -/
theorem runFrom_map {τ : Type} {step' : τ → ω → Option τ} {view : σ → τ} {inv : σ → Prop}
    (hinv : ∀ s op s', inv s → step s op = some s' → inv s')
    (hview : ∀ s op, inv s → (step s op).map view = step' (view s) op)
    {s : σ} (hs : inv s) (ops : List ω) :
    (runFrom step s ops).map view = runFrom step' (view s) ops := by
  induction ops generalizing s with
  | nil => rfl
  | cons op ops ih =>
      rw [runFrom_cons, runFrom_cons, ← hview s op hs, Option.map_bind, Option.bind_map]
      cases hstep : step s op with
      | none => rfl
      | some s' => exact ih (hinv s op s' hs hstep)

/-- A run that another system follows: it answers a step `op` of the kind `P` by the
steps `moves op`, and `R` holds again. -/
theorem runFrom_simulates {τ υ : Type} {step' : τ → υ → Option τ} {moves : ω → List υ}
    {P : ω → Prop} {R : σ → τ → Prop}
    (hstep : ∀ s t op s', P op → R s t → step s op = some s' →
      ∃ t', runFrom step' t (moves op) = some t' ∧ R s' t')
    {s s' : σ} {t : τ} {ops : List ω} (hR : R s t) (hP : ∀ op ∈ ops, P op)
    (hrun : runFrom step s ops = some s') :
    ∃ t', runFrom step' t (ops.flatMap moves) = some t' ∧ R s' t' := by
  induction ops generalizing s t with
  | nil =>
      obtain rfl := Option.some.inj hrun
      exact ⟨t, rfl, hR⟩
  | cons op ops ih =>
      obtain ⟨middle, hfirst, hrest⟩ := runFrom_cons_eq_some_iff.mp hrun
      obtain ⟨t', hmoves, hR'⟩ := hstep s t op middle (hP op List.mem_cons_self) hR hfirst
      obtain ⟨t'', hafter, hR''⟩ := ih hR' (fun op' h => hP op' (List.mem_cons_of_mem op h)) hrest
      refine ⟨t'', ?_, hR''⟩
      rw [List.flatMap_cons, runFrom_append, hmoves, Option.bind_some, hafter]

/-- A property of every step, said of the states that a run passes through. -/
theorem everyStep_iff {P : σ → ω → Prop} {s : σ} {ops : List ω} :
    EveryStep step P s ops ↔
      ∀ done op rest s', ops = done ++ op :: rest → runFrom step s done = some s' → P s' op := by
  induction ops generalizing s with
  | nil => simp [EveryStep]
  | cons first ops ih =>
      constructor
      · rintro ⟨hfirst, hrest⟩ done op rest s' hops hrun
        cases done with
        | nil =>
            obtain ⟨rfl, rfl⟩ := List.cons.inj hops
            obtain rfl := Option.some.inj hrun
            exact hfirst
        | cons d done =>
            obtain ⟨rfl, hops'⟩ := List.cons.inj hops
            obtain ⟨middle, hmiddle, hrun'⟩ := runFrom_cons_eq_some_iff.mp hrun
            exact ih.mp (hrest middle hmiddle) done op rest s' hops' hrun'
      · intro h
        refine ⟨h [] first ops s rfl rfl, fun middle hmiddle => ih.mpr ?_⟩
        intro done op rest s' hops hrun
        exact h (first :: done) op rest s' (by rw [hops, List.cons_append])
          (runFrom_cons_eq_some_iff.mpr ⟨middle, hmiddle, hrun⟩)

/-- Two properties that agree in every state agree along every run. -/
theorem everyStep_congr {P Q : σ → ω → Prop} (h : ∀ s op, P s op ↔ Q s op) {s : σ}
    {ops : List ω} : EveryStep step P s ops ↔ EveryStep step Q s ops := by
  simp only [everyStep_iff, h]

/-- Two properties that agree where an invariant holds, which the steps with the one of
them keep, agree along every run. -/
theorem everyStep_congr_of_invariant {P Q : σ → ω → Prop} {inv : σ → Prop}
    (h : ∀ s op, inv s → (P s op ↔ Q s op))
    (hstep : ∀ s op s', inv s → Q s op → step s op = some s' → inv s')
    {s : σ} {ops : List ω} (hs : inv s) : EveryStep step P s ops ↔ EveryStep step Q s ops := by
  induction ops generalizing s with
  | nil => exact Iff.rfl
  | cons op ops ih =>
      unfold EveryStep
      rw [h s op hs]
      exact and_congr_right fun hop => forall_congr' fun s' => imp_congr_right fun hs' =>
        ih (hstep s op s' hs hop hs')

/-- What the steps of a run yield, in order: a step `op` in a state `s` yields
`f s op`, if it leaves a state. -/
def collected {β : Type} (step : σ → ω → Option σ) (f : σ → ω → List β) : σ → List ω → List β
  | _, [] => []
  | s, op :: ops =>
      match step s op with
      | none => []
      | some s' => f s op ++ collected step f s' ops

/-- Steps that yield the numbers of a counter yield consecutive numbers. -/
theorem collected_eq_range' {f : σ → ω → List Nat} {counter : σ → Nat} {inv : σ → Prop}
    (hinv : ∀ s op s', inv s → step s op = some s' → inv s')
    (hstep : ∀ s op s', inv s → step s op = some s' →
      f s op = [] ∧ counter s' = counter s ∨ f s op = [counter s] ∧ counter s' = counter s + 1)
    {s : σ} (hs : inv s) (ops : List ω) :
    ∃ k, collected step f s ops = List.range' (counter s) k := by
  induction ops generalizing s with
  | nil => exact ⟨0, rfl⟩
  | cons op ops ih =>
      unfold collected
      split
      · exact ⟨0, rfl⟩
      · next s' hs' =>
          obtain ⟨k, hk⟩ := ih (hinv s op s' hs hs')
          rw [hk]
          rcases hstep s op s' hs hs' with ⟨hnone, hsame⟩ | ⟨hone, hnext⟩
          · exact ⟨k, by rw [hnone, hsame, List.nil_append]⟩
          · refine ⟨k + 1, ?_⟩
            rw [hone, hnext, List.range'_succ, List.singleton_append]

/-- A step beside a history: what has happened so far, as far as `record` says it. -/
def withHistory {η : Type} (step : σ → ω → Option σ) (record : σ → ω → η → η) (t : σ × η) (op : ω) :
    Option (σ × η) :=
  (step t.1 op).map fun s' => (s', record t.1 op t.2)

/-- `P` holds in every state that a run passes through. -/
def Throughout (step : σ → ω → Option σ) (P : σ → Prop) (s : σ) (ops : List ω) : Prop :=
  ∀ done rest s', ops = done ++ rest → runFrom step s done = some s' → P s'

theorem throughout_cons_iff {P : σ → Prop} {s : σ} {op : ω} {ops : List ω} :
    Throughout step P s (op :: ops) ↔
      P s ∧ ∀ s', step s op = some s' → Throughout step P s' ops := by
  constructor
  · intro h
    refine ⟨h [] (op :: ops) s rfl rfl, fun middle hmiddle done rest s' hops hrun => ?_⟩
    exact h (op :: done) rest s' (by rw [hops, List.cons_append])
      (runFrom_cons_eq_some_iff.mpr ⟨middle, hmiddle, hrun⟩)
  · rintro ⟨hs, hrest⟩ done rest s' hops hrun
    cases done with
    | nil =>
        obtain rfl := Option.some.inj hrun
        exact hs
    | cons d done =>
        obtain ⟨rfl, hops'⟩ := List.cons.inj hops
        obtain ⟨middle, hmiddle, hrun'⟩ := runFrom_cons_eq_some_iff.mp hrun
        exact hrest middle hmiddle done rest s' hops' hrun'

/-- What steps with the property `Q` preserve holds throughout a run of such steps. -/
theorem throughout_of_everyStep {Q : σ → ω → Prop} {inv : σ → Prop}
    (hstep : ∀ s op s', inv s → Q s op → step s op = some s' → inv s')
    {s : σ} {ops : List ω} (hs : inv s) (hevery : EveryStep step Q s ops) :
    Throughout step inv s ops := by
  induction ops generalizing s with
  | nil =>
      intro done rest s' hops hrun
      obtain ⟨rfl, -⟩ := List.append_eq_nil_iff.mp hops.symm
      obtain rfl := Option.some.inj hrun
      exact hs
  | cons op ops ih =>
      refine throughout_cons_iff.mpr ⟨hs, fun middle hmiddle => ?_⟩
      exact ih (hstep s op middle hs hevery.1 hmiddle) (hevery.2 middle hmiddle)

/-- An invariant that a step keeps exactly when it has the property `Q` holds
throughout a run that comes to its end exactly when all steps have it; `aux` is what
every step keeps. -/
theorem throughout_iff {Q : σ → ω → Prop} {aux inv : σ → Prop}
    (haux : ∀ s op s', aux s → step s op = some s' → aux s')
    (hstep : ∀ s op s', aux s → inv s → step s op = some s' → (inv s' ↔ Q s op))
    {s s' : σ} {ops : List ω} (hs : aux s) (hinv : inv s) (hrun : runFrom step s ops = some s') :
    Throughout step inv s ops ↔ EveryStep step Q s ops := by
  induction ops generalizing s with
  | nil =>
      refine iff_of_true (fun done rest s' hops hdone => ?_) trivial
      obtain ⟨rfl, -⟩ := List.append_eq_nil_iff.mp hops.symm
      obtain rfl := Option.some.inj hdone
      exact hinv
  | cons op ops ih =>
      obtain ⟨middle, hmiddle, hrest⟩ := runFrom_cons_eq_some_iff.mp hrun
      have hkept := hstep s op middle hs hinv hmiddle
      rw [throughout_cons_iff, EveryStep]
      constructor
      · rintro ⟨-, hafter⟩
        have hmid : inv middle := hafter middle hmiddle [] ops middle rfl rfl
        refine ⟨hkept.mp hmid, fun s'' hs'' => ?_⟩
        obtain rfl := Option.some.inj (hmiddle.symm.trans hs'')
        exact (ih (haux s op _ hs hmiddle) hmid hrest).mp (hafter _ hmiddle)
      · rintro ⟨hQ, hafter⟩
        refine ⟨hinv, fun s'' hs'' => ?_⟩
        obtain rfl := Option.some.inj (hmiddle.symm.trans hs'')
        exact (ih (haux s op _ hs hmiddle) (hkept.mpr hQ) hrest).mpr (hafter _ hmiddle)

/-- The same for any run: a step that leaves no state need not have the property. -/
theorem throughout_iff_everyStep {Q : σ → ω → Prop} {aux inv : σ → Prop}
    (haux : ∀ s op s', aux s → step s op = some s' → aux s')
    (hstep : ∀ s op s', aux s → inv s → step s op = some s' → (inv s' ↔ Q s op))
    {s : σ} {ops : List ω} (hs : aux s) (hinv : inv s) :
    Throughout step inv s ops ↔ EveryStep step (fun s op => (step s op).isSome → Q s op) s ops := by
  induction ops generalizing s with
  | nil =>
      refine iff_of_true (fun done rest s' hops hdone => ?_) trivial
      obtain ⟨rfl, -⟩ := List.append_eq_nil_iff.mp hops.symm
      obtain rfl := Option.some.inj hdone
      exact hinv
  | cons op ops ih =>
      rw [throughout_cons_iff, EveryStep]
      constructor
      · rintro ⟨-, hafter⟩
        have hkept : ∀ middle, step s op = some middle → inv middle := fun middle hmiddle =>
          hafter middle hmiddle [] ops middle rfl rfl
        refine ⟨fun hsome => ?_, fun middle hmiddle => ?_⟩
        · obtain ⟨middle, hmiddle⟩ := Option.isSome_iff_exists.mp hsome
          exact (hstep s op middle hs hinv hmiddle).mp (hkept middle hmiddle)
        · exact (ih (haux s op middle hs hmiddle) (hkept middle hmiddle)).mp (hafter middle hmiddle)
      · rintro ⟨hQ, hafter⟩
        refine ⟨hinv, fun middle hmiddle => ?_⟩
        have hkept := (hstep s op middle hs hinv hmiddle).mpr (hQ (hmiddle ▸ rfl))
        exact (ih (haux s op middle hs hmiddle) hkept).mpr (hafter middle hmiddle)

end Library
end SqlCodeGenerator
