import SqlCodeGenerator.Library.Runs

/-!
# Accounts of a run

What the steps of a run put in, take out and count, against what the state holds before
and after.

* `collected_invariant`: what holds of a state and of all that has been yielded.
* `collected_balance`: what a state holds and what is put in is what is taken out and what
  is left, in order.
* `length_collected_le`: a budget that every step pays what it yields from.
* `run_of_measure`: where every step lowers a measure and some step is possible until an
  end, no run is longer than the measure, and every run comes to the end.

The module names nothing of a particular program.
-/

namespace SqlCodeGenerator
namespace Library

variable {σ ω β : Type} {step : σ → ω → Option σ}

theorem collected_cons {f : σ → ω → List β} {s s' : σ} {op : ω} (h : step s op = some s')
    (ops : List ω) :
    collected step f s (op :: ops) = f s op ++ collected step f s' ops := by
  rw [collected, h]

/-- What holds of a state and of all that has been yielded before, if every step keeps it,
holds at the end of a run. -/
theorem collected_invariant {f : σ → ω → List β} {inv : σ → List β → Prop}
    (hstep : ∀ s done op s', inv s done → step s op = some s' → inv s' (done ++ f s op))
    {s s' : σ} {done : List β} {ops : List ω} (hs : inv s done)
    (hrun : runFrom step s ops = some s') : inv s' (done ++ collected step f s ops) := by
  induction ops generalizing s done with
  | nil =>
      obtain rfl := Option.some.inj hrun
      rw [collected, List.append_nil]
      exact hs
  | cons op ops ih =>
      obtain ⟨middle, hfirst, hrest⟩ := runFrom_cons_eq_some_iff.mp hrun
      rw [collected_cons hfirst, ← List.append_assoc]
      exact ih (hstep s done op middle hs hfirst) hrest

/-- What is held and what is put in, a run takes out or still holds, in order. -/
theorem collected_balance {inv : σ → Prop} {held : σ → List β} {put taken : σ → ω → List β}
    (hinv : ∀ s op s', inv s → step s op = some s' → inv s')
    (hstep : ∀ s op s', inv s → step s op = some s' →
      held s ++ put s op = taken s op ++ held s')
    {s s' : σ} {ops : List ω} (hs : inv s) (hrun : runFrom step s ops = some s') :
    held s ++ collected step put s ops = collected step taken s ops ++ held s' := by
  induction ops generalizing s with
  | nil =>
      obtain rfl := Option.some.inj hrun
      exact List.append_nil _
  | cons op ops ih =>
      obtain ⟨middle, hfirst, hrest⟩ := runFrom_cons_eq_some_iff.mp hrun
      rw [collected_cons hfirst, collected_cons hfirst, ← List.append_assoc,
        hstep s op middle hs hfirst, List.append_assoc,
        ih (hinv s op middle hs hfirst) hrest, List.append_assoc]

/-- Steps that pay for what they yield yield no more than there is to pay from. -/
theorem length_collected_le {inv : σ → Prop} {budget : σ → Nat} {f : σ → ω → List β}
    (hinv : ∀ s op s', inv s → step s op = some s' → inv s')
    (hstep : ∀ s op s', inv s → step s op = some s' →
      (f s op).length + budget s' ≤ budget s)
    {s : σ} (hs : inv s) (ops : List ω) : (collected step f s ops).length ≤ budget s := by
  induction ops generalizing s with
  | nil => exact Nat.zero_le _
  | cons op ops ih =>
      unfold collected
      split
      · exact Nat.zero_le _
      · next s' hs' =>
          have hpaid := hstep s op s' hs hs'
          have hrest := ih (hinv s op s' hs hs')
          rw [List.length_append]
          omega

section Measures

variable {measure : σ → Nat} {idle : ω → Bool} {inv : σ → Prop}

/-- A run of which every step lowers a measure, but for steps that change nothing, is no
longer than the measure. -/
theorem length_le_measure (hinv : ∀ s op s', inv s → step s op = some s' → inv s')
    (hidle : ∀ s op s', inv s → idle op = true → step s op = some s' → s' = s)
    (hlower : ∀ s op s', inv s → idle op = false → step s op = some s' → measure s' < measure s)
    {s s' : σ} {ops : List ω} (hs : inv s) (hrun : runFrom step s ops = some s') :
    (ops.filter fun op => !idle op).length + measure s' ≤ measure s := by
  induction ops generalizing s with
  | nil =>
      obtain rfl := Option.some.inj hrun
      exact Nat.le_of_eq (Nat.zero_add _)
  | cons op ops ih =>
      obtain ⟨middle, hfirst, hrest⟩ := runFrom_cons_eq_some_iff.mp hrun
      have htail := ih (hinv s op middle hs hfirst) hrest
      cases hop : idle op with
      | true =>
          obtain rfl := hidle s op middle hs hop hfirst
          rw [List.filter_cons_of_neg (by simp [hop])]
          exact htail
      | false =>
          have hless := hlower s op middle hs hop hfirst
          rw [List.filter_cons_of_pos (by simp [hop]), List.length_cons]
          omega

/-- Where some step is possible until an end, every state can be taken to the end. -/
theorem run_of_measure (hinv : ∀ s op s', inv s → step s op = some s' → inv s')
    (hlower : ∀ s op s', inv s → idle op = false → step s op = some s' → measure s' < measure s)
    {final : σ → Prop}
    (hprogress : ∀ s, inv s → ¬ final s → ∃ op s', idle op = false ∧ step s op = some s')
    {s : σ} (hs : inv s) : ∃ ops s', runFrom step s ops = some s' ∧ final s' := by
  induction hn : measure s using Nat.strong_induction_on generalizing s with
  | _ n ih =>
      subst hn
      by_cases hfinal : final s
      · exact ⟨[], s, rfl, hfinal⟩
      · obtain ⟨op, middle, hop, hfirst⟩ := hprogress s hs hfinal
        obtain ⟨ops, s', hrun, hend⟩ :=
          ih (measure middle) (hlower s op middle hs hop hfirst) (hinv s op middle hs hfirst) rfl
        exact ⟨op :: ops, s', runFrom_cons_eq_some_iff.mpr ⟨middle, hfirst, hrun⟩, hend⟩

end Measures

end Library
end SqlCodeGenerator
