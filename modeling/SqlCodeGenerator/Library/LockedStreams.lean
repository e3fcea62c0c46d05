import SqlCodeGenerator.Library.SharedStreams

/-!
# Writers that share a stream under a lock

Each writer has its item ready before it waits for the lock, and gives the lock back when
the item is written.

* `lockedRun_alone`: what the writers do to the stream is a run of which every write is
  alone;
* `stream_of_lock`: whenever the lock is free, the stream is items as they were to be
  written, in an order that keeps the order of each writer.

The module names nothing of a particular program.
-/

namespace SqlCodeGenerator
namespace Library

/-- The stream, and who holds the lock. -/
structure LockedStream (τ μ α : Type) where
  shared : SharedStream τ μ α
  owner : Option τ

/-- Nothing has been written, and nobody holds the lock. -/
def LockedStream.empty (τ μ α : Type) : LockedStream τ μ α := ⟨.empty τ μ α, none⟩

/-- A writer makes an item ready, takes the lock, makes one write, or gives the lock
back. -/
inductive LockedEvent (τ μ : Type) where
  | take (t : τ) (m : μ)
  | lock (t : τ)
  | write (t : τ) (count : Nat)
  | unlock (t : τ)

variable {τ μ α : Type} [DecidableEq τ] (buffers : μ → List (List α))

/-- A step of a writer on the stream. -/
def LockedStream.sharedStep (s : LockedStream τ μ α) (e : WriterEvent τ μ) :
    Option (LockedStream τ μ α) :=
  (e.step buffers s.shared).map fun shared => { s with shared := shared }

/-- A step of a writer. -/
def LockedEvent.step (s : LockedStream τ μ α) : LockedEvent τ μ → Option (LockedStream τ μ α)
  | .take t m => s.sharedStep buffers (.take t m)
  | .lock t =>
      if s.owner = none ∧ (s.shared.hands t).isSome then some { s with owner := some t } else none
  | .write t count => if s.owner = some t then s.sharedStep buffers (.write t count) else none
  | .unlock t =>
      if s.owner = some t ∧ (s.shared.hands t).isNone then some { s with owner := none } else none

/-- What a step does to the stream. -/
def LockedEvent.moves : LockedEvent τ μ → List (WriterEvent τ μ)
  | take t m => [.take t m]
  | write t count => [.write t count]
  | _ => []

variable {buffers}

/-- Who does not hold the lock has written nothing of the item in its hand. -/
def LockedStream.Guarded (buffers : μ → List (List α)) (s : LockedStream τ μ α) : Prop :=
  ∀ u, s.owner ≠ some u → Untouched buffers s.shared u

theorem untouched_take {s s' : SharedStream τ μ α} {t u : τ} {m : μ}
    (hs : Untouched buffers s u) (h : (WriterEvent.take t m).step buffers s = some s') :
    Untouched buffers s' u := by
  intro m' left hhand
  rcases WriterEvent.step_cases h with
    ⟨v, item, heq, hnone, rfl⟩ | ⟨v, count, item, b, more, heq, -⟩ |
    ⟨v, count, item, b, more, heq, -⟩
  · by_cases hu : u = v
    · subst hu
      simp only [Function.update_self, Option.some.injEq, Prod.mk.injEq] at hhand
      obtain ⟨rfl, rfl⟩ := hhand
      rfl
    · simp only [Function.update_of_ne hu] at hhand
      exact hs m' left hhand
  · cases heq
  · cases heq

theorem untouched_write {s s' : SharedStream τ μ α} {t u : τ} {count : Nat} (hu : u ≠ t)
    (hs : Untouched buffers s u) (h : (WriterEvent.write t count).step buffers s = some s') :
    Untouched buffers s' u := by
  intro m' left hhand
  rcases WriterEvent.step_cases h with ⟨v, item, heq, -⟩ | ⟨v, n, item, b, more, heq, -, -, rfl⟩ |
    ⟨v, n, item, b, more, heq, -, -, rfl⟩
  · cases heq
  · obtain ⟨rfl, rfl⟩ := WriterEvent.write.inj heq
    simp only [Function.update_of_ne hu] at hhand
    exact hs m' left hhand
  · obtain ⟨rfl, rfl⟩ := WriterEvent.write.inj heq
    simp only [Function.update_of_ne hu] at hhand
    exact hs m' left hhand

/-- A step is the moves on the stream, all of them alone, and the stream stays guarded. -/
theorem LockedEvent.step_alone {s s' : LockedStream τ μ α} {e : LockedEvent τ μ}
    (hs : s.Guarded buffers) (h : e.step buffers s = some s') :
    s'.Guarded buffers ∧ runFrom (WriterEvent.step buffers) s.shared e.moves = some s'.shared ∧
      EveryStep (WriterEvent.step buffers) (Alone buffers) s.shared e.moves := by
  cases e with
  | take t m =>
      obtain ⟨shared, hshared, rfl⟩ := Option.map_eq_some_iff.mp h
      exact ⟨fun u hu => untouched_take (hs u hu) hshared,
        runFrom_cons_eq_some_iff.mpr ⟨shared, hshared, rfl⟩, trivial, fun _ _ => trivial⟩
  | lock t =>
      simp only [step] at h
      split at h
      · next hfree =>
          obtain rfl := Option.some.inj h
          exact ⟨fun u _ => hs u (by rw [hfree.1]; exact nofun), rfl, trivial⟩
      · cases h
  | write t count =>
      simp only [step] at h
      split at h
      · next howner =>
          obtain ⟨shared, hshared, rfl⟩ := Option.map_eq_some_iff.mp h
          have hothers : ∀ u, u ≠ t → Untouched buffers s.shared u := fun u hu =>
            hs u (by rw [howner]; exact fun heq => hu (Option.some.inj heq).symm)
          refine ⟨fun u hu => ?_, runFrom_cons_eq_some_iff.mpr ⟨shared, hshared, rfl⟩,
            hothers, fun _ _ => trivial⟩
          have hne : u ≠ t := by
            rintro rfl
            exact hu howner
          exact untouched_write hne (hothers u hne) hshared
      · cases h
  | unlock t =>
      simp only [step] at h
      split at h
      · next hdone =>
          obtain rfl := Option.some.inj h
          refine ⟨fun u _ => ?_, rfl, trivial⟩
          by_cases hu : u = t
          · subst hu
            intro m left hhand
            rw [hhand] at hdone
            simp at hdone
          · exact hs u (by rw [hdone.1]; exact fun heq => hu (Option.some.inj heq).symm)
      · cases h

theorem everyStep_append {σ ω : Type} {step : σ → ω → Option σ} {P : σ → ω → Prop} {s middle : σ}
    {ops ops' : List ω} (h : EveryStep step P s ops) (hrun : runFrom step s ops = some middle)
    (h' : EveryStep step P middle ops') : EveryStep step P s (ops ++ ops') := by
  induction ops generalizing s with
  | nil =>
      obtain rfl := Option.some.inj hrun
      exact h'
  | cons op ops ih =>
      obtain ⟨next, hfirst, hrest⟩ := runFrom_cons_eq_some_iff.mp hrun
      refine ⟨h.1, fun s' hs' => ?_⟩
      obtain rfl := Option.some.inj (hfirst.symm.trans hs')
      exact ih (h.2 next hfirst) hrest

/-- A run under the lock is a run on the stream of which every write is alone. -/
theorem lockedRun_alone {s s' : LockedStream τ μ α} {events : List (LockedEvent τ μ)}
    (hs : s.Guarded buffers) (hrun : runFrom (LockedEvent.step buffers) s events = some s') :
    s'.Guarded buffers ∧
      runFrom (WriterEvent.step buffers) s.shared (events.flatMap LockedEvent.moves) =
        some s'.shared ∧
      EveryStep (WriterEvent.step buffers) (Alone buffers) s.shared
        (events.flatMap LockedEvent.moves) := by
  induction events generalizing s with
  | nil =>
      obtain rfl := Option.some.inj hrun
      exact ⟨hs, rfl, trivial⟩
  | cons e events ih =>
      obtain ⟨middle, hfirst, hrest⟩ := runFrom_cons_eq_some_iff.mp hrun
      obtain ⟨hmiddle, hmoves, halone⟩ := LockedEvent.step_alone hs hfirst
      obtain ⟨hs', hrun', halone'⟩ := ih hmiddle hrest
      refine ⟨hs', ?_, ?_⟩
      · rw [List.flatMap_cons, runFrom_append, hmoves, Option.bind_some, hrun']
      · rw [List.flatMap_cons]
        exact everyStep_append halone hmoves halone'

/-- Whenever the lock is free, the stream is the items that the writers have written, in an
order that keeps the order of each; and what a writer has made ready it has written, but for
the item in its hand. -/
theorem stream_of_lock [Nonempty τ] {s : LockedStream τ μ α} {events : List (LockedEvent τ μ)}
    (hrun : runFrom (LockedEvent.step buffers) (LockedStream.empty τ μ α) events = some s)
    (hfree : s.owner = none) :
    (∃ order, Merges order s.shared.sent ∧
      s.shared.stream = order.flatMap fun entry => (buffers entry.2).flatten) ∧
      ∀ t, s.shared.sent t ++ ((s.shared.hands t).map Prod.fst).toList =
        takenBy t (events.flatMap LockedEvent.moves) := by
  obtain ⟨start⟩ := ‹Nonempty τ›
  have hempty : (LockedStream.empty τ μ α).Guarded buffers := by
    intro u _ m left hhand
    cases hhand
  obtain ⟨hguarded, hshared, halone⟩ := lockedRun_alone hempty hrun
  refine ⟨?_, takenBy_eq hshared⟩
  have hkept : ∀ (s : SharedStream τ μ α) e s', (∃ t, Ordered buffers s t) → Alone buffers s e →
      WriterEvent.step buffers s e = some s' → ∃ t, Ordered buffers s' t := by
    rintro s e s' ⟨t, hs⟩ halone h
    exact hs.step halone h
  obtain ⟨t, order, part, hmerges, hstream, hholds, -⟩ :=
    everyStep_invariant hkept ⟨start, ordered_empty start⟩ halone hshared
  refine ⟨order, hmerges, ?_⟩
  -- nothing of the item in the hand of `t` is on the stream
  have hpart : part = [] := by
    have huntouched := hguarded t (by rw [hfree]; exact nofun)
    cases hhand : s.shared.hands t with
    | none =>
        rw [hhand] at hholds
        exact hholds
    | some hand =>
        obtain ⟨m, left⟩ := hand
        rw [hhand, huntouched m left hhand] at hholds
        exact List.self_eq_append_left.mp hholds
  rw [hstream, hpart, List.append_nil]

end Library
end SqlCodeGenerator
