import SqlCodeGenerator.Library.Runs

/-!
# Writers that share a stream

Several writers put items on one stream.  An item is written as a list of buffers,
and a buffer in parts: one write puts the next part of the writer's current buffer
behind everything that is on the stream.  Between two writes of one writer the
others may write.

* `Alone`: a write in the middle of nobody else's item.
* `stream_of_alone`: when every write is alone, the stream is the items sent, in
  an order that keeps the order of each writer, and a part of one more.

The module names nothing of a particular program.
-/

namespace SqlCodeGenerator
namespace Library

/-- The stream, the item that each writer has in hand with what is left of its
buffers, and the items that each writer has sent. -/
structure SharedStream (τ μ α : Type) where
  stream : List α
  hands : τ → Option (μ × List (List α))
  sent : τ → List μ

/-- Nothing has been written. -/
def SharedStream.empty (τ μ α : Type) : SharedStream τ μ α := ⟨[], fun _ => none, fun _ => []⟩

/-- A writer takes an item in hand, or makes one write. -/
inductive WriterEvent (τ μ : Type) where
  | take (t : τ) (m : μ)
  | write (t : τ) (count : Nat)

variable {τ μ α : Type}

/-- What is left of buffers after a write of `count` from the first. -/
def leftAfter (count : Nat) (buffer : List α) (more : List (List α)) : List (List α) :=
  if count < buffer.length then buffer.drop count :: more else more

theorem flatten_leftAfter (count : Nat) (buffer : List α) (more : List (List α)) :
    buffer.take count ++ (leftAfter count buffer more).flatten = buffer ++ more.flatten := by
  unfold leftAfter
  split
  · rw [List.flatten_cons, ← List.append_assoc, List.take_append_drop]
  · next hlen => rw [List.take_of_length_le (Nat.not_lt.mp hlen)]

/-- Buffers stay filled. -/
theorem ne_nil_of_mem_leftAfter {count : Nat} {buffer : List α} {more : List (List α)}
    (hmore : ∀ b ∈ more, b ≠ []) : ∀ b ∈ leftAfter count buffer more, b ≠ [] := by
  intro b hb
  unfold leftAfter at hb
  split at hb
  · next hlen =>
      rcases List.mem_cons.mp hb with rfl | hb
      · intro hnil
        have hdrop := List.drop_eq_nil_iff.mp hnil
        omega
      · exact hmore b hb
  · exact hmore b hb

variable [DecidableEq τ] (buffers : μ → List (List α))

/-- A step of a writer. -/
def WriterEvent.step (s : SharedStream τ μ α) : WriterEvent τ μ → Option (SharedStream τ μ α)
  | .take t m =>
      if (s.hands t).isNone then
        some { s with hands := Function.update s.hands t (some (m, buffers m)) }
      else
        none
  | .write t count =>
      match s.hands t with
      | some (m, buffer :: more) =>
          if 0 < count ∧ count ≤ buffer.length then
            if leftAfter count buffer more = [] then
              some {
                stream := s.stream ++ buffer.take count
                hands := Function.update s.hands t none
                sent := Function.update s.sent t (s.sent t ++ [m]) }
            else
              some { s with
                stream := s.stream ++ buffer.take count
                hands := Function.update s.hands t (some (m, leftAfter count buffer more)) }
          else
            none
      | _ => none

/-- The writer has written nothing of the item in its hand. -/
def Untouched (s : SharedStream τ μ α) (t : τ) : Prop :=
  ∀ m left, s.hands t = some (m, left) → left = buffers m

instance decidableUntouched [DecidableEq α] (s : SharedStream τ μ α) (t : τ) :
    Decidable (Untouched buffers s t) :=
  match hhand : s.hands t with
  | none => isTrue (by simp [Untouched, hhand])
  | some (m, left) => decidable_of_iff (left = buffers m) (by simp [Untouched, hhand])

/-- No write falls into the middle of another writer's item. -/
def Alone (s : SharedStream τ μ α) : WriterEvent τ μ → Prop
  | .take _ _ => True
  | .write t _ => ∀ u, u ≠ t → Untouched buffers s u

instance decidableAlone [Fintype τ] [DecidableEq α] (s : SharedStream τ μ α) :
    ∀ e, Decidable (Alone buffers s e)
  | .take _ _ => isTrue trivial
  | .write t _ => inferInstanceAs (Decidable (∀ u, u ≠ t → Untouched buffers s u))

/-- Items in an order that keeps the order of each writer. -/
def Merges (order : List (τ × μ)) (sent : τ → List μ) : Prop :=
  ∀ t, (order.filter fun entry => entry.1 = t).map Prod.snd = sent t

/-- The items that a writer takes in hand. -/
def takenBy (t : τ) (events : List (WriterEvent τ μ)) : List μ :=
  events.filterMap fun
    | .take u m => if u = t then some m else none
    | .write _ _ => none

theorem Merges.send {order : List (τ × μ)} {sent : τ → List μ} (h : Merges order sent) (t : τ)
    (m : μ) : Merges (order ++ [(t, m)]) (Function.update sent t (sent t ++ [m])) := by
  intro u
  rw [List.filter_append, List.map_append, h u]
  by_cases hu : u = t
  · subst hu
    simp
  · rw [Function.update_of_ne hu]
    simp [Ne.symm hu]

variable {buffers}

/-- Inversion of a step: an item is taken in hand, or a write is made that leaves
something of the item or nothing. -/
theorem WriterEvent.step_cases {s s' : SharedStream τ μ α} {e : WriterEvent τ μ}
    (h : e.step buffers s = some s') :
    (∃ t m, e = .take t m ∧ s.hands t = none ∧
      s' = { s with hands := Function.update s.hands t (some (m, buffers m)) }) ∨
    (∃ t count m buffer more, e = .write t count ∧ s.hands t = some (m, buffer :: more) ∧
      leftAfter count buffer more = [] ∧
      s' = ⟨s.stream ++ buffer.take count, Function.update s.hands t none,
        Function.update s.sent t (s.sent t ++ [m])⟩) ∨
    (∃ t count m buffer more, e = .write t count ∧ s.hands t = some (m, buffer :: more) ∧
      leftAfter count buffer more ≠ [] ∧
      s' = ⟨s.stream ++ buffer.take count,
        Function.update s.hands t (some (m, leftAfter count buffer more)), s.sent⟩) := by
  cases e with
  | take t m =>
      left
      simp only [step] at h
      split at h
      · next hnone =>
          exact ⟨t, m, rfl, Option.isNone_iff_eq_none.mp hnone, (Option.some.inj h).symm⟩
      · cases h
  | write t count =>
      right
      simp only [step] at h
      split at h
      · next m buffer more hhand =>
          split at h
          · split at h
            · next hleft =>
                exact Or.inl ⟨t, count, m, buffer, more, rfl, hhand, hleft,
                  (Option.some.inj h).symm⟩
            · next hleft =>
                exact Or.inr ⟨t, count, m, buffer, more, rfl, hhand, hleft,
                  (Option.some.inj h).symm⟩
          · cases h
      · cases h

/-! ## What is in the hands -/

/-- Every buffer in a hand has something left, and no hand is done. -/
def Proper (s : SharedStream τ μ α) : Prop :=
  ∀ t m left, s.hands t = some (m, left) → left ≠ [] ∧ ∀ b ∈ left, b ≠ []

omit [DecidableEq τ] in
theorem proper_empty : Proper (SharedStream.empty τ μ α) := by
  intro t m left h
  cases h

theorem Proper.step (hbuffers : ∀ m, buffers m ≠ [] ∧ ∀ b ∈ buffers m, b ≠ [])
    {s s' : SharedStream τ μ α} {e : WriterEvent τ μ} (hs : Proper s)
    (h : e.step buffers s = some s') : Proper s' := by
  intro u m' left' hu
  rcases WriterEvent.step_cases h with ⟨t, m, -, -, rfl⟩ |
    ⟨t, count, m, buffer, more, -, -, -, rfl⟩ |
    ⟨t, count, m, buffer, more, -, hhand, hleft, rfl⟩
  · by_cases hut : u = t
    · subst hut
      simp only [Function.update_self, Option.some.injEq, Prod.mk.injEq] at hu
      obtain ⟨rfl, rfl⟩ := hu
      exact hbuffers m
    · simp only [Function.update_of_ne hut] at hu
      exact hs u m' left' hu
  · by_cases hut : u = t
    · subst hut
      simp only [Function.update_self] at hu
      cases hu
    · simp only [Function.update_of_ne hut] at hu
      exact hs u m' left' hu
  · by_cases hut : u = t
    · subst hut
      simp only [Function.update_self, Option.some.injEq, Prod.mk.injEq] at hu
      obtain ⟨rfl, rfl⟩ := hu
      refine ⟨hleft, ne_nil_of_mem_leftAfter fun b hb => ?_⟩
      exact (hs u m (buffer :: more) hhand).2 b (List.mem_cons_of_mem buffer hb)
    · simp only [Function.update_of_ne hut] at hu
      exact hs u m' left' hu

/-- What a writer has taken it has sent, but for what it has in hand. -/
theorem takenBy_eq {events : List (WriterEvent τ μ)} {s s' : SharedStream τ μ α}
    (hrun : runFrom (WriterEvent.step buffers) s events = some s') (t : τ) :
    s'.sent t ++ ((s'.hands t).map Prod.fst).toList =
      s.sent t ++ ((s.hands t).map Prod.fst).toList ++ takenBy t events := by
  induction events generalizing s with
  | nil =>
      obtain rfl := Option.some.inj hrun
      simp [takenBy]
  | cons e events ih =>
      obtain ⟨middle, hstep, hrest⟩ := runFrom_cons_eq_some_iff.mp hrun
      rw [ih hrest]
      rcases WriterEvent.step_cases hstep with ⟨u, m, rfl, hnone, rfl⟩ |
        ⟨u, count, m, buffer, more, rfl, hhand, hleft, rfl⟩ |
        ⟨u, count, m, buffer, more, rfl, hhand, hleft, rfl⟩
      · by_cases hu : u = t
        · subst hu
          simp [takenBy, hnone]
        · simp [takenBy, hu, Function.update_of_ne (Ne.symm hu)]
      · by_cases hu : u = t
        · subst hu
          simp [takenBy, hhand]
        · simp [takenBy, Function.update_of_ne (Ne.symm hu)]
      · by_cases hu : u = t
        · subst hu
          simp [takenBy, hhand]
        · simp [takenBy, Function.update_of_ne (Ne.symm hu)]

/-! ## Writes that are alone -/

/-- A part of an item is on the stream, and the rest is in the hand. -/
def Holds (buffers : μ → List (List α)) (part : List α) : Option (μ × List (List α)) → Prop
  | none => part = []
  | some (m, left) => (buffers m).flatten = part ++ left.flatten

/-- The stream is items sent and a part of one that `t` has in hand; the items in
the other hands are untouched. -/
def Ordered (buffers : μ → List (List α)) (s : SharedStream τ μ α) (t : τ) : Prop :=
  ∃ order part, Merges order s.sent ∧
    s.stream = (order.flatMap fun entry => (buffers entry.2).flatten) ++ part ∧
    Holds buffers part (s.hands t) ∧ ∀ u, u ≠ t → Untouched buffers s u

/-- A writer that nobody stands in the way of can be the one with an item in hand. -/
theorem Ordered.pass {s : SharedStream τ μ α} {t u : τ} (h : Ordered buffers s t)
    (halone : ∀ v, v ≠ u → Untouched buffers s v) : Ordered buffers s u := by
  by_cases hu : u = t
  · rwa [hu]
  · obtain ⟨order, part, hmerges, hstream, hholds, huntouched⟩ := h
    -- nothing of the item of `t` is on the stream
    have hpart : part = [] := by
      have htouch := halone t (Ne.symm hu)
      unfold Untouched at htouch
      cases hhand : s.hands t with
      | none =>
          rw [hhand] at hholds
          exact hholds
      | some hand =>
          obtain ⟨m, left⟩ := hand
          rw [hhand, htouch m left hhand] at hholds
          exact List.self_eq_append_left.mp hholds
    refine ⟨order, part, hmerges, hstream, ?_, halone⟩
    cases hhand : s.hands u with
    | none => exact hpart
    | some hand =>
        obtain ⟨m, left⟩ := hand
        rw [Holds, huntouched u hu m left hhand, hpart, List.nil_append]

theorem ordered_empty (t : τ) : Ordered buffers (SharedStream.empty τ μ α) t := by
  refine ⟨[], [], fun _ => rfl, rfl, rfl, fun u hu m left hhand => ?_⟩
  cases hhand

/-- A step that is alone keeps the order, with the item of some writer in hand. -/
theorem Ordered.step {s s' : SharedStream τ μ α} {e : WriterEvent τ μ} {t : τ}
    (hs : Ordered buffers s t) (halone : Alone buffers s e) (h : e.step buffers s = some s') :
    ∃ u, Ordered buffers s' u := by
  rcases WriterEvent.step_cases h with ⟨u, m, rfl, hnone, rfl⟩ |
    ⟨u, count, m, buffer, more, rfl, hhand, hleft, rfl⟩ |
    ⟨u, count, m, buffer, more, rfl, hhand, hleft, rfl⟩
  · -- an item taken in hand is untouched
    obtain ⟨order, part, hmerges, hstream, hholds, huntouched⟩ := hs
    refine ⟨t, order, part, hmerges, hstream, ?_, fun v hv m' left' hhand => ?_⟩
    · by_cases htu : t = u
      · subst htu
        rw [hnone] at hholds
        obtain rfl : part = [] := hholds
        simp only [Function.update_self, Holds, List.nil_append]
      · simpa only [Function.update_of_ne htu] using hholds
    · by_cases hvu : v = u
      · subst hvu
        simp only [Function.update_self, Option.some.injEq, Prod.mk.injEq] at hhand
        obtain ⟨rfl, rfl⟩ := hhand
        rfl
      · simp only [Function.update_of_ne hvu] at hhand
        exact huntouched v hv m' left' hhand
  · -- the last write of an item
    obtain ⟨order, part, hmerges, hstream, hholds, huntouched⟩ := hs.pass halone
    refine ⟨u, order ++ [(u, m)], [], hmerges.send u m, ?_, ?_, fun v hv m' left' hv' => ?_⟩
    · rw [hhand] at hholds
      have hwhole : (buffers m).flatten = part ++ buffer.take count := by
        have hflatten := flatten_leftAfter count buffer more
        rw [hleft, List.flatten_nil, List.append_nil] at hflatten
        rw [Holds, List.flatten_cons, ← hflatten] at hholds
        exact hholds
      simp only [hstream, List.flatMap_append, List.flatMap_cons, List.flatMap_nil, hwhole,
        List.append_assoc, List.append_nil]
    · simp only [Function.update_self, Holds]
    · simp only [Function.update_of_ne hv] at hv'
      exact huntouched v hv m' left' hv'
  · -- a write that leaves something of the item
    obtain ⟨order, part, hmerges, hstream, hholds, huntouched⟩ := hs.pass halone
    refine ⟨u, order, part ++ buffer.take count, hmerges, ?_, ?_, fun v hv m' left' hv' => ?_⟩
    · simp only [hstream, List.append_assoc]
    · rw [hhand, Holds, List.flatten_cons, ← flatten_leftAfter count buffer more] at hholds
      simpa only [Function.update_self, Holds, List.append_assoc] using hholds
    · simp only [Function.update_of_ne hv] at hv'
      exact huntouched v hv m' left' hv'

/-- When every write is alone, the stream is the items sent, in an order that keeps
the order of each writer, and a part of one item that is not yet sent. -/
theorem stream_of_alone [Nonempty τ] (hbuffers : ∀ m, buffers m ≠ [] ∧ ∀ b ∈ buffers m, b ≠ [])
    {s : SharedStream τ μ α} {events : List (WriterEvent τ μ)}
    (hrun : runFrom (WriterEvent.step buffers) (SharedStream.empty τ μ α) events = some s)
    (halone : EveryStep (WriterEvent.step buffers) (Alone buffers) (SharedStream.empty τ μ α)
      events) :
    ∃ order part, Merges order s.sent ∧
      s.stream = (order.flatMap fun entry => (buffers entry.2).flatten) ++ part ∧
      (part = [] ∨ ∃ m rest, (buffers m).flatten = part ++ rest ∧ rest ≠ []) := by
  obtain ⟨start⟩ := ‹Nonempty τ›
  have hproper : Proper s :=
    runFrom_invariant (fun _ _ _ hs h => Proper.step hbuffers hs h) proper_empty hrun
  have hkept : ∀ (s : SharedStream τ μ α) e s', (∃ t, Ordered buffers s t) → Alone buffers s e →
      WriterEvent.step buffers s e = some s' → ∃ t, Ordered buffers s' t := by
    intro s e s' hs halone h
    obtain ⟨t, hs⟩ := hs
    exact hs.step halone h
  have hordered : ∃ t, Ordered buffers s t :=
    everyStep_invariant hkept ⟨start, ordered_empty start⟩ halone hrun
  obtain ⟨t, order, part, hmerges, hstream, hholds, -⟩ := hordered
  refine ⟨order, part, hmerges, hstream, ?_⟩
  cases hhand : s.hands t with
  | none =>
      rw [hhand] at hholds
      exact Or.inl hholds
  | some hand =>
      obtain ⟨m, left⟩ := hand
      rw [hhand] at hholds
      refine Or.inr ⟨m, left.flatten, hholds, fun hnil => ?_⟩
      obtain ⟨hne, hfilled⟩ := hproper t m left hhand
      obtain ⟨b, hb⟩ := List.exists_mem_of_ne_nil left hne
      exact hfilled b hb (List.flatten_eq_nil_iff.mp hnil b hb)

end Library
end SqlCodeGenerator
