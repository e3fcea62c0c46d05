import Mathlib.Tactic

/-!
# Transfers in chunks

Each of several parties sends its data in chunks, which are appended to a file of its
own that is emptied when the transfer begins.

* `Transfers`: the chunks that each party has sent since its transfer began.
* `Transfers.Stored`: the file of each party holds its chunks in order.  It is kept by
  what one party does, if no two parties have one file, and by whatever is written into
  files that are nobody's.

The module names nothing of a particular program.
-/

namespace SqlCodeGenerator
namespace Library

variable {κ ν β : Type}

/-- The chunks of each party since its transfer began, if it has begun. -/
abbrev Transfers (κ β : Type) := κ → Option (List (List β))

namespace Transfers

section Operations

variable [DecidableEq κ]

/-- A party begins. -/
def begun (t : Transfers κ β) (k : κ) : Transfers κ β := Function.update t k (some [])

/-- A party sends a chunk. -/
def extend (t : Transfers κ β) (k : κ) (chunk : List β) : Transfers κ β :=
  Function.update t k ((t k).map fun chunks => chunks ++ [chunk])

end Operations

/-- The file of each party that has begun holds its chunks in order. -/
def Stored (t : Transfers κ β) (name : κ → ν) (files : ν → Option (List β)) : Prop :=
  ∀ k chunks, t k = some chunks → files (name k) = some chunks.flatten

variable [DecidableEq ν] {t : Transfers κ β} {name : κ → ν} {files : ν → Option (List β)}

/-- A file that is nobody's is written. -/
theorem Stored.other (h : t.Stored name files) {path : ν} (hpath : ∀ k, name k ≠ path)
    (data : Option (List β)) : t.Stored name (Function.update files path data) := by
  intro k chunks hk
  rw [Function.update_of_ne (hpath k)]
  exact h k chunks hk

variable [DecidableEq κ]

/-- The file of a party is emptied. -/
theorem Stored.begun (h : t.Stored name files) (hname : Function.Injective name) (k : κ) :
    (t.begun k).Stored name (Function.update files (name k) (some [])) := by
  intro k' chunks hk'
  by_cases hsame : k' = k
  · subst hsame
    rw [Transfers.begun, Function.update_self] at hk'
    obtain rfl := Option.some.inj hk'
    exact Function.update_self _ _ _
  · rw [Transfers.begun, Function.update_of_ne hsame] at hk'
    rw [Function.update_of_ne fun heq => hsame (hname heq)]
    exact h k' chunks hk'

/-- A chunk is appended to the file of a party. -/
theorem Stored.extend (h : t.Stored name files) (hname : Function.Injective name) (k : κ)
    (chunk : List β) :
    (t.extend k chunk).Stored name
      (Function.update files (name k) (some ((files (name k)).getD [] ++ chunk))) := by
  intro k' chunks hk'
  by_cases hsame : k' = k
  · subst hsame
    rw [Transfers.extend, Function.update_self] at hk'
    obtain ⟨before, hbefore, rfl⟩ := Option.map_eq_some_iff.mp hk'
    rw [Function.update_self, h k' before hbefore, Option.getD_some, List.flatten_append,
      List.flatten_singleton]
  · rw [Transfers.extend, Function.update_of_ne hsame] at hk'
    rw [Function.update_of_ne fun heq => hsame (hname heq)]
    exact h k' chunks hk'

end Transfers

end Library
end SqlCodeGenerator
