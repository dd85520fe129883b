import Mathlib.Data.List.Basic

/-!
# Logs of memory

What a program does with blocks of memory, one event after another. A block is released once
when there is one event that frees it and nothing that concerns it comes after that.
-/

set_option autoImplicit false

namespace OpenHes.Library

/-- An allocation of a block, a read or write of it, its release. -/
inductive MemEvent (β : Type)
  | alloc (b : β)
  | use (b : β)
  | free (b : β)
  deriving DecidableEq

namespace MemEvent

variable {β : Type}

/-- The block that an event concerns. -/
def block : MemEvent β → β
  | alloc b => b
  | use b => b
  | free b => b

/-- The block is freed by one event of the log, and no later one concerns it. -/
def ReleasedOnce (b : β) (log : List (MemEvent β)) : Prop :=
  ∃ before after, log = before ++ free b :: after ∧ free b ∉ before ∧ ∀ e ∈ after, e.block ≠ b

/-- INTERNAL: a block is released once that is not freed before and not touched behind. -/
theorem releasedOnce_of_tail (b : β) (before after : List (MemEvent β)) (h : free b ∉ before)
    (hafter : ∀ e ∈ after, e.block ≠ b) : ReleasedOnce b (before ++ free b :: after) :=
  ⟨before, after, rfl, h, hafter⟩

/-- INTERNAL: events of other blocks may follow. -/
theorem ReleasedOnce.append (b : β) (log more : List (MemEvent β)) (h : ReleasedOnce b log)
    (hmore : ∀ e ∈ more, e.block ≠ b) : ReleasedOnce b (log ++ more) := by
  obtain ⟨before, after, rfl, hbefore, hafter⟩ := h
  refine ⟨before, after ++ more, by rw [List.append_assoc]; rfl, hbefore, ?_⟩
  intro e he
  rcases List.mem_append.mp he with he | he
  · exact hafter e he
  · exact hmore e he

/-- INTERNAL: a block that was freed is not freed again. -/
theorem ReleasedOnce.not_twice (b : β) (log more : List (MemEvent β)) (hfreed : free b ∈ log)
    (h : ReleasedOnce b (log ++ free b :: more)) : False := by
  obtain ⟨before, after, heq, hbefore, hafter⟩ := h
  rcases List.append_eq_append_iff.mp heq with ⟨mid, rfl, hmid⟩ | ⟨mid, rfl, hmid⟩
  · exact hbefore (List.mem_append_left mid hfreed)
  · cases mid with
    | nil => exact hbefore (by simpa using hfreed)
    | cons e mid =>
      obtain ⟨rfl, rfl⟩ := List.cons.inj hmid
      exact hafter (free b) (by simp) rfl

end MemEvent

end OpenHes.Library
