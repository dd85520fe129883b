import Mathlib.Data.List.Basic
import Mathlib.Order.Basic

/-!
# Steps that are paid for

Runs whose steps may be undefined. Where the steps from good states are defined and stay in them,
and each step of a kind takes one off a measure, a run that has enough of them spends the measure,
whatever stands between them.
-/

set_option autoImplicit false

namespace OpenHes.Library

variable {σ ι : Type}

/-- From a good state each step is defined and leads to one, no step raises the measure, and each
step of the kind takes one off. -/
def PaidBy (step : σ → ι → Option σ) (good : σ → Prop) (paid : ι → Bool) (measure : σ → ℕ) :
    Prop :=
  ∀ s i, good s →
    ∃ s', step s i = some s' ∧ good s' ∧ measure s' ≤ measure s - if paid i then 1 else 0

variable {step : σ → ι → Option σ} {good : σ → Prop} {paid : ι → Bool} {measure : σ → ℕ}

/-- INTERNAL: **a run** is defined, and takes off what its steps pay. -/
theorem PaidBy.run (h : PaidBy step good paid measure) (steps : List ι) (s : σ) (hgood : good s) :
    ∃ s', steps.foldlM step s = some s' ∧ good s' ∧
      measure s' ≤ measure s - steps.countP paid := by
  induction steps generalizing s with
  | nil => exact ⟨s, rfl, hgood, Nat.le_refl _⟩
  | cons i rest ih =>
    obtain ⟨t, ht, hgoodt, hpaid⟩ := h s i hgood
    obtain ⟨s', hrun, hgood', hrest⟩ := ih t hgoodt
    refine ⟨s', ?_, hgood', ?_⟩
    · rw [List.foldlM_cons, ht]
      exact hrun
    · rw [List.countP_cons]
      split at hpaid <;> simp_all <;> omega

/-- INTERNAL: **a run with enough of them** spends the measure. -/
theorem PaidBy.spent (h : PaidBy step good paid measure) (steps : List ι) (s : σ)
    (hgood : good s) (henough : measure s ≤ steps.countP paid) :
    ∃ s', steps.foldlM step s = some s' ∧ good s' ∧ measure s' = 0 := by
  obtain ⟨s', hrun, hgood', hpaid⟩ := h.run steps s hgood
  exact ⟨s', hrun, hgood', by omega⟩

end OpenHes.Library
