import Mathlib.Algebra.BigOperators.Group.Finset.Basic
import Mathlib.Algebra.Order.BigOperators.Group.Finset
import Mathlib.Logic.Relation
import Mathlib.Order.WellFoundedSet
import Mathlib.Tactic.Linarith

/-!
# Weights on a finite acyclic relation

On a finite set of vertices without cycles every vertex can be given a weight above
the sum of the weights of its successors. A set of marked vertices then gets lighter
whenever one mark is taken away and only successors of its vertex are marked.
-/

set_option autoImplicit false

namespace OpenHes.Library

variable {ι : Type}

/-- No vertex reaches itself. -/
def Acyclic (R : ι → ι → Prop) : Prop := ∀ i, ¬ Relation.TransGen R i i

/-- INTERNAL: a rank that rises along the relation leaves no cycle. -/
theorem acyclic_of_rank (R : ι → ι → Prop) (rank : ι → ℕ) (h : ∀ i j, R i j → rank i < rank j) :
    Acyclic R := by
  have hpath : ∀ i j, Relation.TransGen R i j → rank i < rank j := by
    intro i j hij
    induction hij with
    | single hstep => exact h _ _ hstep
    | tail _ hstep ih => exact ih.trans (h _ _ hstep)
  intro i hi
  exact Nat.lt_irrefl _ (hpath i i hi)

/-- INTERNAL: on a finite vertex set, an acyclic relation cannot be followed for ever. -/
theorem Acyclic.wellFounded (R : ι → ι → Prop) (S : Finset ι) (hR : Acyclic R)
    (hS : ∀ i j, R i j → j ∈ S) : WellFounded fun j i => R i j := by
  have hstrict : IsStrictOrder ι fun j i => Relation.TransGen R i j :=
    { irrefl := hR
      trans := fun _ _ _ h₁ h₂ => h₂.trans h₁ }
  have hon : (S : Set ι).WellFoundedOn fun j i => Relation.TransGen R i j :=
    S.wellFoundedOn
  have hacc : ∀ i ∈ (S : Set ι), Acc (fun j i => R i j) i := fun i hi =>
    hon.induction hi fun i _ ih => Acc.intro i fun j hj =>
      ih j (hS i j hj) (Relation.TransGen.single hj)
  exact ⟨fun i => Acc.intro i fun j hj => hacc j (hS i j hj)⟩

/-- INTERNAL: every vertex of a finite acyclic relation can weigh more than its successors
together. -/
theorem Acyclic.exists_weight (R : ι → ι → Prop) [DecidableRel R] (S : Finset ι)
    (hR : Acyclic R) (hS : ∀ i j, R i j → j ∈ S) :
    ∃ w : ι → ℕ, ∀ i, ∑ j ∈ S.filter (R i), w j < w i := by
  let hwf := hR.wellFounded R S hS
  let w : ι → ℕ := hwf.fix fun i weight =>
    1 + ∑ j ∈ (S.filter (R i)).attach, weight j.1 (Finset.mem_filter.mp j.2).2
  refine ⟨w, fun i => ?_⟩
  have hw : w i = 1 + ∑ j ∈ (S.filter (R i)).attach, w j.1 := hwf.fix_eq _ i
  rw [hw, Finset.sum_attach (S.filter (R i)) w]
  omega

/-- INTERNAL: taking the mark off `i` and putting marks on successors of `i` only makes the
marked set lighter. -/
theorem marks_lighter (R : ι → ι → Prop) [DecidableRel R] [DecidableEq ι] (S : Finset ι)
    (w : ι → ℕ) (hw : ∀ i, ∑ j ∈ S.filter (R i), w j < w i) (old new : Finset ι) (i : ι)
    (hi : i ∈ old) (hnew : ∀ j ∈ new, j ∈ S ∧ R i j ∨ j ∈ old ∧ j ≠ i) :
    ∑ j ∈ new, w j < ∑ j ∈ old, w j := by
  have hsub : new ⊆ S.filter (R i) ∪ old.erase i := by
    intro j hj
    rcases hnew j hj with ⟨hS, hR⟩ | ⟨hold, hne⟩
    · exact Finset.mem_union_left _ (Finset.mem_filter.mpr ⟨hS, hR⟩)
    · exact Finset.mem_union_right _ (Finset.mem_erase.mpr ⟨hne, hold⟩)
  calc ∑ j ∈ new, w j
      ≤ ∑ j ∈ S.filter (R i) ∪ old.erase i, w j := Finset.sum_le_sum_of_subset hsub
    _ ≤ ∑ j ∈ S.filter (R i), w j + ∑ j ∈ old.erase i, w j := by
        rw [← Finset.sum_union_inter]
        exact Nat.le_add_right _ _
    _ < w i + ∑ j ∈ old.erase i, w j := Nat.add_lt_add_right (hw i) _
    _ = ∑ j ∈ old, w j := Finset.add_sum_erase old w hi

end OpenHes.Library
