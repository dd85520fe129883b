import Mathlib.Data.Finset.Card
import Mathlib.Data.List.Dedup
import Mathlib.Data.List.Nodup
import Mathlib.Data.List.Perm.Subperm

/-!
# Once each, with a bounded memory

A loop passes each key on unless it remembers it, and its memory holds only so many keys.
Every key is passed on, and it is passed on once exactly when it is remembered or comes only
once.
-/

set_option autoImplicit false

namespace OpenHes.Library

namespace BoundedMemory

variable {α : Type} [DecidableEq α] (capacity : ℕ)

/-- What the memory becomes when a key is passed on. -/
def remember (memory : List α) (k : α) : List α :=
  if memory.length < capacity then memory ++ [k] else memory

/-- The loop: what is remembered in the end, and the keys that are passed on. -/
def passOn (memory : List α) : List α → List α × List α
  | [] => (memory, [])
  | k :: keys =>
    if k ∈ memory then passOn memory keys
    else
      let (memory, passed) := passOn (remember capacity memory k) keys
      (memory, k :: passed)

/-- INTERNAL: what is remembered is not passed on. -/
theorem passOn_cons_of_mem (memory : List α) (k : α) (keys : List α) (h : k ∈ memory) :
    passOn capacity memory (k :: keys) = passOn capacity memory keys := by
  rw [passOn, if_pos h]

/-- INTERNAL: what is not remembered is passed on, and remembered while there is room. -/
theorem passOn_cons_of_not_mem (memory : List α) (k : α) (keys : List α) (h : k ∉ memory) :
    passOn capacity memory (k :: keys) =
      ((passOn capacity (remember capacity memory k) keys).1,
        k :: (passOn capacity (remember capacity memory k) keys).2) := by
  rw [passOn, if_neg h]

omit [DecidableEq α] in
/-- INTERNAL: nothing is forgotten. -/
theorem subset_remember (memory : List α) (k : α) : memory ⊆ remember capacity memory k := by
  unfold remember
  split
  · exact List.subset_append_left memory [k]
  · exact List.Subset.refl memory

omit [DecidableEq α] in
/-- INTERNAL: only the new key is added. -/
theorem mem_remember (memory : List α) (k j : α) (h : j ∈ remember capacity memory k) :
    j ∈ memory ∨ j = k := by
  unfold remember at h
  split at h
  · simpa using h
  · exact Or.inl h

/-- INTERNAL: **what is remembered** in the end: the first keys that are new, as far as there
is room. -/
theorem passOn_memory (memory keys : List α) :
    (passOn capacity memory keys).1 =
      memory ++ (keys.filter (· ∉ memory)).eraseDups.take (capacity - memory.length) := by
  induction keys generalizing memory with
  | nil => simp [passOn]
  | cons k keys ih =>
    by_cases hk : k ∈ memory
    · rw [passOn_cons_of_mem capacity memory k keys hk, ih, List.filter_cons_of_neg (by simpa)]
    · rw [passOn_cons_of_not_mem capacity memory k keys hk, ih,
        List.filter_cons_of_pos (by simpa), List.eraseDups_cons]
      unfold remember
      split
      next hroom =>
        have hleft : capacity - memory.length = capacity - (memory ++ [k]).length + 1 := by
          rw [List.length_append, List.length_singleton]
          omega
        have hfilter : keys.filter (· ∉ memory ++ [k]) =
            (keys.filter (· ∉ memory)).filter fun j => !j == k := by
          rw [List.filter_filter]
          apply List.filter_congr
          intro j _
          by_cases hj : j = k <;> simp [hj]
        rw [hleft, List.take_succ_cons, hfilter, List.append_assoc]
        rfl
      next hfull =>
        have hleft : capacity - memory.length = 0 := by omega
        rw [hleft, List.take_zero, List.take_zero]

/-- INTERNAL: nothing is forgotten over a list of keys. -/
theorem memory_subset (memory keys : List α) : memory ⊆ (passOn capacity memory keys).1 := by
  rw [passOn_memory]
  exact List.subset_append_left _ _

/-- INTERNAL: **how often** a key is passed on. -/
theorem count_passOn (memory keys : List α) (k : α) :
    (passOn capacity memory keys).2.count k =
      if k ∈ memory then 0
      else if k ∈ (passOn capacity memory keys).1 then min 1 (keys.count k)
      else keys.count k := by
  induction keys generalizing memory with
  | nil => simp [passOn]
  | cons j keys ih =>
    by_cases hj : j ∈ memory
    · rw [passOn_cons_of_mem capacity memory j keys hj, ih]
      by_cases hk : k ∈ memory
      · rw [if_pos hk, if_pos hk]
      · have hne : j ≠ k := by
          rintro rfl
          exact hk hj
        rw [List.count_cons_of_ne hne]
    · rw [passOn_cons_of_not_mem capacity memory j keys hj]
      have hrest := ih (remember capacity memory j)
      by_cases hk : k ∈ memory
      · have hne : j ≠ k := by
          rintro rfl
          exact hj hk
        rw [if_pos hk, List.count_cons_of_ne hne, hrest,
          if_pos (subset_remember capacity memory j hk)]
      · rw [if_neg hk]
        by_cases hjk : j = k
        · subst hjk
          rw [List.count_cons_self, List.count_cons_self, hrest]
          by_cases hroom : memory.length < capacity
          · have hmem : j ∈ remember capacity memory j := by simp [remember, hroom]
            rw [if_pos hmem, if_pos (memory_subset capacity _ keys hmem)]
            omega
          · have hsame : remember capacity memory j = memory := by simp [remember, hroom]
            have hnot : j ∉ (passOn capacity memory keys).1 := by
              rw [passOn_memory, Nat.sub_eq_zero_of_le (by omega)]
              simpa using hj
            rw [hsame, if_neg hj, if_neg hnot, if_neg hnot]
        · rw [List.count_cons_of_ne hjk, List.count_cons_of_ne hjk, hrest]
          have hnew : k ∉ remember capacity memory j := by
            intro hmem
            rcases mem_remember capacity memory j k hmem with hmem | rfl
            · exact hk hmem
            · exact hjk rfl
          rw [if_neg hnew]

/-- INTERNAL: nothing is remembered twice. -/
theorem nodup_memory (memory keys : List α) (h : memory.Nodup) :
    (passOn capacity memory keys).1.Nodup := by
  induction keys generalizing memory with
  | nil => exact h
  | cons k keys ih =>
    by_cases hk : k ∈ memory
    · rw [passOn_cons_of_mem capacity memory k keys hk]
      exact ih memory h
    · rw [passOn_cons_of_not_mem capacity memory k keys hk]
      apply ih
      unfold remember
      split
      · exact List.nodup_append.mpr ⟨h, List.nodup_singleton k, by
          intro a ha b hb hab
          rw [List.mem_singleton.mp hb] at hab
          exact hk (hab ▸ ha)⟩
      · exact h

/-- INTERNAL: **every key is remembered** exactly when there is room for all different ones. -/
theorem forall_mem_memory_iff (keys : List α) :
    (∀ k ∈ keys, k ∈ (passOn capacity [] keys).1) ↔ keys.toFinset.card ≤ capacity := by
  have hmemory : ∀ n, (passOn n [] keys).1 = keys.eraseDups.take n := by
    intro n
    rw [passOn_memory]
    simp
  have hnodup : keys.eraseDups.Nodup := by
    have := nodup_memory keys.eraseDups.length [] keys List.nodup_nil
    rwa [hmemory, List.take_length] at this
  have hcard : keys.toFinset.card = keys.eraseDups.length := by
    rw [← List.toFinset_card_of_nodup hnodup]
    congr 1
    ext k
    rw [List.mem_toFinset, List.mem_toFinset, List.mem_eraseDups]
  rw [hmemory, hcard]
  constructor
  · intro h
    have hsubset : keys.eraseDups ⊆ keys.eraseDups.take capacity :=
      fun k hk => h k (List.mem_eraseDups.mp hk)
    exact Nat.le_trans (List.subperm_of_subset hnodup hsubset).length_le
      (List.length_take_le capacity _)
  · intro h k hk
    rw [List.take_of_length_le h]
    exact List.mem_eraseDups.mpr hk

/-- INTERNAL: **every key** is passed on, and no other. -/
theorem mem_passOn (keys : List α) (k : α) :
    k ∈ (passOn capacity [] keys).2 ↔ k ∈ keys := by
  have hcount := count_passOn capacity [] keys k
  rw [if_neg List.not_mem_nil] at hcount
  rw [← List.count_pos_iff, ← List.count_pos_iff, hcount]
  split <;> omega

/-- INTERNAL: **once each** exactly when every key is among the first that are remembered or
comes only once. -/
theorem nodup_passOn_iff (keys : List α) :
    (passOn capacity [] keys).2.Nodup ↔
      ∀ k ∈ keys, k ∈ keys.eraseDups.take capacity ∨ keys.count k = 1 := by
  have hmemory : (passOn capacity [] keys).1 = keys.eraseDups.take capacity := by
    rw [passOn_memory]
    simp
  rw [List.nodup_iff_count_le_one]
  constructor
  · intro h k hk
    have hle := h k
    have hpos := List.count_pos_iff.mpr hk
    rw [count_passOn, if_neg List.not_mem_nil, hmemory] at hle
    split at hle
    next hmem => exact Or.inl hmem
    next => exact Or.inr (by omega)
  · intro h k
    rw [count_passOn, if_neg List.not_mem_nil, hmemory]
    split
    · omega
    next hnot =>
      by_cases hk : k ∈ keys
      · rcases h k hk with hmem | hone
        · exact absurd hmem hnot
        · omega
      · rw [List.count_eq_zero.mpr hk]
        omega

end BoundedMemory

end OpenHes.Library
