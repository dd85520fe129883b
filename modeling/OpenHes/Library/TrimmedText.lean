import Mathlib.Data.List.DropRight

/-!
# Trimmed texts

A list without the elements of a kind at its front and at its end, the blanks of a text for
instance. Blanks behind a text change nothing, and a text that is cut behind its last letter is
trimmed to the same.
-/

set_option autoImplicit false

namespace OpenHes.Library

variable {α : Type*} (p : α → Bool)

/-- The list without the elements at its ends that `p` holds of. -/
def trimmed (text : List α) : List α := (text.dropWhile p).rdropWhile p

/-- INTERNAL: a text is trimmed to nothing if it is all blanks. -/
theorem trimmed_eq_nil (text : List α) : trimmed p text = [] ↔ ∀ c ∈ text, p c = true := by
  unfold trimmed
  rw [List.rdropWhile_eq_nil_iff]
  constructor
  · intro h c hc
    rw [← List.takeWhile_append_dropWhile (p := p) (l := text)] at hc
    rcases List.mem_append.mp hc with hfront | hrest
    · exact List.mem_takeWhile_imp hfront
    · exact h c hrest
  · intro h c hc
    exact h c ((List.dropWhile_sublist p).mem hc)

/-- INTERNAL: a blank behind makes no difference. -/
theorem trimmed_append_blank (text : List α) (c : α) (hc : p c = true) :
    trimmed p (text ++ [c]) = trimmed p text := by
  unfold trimmed
  by_cases h : ∀ d ∈ text, p d = true
  · have hall : ∀ d ∈ text ++ [c], p d = true := by
      intro d hd
      rcases List.mem_append.mp hd with hd | hd
      · exact h d hd
      · exact List.mem_singleton.mp hd ▸ hc
    rw [List.dropWhile_eq_nil_iff.mpr h, List.dropWhile_eq_nil_iff.mpr hall]
  · have hrest : (text.dropWhile p).isEmpty = false := by
      rw [List.isEmpty_eq_false_iff, ne_eq, List.dropWhile_eq_nil_iff]
      exact h
    rw [List.dropWhile_append, hrest, if_neg Bool.false_ne_true,
      List.rdropWhile_concat_pos p _ c hc]

/-- INTERNAL: elements of the kind at the front are dropped one way or the other. -/
theorem trimmed_dropWhile (q : α → Bool) (hq : ∀ c, q c = true → p c = true) (text : List α) :
    trimmed p (text.dropWhile q) = trimmed p text := by
  have hdrop : (text.dropWhile q).dropWhile p = text.dropWhile p := by
    induction text with
    | nil => rfl
    | cons c text ih =>
      by_cases hc : q c = true
      · rw [List.dropWhile_cons_of_pos hc, List.dropWhile_cons_of_pos (hq c hc), ih]
      · rw [List.dropWhile_cons_of_neg hc]
  unfold trimmed
  rw [hdrop]

/-- INTERNAL: in front of a text that starts with no blank nothing is trimmed. -/
theorem trimmed_cons (c : α) (text : List α) (hc : p c = false) :
    trimmed p (c :: text) = (c :: text).rdropWhile p := by
  unfold trimmed
  rw [List.dropWhile_cons_of_neg (by rw [hc]; exact Bool.false_ne_true)]

/-- INTERNAL: a trimmed text starts with no blank. -/
theorem head_trimmed (text : List α) (c : α) (hc : (trimmed p text).head? = some c) :
    p c = false := by
  have hprefix : trimmed p text <+: text.dropWhile p := List.rdropWhile_prefix p _
  obtain ⟨rest, hrest⟩ := hprefix
  have hhead : (text.dropWhile p).head? = some c := by
    rw [← hrest, List.head?_append, hc, Option.some_or]
  exact Bool.eq_false_iff.mpr (by simpa [hhead] using List.head?_dropWhile_not p text)

/-- INTERNAL: blanks behind a text are dropped with its own. -/
theorem rdropWhile_append_of_all (text blanks : List α) (h : ∀ c ∈ blanks, p c = true) :
    (text ++ blanks).rdropWhile p = text.rdropWhile p := by
  induction blanks using List.reverseRecOn with
  | nil => rw [List.append_nil]
  | append_singleton blanks c ih =>
    rw [← List.append_assoc, List.rdropWhile_concat_pos p _ c (h c (by simp)),
      ih fun d hd => h d (by simp [hd])]

/-- INTERNAL: **a text that is cut** is trimmed to the same exactly when what is left of it in
the end is not longer than the cut. -/
theorem rdropWhile_take (n : ℕ) (text : List α) :
    (text.take n).rdropWhile p = text.rdropWhile p ↔ (text.rdropWhile p).length ≤ n := by
  constructor
  · intro h
    rw [← h]
    exact (List.rdropWhile_prefix p _).length_le.trans (List.length_take_le n text)
  · intro h
    have hparts : text.rdropWhile p ++ text.rtakeWhile p = text :=
      List.rdropWhile_append_rtakeWhile
    have hblanks : ∀ c ∈ (text.rtakeWhile p).take (n - (text.rdropWhile p).length), p c = true :=
      fun c hc => List.mem_rtakeWhile_imp (List.mem_of_mem_take hc)
    calc (text.take n).rdropWhile p
        = ((text.rdropWhile p ++ text.rtakeWhile p).take n).rdropWhile p := by rw [hparts]
      _ = (text.rdropWhile p ++
            (text.rtakeWhile p).take (n - (text.rdropWhile p).length)).rdropWhile p := by
          rw [List.take_append, List.take_of_length_le h]
      _ = (text.rdropWhile p).rdropWhile p := rdropWhile_append_of_all p _ _ hblanks
      _ = text.rdropWhile p := List.rdropWhile_idempotent p text

end OpenHes.Library
