import Mathlib.Data.List.DropRight

/-!
# The segments of a list

The runs between the separators of a list, without the empty ones. A list is read from its front,
one segment and its separators at a time; what is joined with separators gives its segments back.
-/

set_option autoImplicit false

namespace OpenHes.Library

variable {α : Type*} (p : α → Bool)

/-- The longest runs without a separator. -/
def segments (text : List α) : List (List α) := (text.splitOnP p).filter (· ≠ [])

/-- INTERNAL: an empty text has no segments. -/
theorem segments_nil : segments p [] = [] := by
  unfold segments
  rw [List.splitOnP_nil]
  rfl

/-- INTERNAL: **a separator** takes a text apart. -/
theorem segments_append_cons (text rest : List α) (sep : α) (hsep : p sep = true) :
    segments p (text ++ sep :: rest) = segments p text ++ segments p rest := by
  unfold segments
  rw [List.splitOnP_append_cons text rest hsep, List.filter_append]

/-- INTERNAL: a separator in front makes none. -/
theorem segments_cons (text : List α) (sep : α) (hsep : p sep = true) :
    segments p (sep :: text) = segments p text := by
  have h := segments_append_cons p [] text sep hsep
  rw [segments_nil] at h
  exact h

/-- INTERNAL: separators at the front do not count. -/
theorem segments_dropWhile (text : List α) : segments p (text.dropWhile p) = segments p text := by
  induction text with
  | nil => rfl
  | cons c text ih =>
    by_cases hc : p c = true
    · rw [List.dropWhile_cons_of_pos hc, ih, segments_cons p text c hc]
    · rw [List.dropWhile_cons_of_neg hc]

/-- INTERNAL: a text without separators is one segment. -/
theorem segments_of_run (seg : List α) (hne : seg ≠ []) (h : ∀ c ∈ seg, p c = false) :
    segments p seg = [seg] := by
  unfold segments
  rw [List.splitOnP_eq_singleton h, List.filter_singleton, decide_eq_true hne, cond_true]

/-- INTERNAL: **the first segment**, and what the separators behind it leave. -/
theorem segments_run_append (seg rest : List α) (hne : seg ≠ []) (h : ∀ c ∈ seg, p c = false)
    (hstop : ∀ c ∈ rest.head?, p c = true) :
    segments p (seg ++ rest) = seg :: segments p rest := by
  cases rest with
  | nil => rw [List.append_nil, segments_of_run p seg hne h, segments_nil]
  | cons sep rest =>
    have hsep : p sep = true := hstop sep rfl
    rw [segments_append_cons p seg rest sep hsep, segments_of_run p seg hne h,
      segments_cons p rest sep hsep]
    rfl

/-- INTERNAL: **induction on the segments**: nothing, a separator at the front, and a segment at
the front with a separator or nothing behind it. -/
theorem segments_induction {motive : List α → Prop} (nil : motive [])
    (sep : ∀ c text, p c = true → motive text → motive (c :: text))
    (run : ∀ seg rest, seg ≠ [] → (∀ c ∈ seg, p c = false) → (∀ c ∈ rest.head?, p c = true) →
      motive rest → motive (seg ++ rest))
    (text : List α) : motive text := by
  induction hn : text.length using Nat.strong_induction_on generalizing text with
  | _ n ih =>
    cases text with
    | nil => exact nil
    | cons c text =>
      rw [List.length_cons] at hn
      by_cases hc : p c = true
      · exact sep c text hc (ih text.length (by omega) text rfl)
      · have hc := eq_false_of_ne_true hc
        rw [← List.takeWhile_append_dropWhile (p := fun d => !p d) (l := text), ← List.cons_append]
        have hle := (List.dropWhile_sublist (fun d => !p d) (l := text)).length_le
        refine run _ _ (List.cons_ne_nil _ _) ?_ ?_ (ih _ (by omega) _ rfl)
        · intro d hd
          rcases List.mem_cons.mp hd with rfl | hd
          · exact hc
          · simpa using List.mem_takeWhile_imp hd
        · intro d hd
          have hhead := List.head?_dropWhile_not (fun d => !p d) text
          rw [Option.mem_def.mp hd] at hhead
          simpa using hhead

/-- INTERNAL: a segment holds no separator. -/
theorem mem_segments_run (text seg : List α) (h : seg ∈ segments p text) :
    ∀ c ∈ seg, p c = false := by
  induction text using segments_induction p with
  | nil =>
    rw [segments_nil] at h
    cases h
  | sep c text hc ih =>
    rw [segments_cons p text c hc] at h
    exact ih h
  | run first rest hne hrun hstop ih =>
    rw [segments_run_append p first rest hne hrun hstop] at h
    rcases List.mem_cons.mp h with rfl | h
    · exact hrun
    · exact ih h

end OpenHes.Library
