import Mathlib.Data.List.Basic
import Mathlib.Logic.Function.Basic

/-!
# Flags that are reported and echoed

A holder of flags that reports all of them whenever an event changes one, a store that takes
each report over, and a queue of echoes: the store sends every report back, and the holder
takes an echo over when it comes. An event that the flag already shows is not reported.
Whether the two agree with the last events is decided step by step.
-/

set_option autoImplicit false

namespace OpenHes.Library

variable {D : Type} [DecidableEq D]

/-- The flags of the holder and of the store, and the echoes on their way, oldest first. -/
structure EchoedFlags (D : Type) where
  held : D → Bool
  stored : D → Bool
  echoes : List (D → Bool)

/-- The next echo is taken over, or an event sets a flag; its report reaches the store or gets
lost. -/
inductive EchoStep (D : Type)
  | merge
  | event (d : D) (v : Bool) (reached : Bool)

namespace EchoedFlags

/-- One step. -/
def step (s : EchoedFlags D) : EchoStep D → EchoedFlags D
  | .merge =>
    match s.echoes with
    | [] => s
    | echo :: rest => { s with held := echo, echoes := rest }
  | .event d v reached =>
    if s.held d = v then s
    else
      let flags := Function.update s.held d v
      if reached then ⟨flags, flags, s.echoes ++ [flags]⟩ else { s with held := flags }

/-- A run. -/
def run (s : EchoedFlags D) (steps : List (EchoStep D)) : EchoedFlags D := steps.foldl step s

/-- The last events behind a step. -/
def noteEvent (last : D → Bool) : EchoStep D → D → Bool
  | .merge => last
  | .event d v _ => Function.update last d v

/-- The step keeps the store right: where an event is reported and reaches the store, the other
flags are held as they are stored; otherwise it is stored already. -/
def Keeps (s : EchoedFlags D) : EchoStep D → Prop
  | .merge => True
  | .event d v reached =>
    (s.held d ≠ v ∧ reached = true → ∀ d', d' ≠ d → s.held d' = s.stored d') ∧
      (¬ (s.held d ≠ v ∧ reached = true) → s.stored d = v)

/-- The store shows the last events, and the last echo is what is stored. -/
structure Consistent (s : EchoedFlags D) (last : D → Bool) : Prop where
  stored : s.stored = last
  echoed : ∀ echo, s.echoes.getLast? = some echo → echo = s.stored
  settled : s.echoes = [] → s.held = s.stored

/-- INTERNAL: where two tables differ in one entry, setting it makes them one. -/
theorem update_others (held stored : D → Bool) (d : D) (v : Bool)
    (h : ∀ d', d' ≠ d → held d' = stored d') :
    Function.update held d v = Function.update stored d v := by
  funext d'
  by_cases hd : d' = d
  · subst hd
    rw [Function.update_self, Function.update_self]
  · rw [Function.update_of_ne hd, Function.update_of_ne hd, h d' hd]

/-- INTERNAL: an event that tells nothing new does nothing. -/
theorem step_same (s : EchoedFlags D) (d : D) (v reached : Bool) (h : s.held d = v) :
    s.step (.event d v reached) = s := by
  unfold step
  dsimp only
  rw [if_pos h]

/-- INTERNAL: a change that is reported is stored, and echoed. -/
theorem step_reported (s : EchoedFlags D) (d : D) (v : Bool) (h : s.held d ≠ v) :
    s.step (.event d v true) =
      ⟨Function.update s.held d v, Function.update s.held d v,
        s.echoes ++ [Function.update s.held d v]⟩ := by
  unfold step
  dsimp only
  rw [if_neg h, if_pos rfl]

/-- INTERNAL: a change whose report is lost is held only. -/
theorem step_lost (s : EchoedFlags D) (d : D) (v : Bool) (h : s.held d ≠ v) :
    s.step (.event d v false) = { s with held := Function.update s.held d v } := by
  unfold step
  dsimp only
  rw [if_neg h, if_neg (by decide)]

/-- INTERNAL: **a step that keeps the store right** keeps the state consistent. -/
theorem step_consistent (s : EchoedFlags D) (last : D → Bool) (h : s.Consistent last)
    (st : EchoStep D) (hkeeps : s.Keeps st) : (s.step st).Consistent (noteEvent last st) := by
  cases st with
  | merge =>
    unfold step noteEvent
    dsimp only
    cases hechoes : s.echoes with
    | nil => exact h
    | cons echo rest =>
      have hechoed := h.echoed
      rw [hechoes] at hechoed
      refine ⟨h.stored, fun e he => ?_, fun hrest => ?_⟩
      · apply hechoed
        rw [List.getLast?_cons, he]
        rfl
      · have hrest : rest = [] := hrest
        subst hrest
        exact hechoed echo rfl
  | event d v reached =>
    obtain ⟨hsent, hunsent⟩ := hkeeps
    show Consistent _ (Function.update last d v)
    by_cases hsend : s.held d ≠ v ∧ reached = true
    · obtain ⟨hchange, rfl⟩ := hsend
      have hupdate := update_others _ _ d v (hsent ⟨hchange, rfl⟩)
      rw [step_reported s d v hchange]
      refine ⟨?_, fun e he => ?_, fun hnil => ?_⟩
      · rw [← h.stored]
        exact hupdate
      · rw [List.getLast?_concat, Option.some.injEq] at he
        exact he.symm
      · exact absurd hnil (by simp)
    · have hstored := hunsent hsend
      have hlast : Function.update last d v = last := by
        rw [← hstored, h.stored, Function.update_eq_self]
      rw [hlast]
      by_cases hsame : s.held d = v
      · rw [step_same s d v reached hsame]
        exact h
      · have hreached : reached = false := by simpa [hsame] using hsend
        subst hreached
        rw [step_lost s d v hsame]
        -- The holder was behind the store, so an echo is still to come.
        refine ⟨h.stored, h.echoed, fun hnil => absurd ?_ hsame⟩
        rw [h.settled hnil, hstored]

/-- INTERNAL: **a step that does not** leaves the store wrong. -/
theorem step_wrong (s : EchoedFlags D) (last : D → Bool) (h : s.Consistent last)
    (st : EchoStep D) (hbreaks : ¬ s.Keeps st) : (s.step st).stored ≠ noteEvent last st := by
  intro hright
  apply hbreaks
  cases st with
  | merge => exact trivial
  | event d v reached =>
    have hright : (s.step (.event d v reached)).stored = Function.update last d v := hright
    refine ⟨?_, fun hsend => ?_⟩
    · rintro ⟨hchange, rfl⟩ d' hd'
      rw [step_reported s d v hchange] at hright
      have := congrFun hright d'
      dsimp only at this
      rw [Function.update_of_ne hd', Function.update_of_ne hd'] at this
      rw [this, h.stored]
    · have hkept : (s.step (.event d v reached)).stored = s.stored := by
        by_cases hsame : s.held d = v
        · rw [step_same s d v reached hsame]
        · have hreached : reached = false := by simpa [hsame] using hsend
          subst hreached
          rw [step_lost s d v hsame]
      rw [hkept] at hright
      rw [hright, Function.update_self]

/-! ## Runs -/

/-- The last events of a run. -/
def lastEvents (last : D → Bool) (steps : List (EchoStep D)) : D → Bool :=
  steps.foldl noteEvent last

/-- Every step of the run keeps the store right. -/
def KeepsAll (s : EchoedFlags D) : List (EchoStep D) → Prop
  | [] => True
  | st :: rest => s.Keeps st ∧ (s.step st).KeepsAll rest

/-- INTERNAL: a run goes on from where it was. -/
theorem run_append (s : EchoedFlags D) (xs ys : List (EchoStep D)) :
    s.run (xs ++ ys) = (s.run xs).run ys := List.foldl_append

/-- INTERNAL: a run keeps all if both its parts do. -/
theorem keepsAll_append (xs ys : List (EchoStep D)) (s : EchoedFlags D) :
    s.KeepsAll (xs ++ ys) ↔ s.KeepsAll xs ∧ (s.run xs).KeepsAll ys := by
  induction xs generalizing s with
  | nil => exact (iff_of_eq (true_and _)).symm
  | cons st rest ih =>
    show s.Keeps st ∧ (s.step st).KeepsAll (rest ++ ys) ↔ _
    rw [ih, ← and_assoc]
    rfl

/-- INTERNAL: **a run** whose steps keep the store right is consistent. -/
theorem run_consistent (steps : List (EchoStep D)) (s : EchoedFlags D) (last : D → Bool)
    (h : s.Consistent last) (hkeeps : s.KeepsAll steps) :
    (s.run steps).Consistent (lastEvents last steps) := by
  induction steps generalizing s last with
  | nil => exact h
  | cons st rest ih => exact ih (s.step st) _ (step_consistent s last h st hkeeps.1) hkeeps.2

/-- INTERNAL: echoes that are taken over leave the store as it is. -/
theorem run_merges (n : ℕ) (s : EchoedFlags D) :
    (s.run (List.replicate n .merge)).stored = s.stored ∧
      (s.run (List.replicate n .merge)).echoes = s.echoes.drop n := by
  induction n generalizing s with
  | zero => exact ⟨rfl, rfl⟩
  | succ n ih =>
    obtain ⟨hstored, hechoes⟩ := ih (s.step .merge)
    rw [List.replicate_succ]
    show (run (s.step .merge) _).stored = _ ∧ (run (s.step .merge) _).echoes = _
    rw [hstored, hechoes]
    unfold step
    dsimp only
    cases hs : s.echoes with
    | nil => exact ⟨rfl, by rw [hs, List.drop_nil, List.drop_nil]⟩
    | cons echo rest => exact ⟨rfl, rfl⟩

/-! ## Holder and store in step -/

/-- The last echo is what is stored; where none is on its way, the holder has it too. -/
structure Linked (s : EchoedFlags D) : Prop where
  echoed : ∀ echo, s.echoes.getLast? = some echo → echo = s.stored
  settled : s.echoes = [] → s.held = s.stored

/-- INTERNAL: an echo that is taken over keeps the two linked. -/
theorem Linked.merge (s : EchoedFlags D) (h : s.Linked) : (s.step .merge).Linked := by
  unfold step
  dsimp only
  cases hechoes : s.echoes with
  | nil => exact h
  | cons echo rest =>
    have hechoed := h.echoed
    rw [hechoes] at hechoed
    refine ⟨fun e he => hechoed e ?_, fun hrest => ?_⟩
    · rw [List.getLast?_cons, he]
      rfl
    · have hrest : rest = [] := hrest
      subst hrest
      exact hechoed echo rfl

/-- INTERNAL: after an event the flag is held as it was told. -/
theorem step_event_held (s : EchoedFlags D) (d : D) (v reached : Bool) :
    (s.step (.event d v reached)).held = Function.update s.held d v := by
  by_cases hsame : s.held d = v
  · rw [step_same s d v reached hsame, ← hsame, Function.update_eq_self]
  · cases reached with
    | true => rw [step_reported s d v hsame]
    | false => rw [step_lost s d v hsame]

/-- INTERNAL: **a report that reaches the store** links the two, whatever was before. -/
theorem reported_linked (s : EchoedFlags D) (d : D) (v : Bool) (h : s.held d ≠ v) :
    (s.step (.event d v true)).Linked ∧
      (s.step (.event d v true)).stored = (s.step (.event d v true)).held := by
  rw [step_reported s d v h]
  refine ⟨⟨fun e he => ?_, fun hnil => absurd hnil (by simp)⟩, rfl⟩
  rw [List.getLast?_concat, Option.some.injEq] at he
  exact he.symm

/-- INTERNAL: an event whose report reaches the store, where the two agree, keeps the store right
and leaves them agreed. -/
theorem step_agreed (s : EchoedFlags D) (d : D) (v : Bool) (h : s.held = s.stored) :
    s.Keeps (.event d v true) ∧
      (s.step (.event d v true)).held = (s.step (.event d v true)).stored := by
  refine ⟨⟨fun _ d' _ => congrFun h d', fun hsame => ?_⟩, ?_⟩
  · rw [← h]
    by_contra hne
    exact hsame ⟨hne, rfl⟩
  · by_cases hsame : s.held d = v
    · rw [step_same s d v true hsame]
      exact h
    · rw [step_reported s d v hsame]

end EchoedFlags

end OpenHes.Library
