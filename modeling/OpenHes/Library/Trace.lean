import Mathlib.Data.List.Basic

/-!
# Assertions on the events of a trace

`EveryEvent P evs` says that each event of a trace stands where `P` allows it, given
the events before it. The rules follow the trace as it grows.
-/

set_option autoImplicit false

namespace OpenHes.Library

variable {ε : Type}

/-- Every event of the trace satisfies `P` together with the events before it. -/
def EveryEvent (P : List ε → ε → Prop) (evs : List ε) : Prop :=
  ∀ pre e post, evs = pre ++ e :: post → P pre e

/-- INTERNAL: the empty trace has no event to check. -/
theorem everyEvent_nil (P : List ε → ε → Prop) : EveryEvent P [] := by
  intro pre e post h
  simp at h

/-- INTERNAL: the first event stands after nothing, the others after it. -/
theorem everyEvent_cons (P : List ε → ε → Prop) (a : ε) (evs : List ε) :
    EveryEvent P (a :: evs) ↔ P [] a ∧ EveryEvent (fun pre => P (a :: pre)) evs := by
  constructor
  · intro h
    refine ⟨h [] a evs rfl, ?_⟩
    rintro pre e post rfl
    exact h (a :: pre) e post rfl
  · rintro ⟨ha, hevs⟩ pre e post h
    cases pre with
    | nil =>
      obtain ⟨rfl, -⟩ := List.cons.inj h
      exact ha
    | cons b pre =>
      obtain ⟨rfl, rfl⟩ := List.cons.inj h
      exact hevs pre e post rfl

/-- INTERNAL: a trace in two parts; the second part stands after the first. -/
theorem everyEvent_append (P : List ε → ε → Prop) (first second : List ε) :
    EveryEvent P (first ++ second) ↔
      EveryEvent P first ∧ EveryEvent (fun pre => P (first ++ pre)) second := by
  induction first generalizing P with
  | nil => simp [everyEvent_nil]
  | cons a first ih => simp only [List.cons_append, everyEvent_cons, ih, and_assoc]

/-- INTERNAL: events that ask nothing of the events before them. -/
theorem everyEvent_of_forall (P : List ε → ε → Prop) (evs : List ε)
    (h : ∀ e ∈ evs, ∀ pre, P pre e) : EveryEvent P evs := by
  rintro pre e post rfl
  exact h e (by simp) pre

/-- INTERNAL: an assertion that earlier events cannot spoil holds in the longer trace. -/
theorem EveryEvent.append (P : List ε → ε → Prop) (hP : ∀ more pre e, P pre e → P (more ++ pre) e)
    (first second : List ε) (hfirst : EveryEvent P first) (hsecond : EveryEvent P second) :
    EveryEvent P (first ++ second) := by
  rw [everyEvent_append]
  exact ⟨hfirst, fun pre e post h => hP first pre e (hsecond pre e post h)⟩

/-! ## What stands behind an event -/

/-- Every event of the trace satisfies `P` together with the events behind it. -/
def EveryTail (P : ε → List ε → Prop) (evs : List ε) : Prop :=
  ∀ pre e post, evs = pre ++ e :: post → P e post

/-- INTERNAL: events that ask nothing of the events behind them. -/
theorem everyTail_of_forall (P : ε → List ε → Prop) (evs : List ε)
    (h : ∀ e ∈ evs, ∀ post, P e post) : EveryTail P evs := by
  rintro pre e post rfl
  exact h e (by simp) post

/-- INTERNAL: the first event stands in front of the others. -/
theorem everyTail_cons (P : ε → List ε → Prop) (a : ε) (evs : List ε) (ha : P a evs)
    (hevs : EveryTail P evs) : EveryTail P (a :: evs) := by
  intro pre e post h
  cases pre with
  | nil =>
    obtain ⟨rfl, rfl⟩ := List.cons.inj h
    exact ha
  | cons b pre => exact hevs pre e post (List.cons.inj h).2

/-- INTERNAL: an assertion that later events cannot spoil holds in the longer trace. -/
theorem EveryTail.append (P : ε → List ε → Prop) (hP : ∀ e post more, P e post → P e (post ++ more))
    (first second : List ε) (hfirst : EveryTail P first) (hsecond : EveryTail P second) :
    EveryTail P (first ++ second) := by
  induction first with
  | nil => exact hsecond
  | cons a first ih =>
    refine everyTail_cons P a _ (hP a first second (hfirst [] a first rfl)) (ih ?_)
    rintro pre e post rfl
    exact hfirst (a :: pre) e post rfl

/-- INTERNAL: the last event of a kind is one event. -/
theorem last_unique (p : ε → Prop) (pre pre' : List ε) (e e' : ε) (post post' : List ε)
    (h : pre ++ e :: post = pre' ++ e' :: post') (he : p e) (he' : p e') (hpost : ∀ x ∈ post, ¬ p x)
    (hpost' : ∀ x ∈ post', ¬ p x) : pre = pre' ∧ e = e' ∧ post = post' := by
  rcases List.append_eq_append_iff.mp h with ⟨mid, rfl, hmid⟩ | ⟨mid, rfl, hmid⟩
  · cases mid with
    | nil =>
      obtain ⟨rfl, rfl⟩ := List.cons.inj hmid
      exact ⟨(List.append_nil _).symm, rfl, rfl⟩
    | cons x mid =>
      obtain ⟨-, rfl⟩ := List.cons.inj hmid
      exact absurd he' (hpost e' (by simp))
  · cases mid with
    | nil =>
      obtain ⟨rfl, rfl⟩ := List.cons.inj hmid
      exact ⟨List.append_nil _, rfl, rfl⟩
    | cons x mid =>
      obtain ⟨-, rfl⟩ := List.cons.inj hmid
      exact absurd he (hpost' e (by simp))

end OpenHes.Library
