import Mathlib.Data.List.Forall2

/-!
# A channel that loses

What goes into the channel comes out of it in its order. Some of it may be lost on the way, but
nothing is made up, doubled or overtaken. What comes out may look different from what went in, as a
decoded message does; `R` tells what may come out for what went in.
-/

set_option autoImplicit false

namespace OpenHes.Library

open List

variable {α β : Type} {R : β → α → Prop}

/-- What was taken, and what is on its way behind it, is some of what was sent, in its order. -/
def Carried (R : β → α → Prop) (sent : List α) (flight got : List β) : Prop :=
  SublistForall₂ R (got ++ flight) sent

/-- INTERNAL: what comes through of two parts comes through of the whole. -/
theorem sublistForall₂_append {xs ys : List β} {as bs : List α} (h : SublistForall₂ R xs as)
    (h' : SublistForall₂ R ys bs) : SublistForall₂ R (xs ++ ys) (as ++ bs) := by
  obtain ⟨first, hfirst, hsub⟩ := sublistForall₂_iff.mp h
  obtain ⟨second, hsecond, hsub'⟩ := sublistForall₂_iff.mp h'
  exact sublistForall₂_iff.mpr
    ⟨first ++ second, List.rel_append hfirst hsecond, hsub.append hsub'⟩

/-- INTERNAL: less than what comes through comes through, too. -/
theorem SublistForall₂.of_sublist {xs ys : List β} {as : List α} (h : SublistForall₂ R ys as)
    (hsub : xs <+ ys) : SublistForall₂ R xs as := by
  induction h generalizing xs with
  | nil =>
    rw [List.sublist_nil.mp hsub]
    exact .nil
  | cons hhead _ ih =>
    cases hsub with
    | cons _ hsub => exact .cons_right (ih hsub)
    | cons_cons _ hsub => exact .cons hhead (ih hsub)
  | cons_right _ ih => exact .cons_right (ih hsub)

/-- INTERNAL: nothing was sent. -/
theorem carried_nil : Carried R [] [] [] := .nil

/-- INTERNAL: **more is sent**, some of which goes on its way. -/
theorem Carried.send {sent : List α} {flight got : List β} (h : Carried R sent flight got)
    {more : List α} {frames : List β} (hmore : SublistForall₂ R frames more) :
    Carried R (sent ++ more) (flight ++ frames) got := by
  unfold Carried
  rw [← List.append_assoc]
  exact sublistForall₂_append h hmore

/-- INTERNAL: **some is lost** on the way. -/
theorem Carried.lose {sent : List α} {flight got flight' : List β} (h : Carried R sent flight got)
    (hsub : flight' <+ flight) : Carried R sent flight' got :=
  SublistForall₂.of_sublist h ((List.Sublist.refl got).append hsub)

/-- INTERNAL: **the next is taken**. -/
theorem Carried.take {sent : List α} {b : β} {flight got : List β}
    (h : Carried R sent (b :: flight) got) : Carried R sent flight (got ++ [b]) := by
  unfold Carried
  rw [List.append_assoc]
  exact h

/-- INTERNAL: **what was taken** is some of what was sent, in its order. -/
theorem Carried.got {sent : List α} {flight got : List β} (h : Carried R sent flight got) :
    SublistForall₂ R got sent :=
  SublistForall₂.of_sublist h (List.sublist_append_left _ _)

/-- INTERNAL: each that was taken was sent. -/
theorem Carried.origin {sent : List α} {flight got : List β} (h : Carried R sent flight got)
    {b : β} (hb : b ∈ got) : ∃ a ∈ sent, R b a := by
  obtain ⟨some, hsome, hsub⟩ := sublistForall₂_iff.mp h.got
  obtain ⟨i, hi, rfl⟩ := List.mem_iff_getElem.mp hb
  have hi' : i < some.length := hsome.length_eq ▸ hi
  exact ⟨some[i], hsub.subset (List.getElem_mem hi'), hsome.get hi hi'⟩

end OpenHes.Library
