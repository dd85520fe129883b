import Mathlib.Data.List.Basic
import Mathlib.Order.Basic
import Mathlib.Tactic.Linarith

/-!
# A loop over rows whose body may start the loop again

A table of rows is run in order; the body of a row changes the state and may call
the whole loop again before it goes on. The nesting is bounded by the room left on
the call stack: `run body rows depth` either returns or finds no room left, and the
state it reached is there in both cases.

Four rules cover a loop of this kind:

* `run_rel`: a preorder every row respects is respected by the whole run, also by
  a run that finds no room left;
* `run_pass`: what a completed run establishes, row by row, with the rows still to come;
* `run_returns`: a measure that drops before every nested run bounds the room needed;
* `run_stuck`: states in which some row cannot finish without a nested run from
  another such state are states from which no run returns.

A fifth, `run_sideBySide`, is about two loops over the same rows: as long as their states
agree the loops go the same way, and once they are apart they stay apart.
-/

set_option autoImplicit false

namespace OpenHes.Library

/-- The result of a computation on a state: it returned, or it ran out of call stack. -/
inductive Outcome (σ : Type)
  | returned (s : σ)
  | overrun (s : σ)

namespace Outcome

variable {σ : Type}

/-- The state reached. -/
def state : Outcome σ → σ
  | returned s => s
  | overrun s => s

/-- Did it return? -/
def didReturn : Outcome σ → Bool
  | returned _ => true
  | overrun _ => false

/-- Goes on with `f` when the first computation returned. -/
def andThen (x : Outcome σ) (f : σ → Outcome σ) : Outcome σ :=
  match x with
  | returned s => f s
  | overrun s => overrun s

/-- Changes the state reached. -/
def map {τ : Type} (f : σ → τ) : Outcome σ → Outcome τ
  | returned s => .returned (f s)
  | overrun s => .overrun (f s)

/-- INTERNAL: the state of a run that returned. -/
@[simp] theorem state_returned (s : σ) : (returned s).state = s := rfl
/-- INTERNAL: the state of a run that did not. -/
@[simp] theorem state_overrun (s : σ) : (overrun s).state = s := rfl
/-- INTERNAL: what follows a run that returned goes on from its state. -/
@[simp] theorem andThen_returned (s : σ) (f : σ → Outcome σ) :
    (returned s).andThen f = f s := rfl
/-- INTERNAL: nothing follows a run that did not. -/
@[simp] theorem andThen_overrun (s : σ) (f : σ → Outcome σ) :
    (overrun s).andThen f = overrun s := rfl
/-- INTERNAL: mapping an outcome maps its state. -/
@[simp] theorem state_map {τ : Type} (f : σ → τ) (x : Outcome σ) :
    (x.map f).state = f x.state := by
  cases x <;> rfl

/-- INTERNAL: a computation that returned, returned the state it reached. -/
theorem eq_returned_state (x : Outcome σ) (h : x.didReturn = true) : x = returned x.state := by
  cases x with
  | returned s => rfl
  | overrun s => cases h

/-- INTERNAL: a sequence returned exactly when both its parts did. -/
theorem andThen_eq_returned (x : Outcome σ) (f : σ → Outcome σ) (u : σ) :
    x.andThen f = returned u ↔ ∃ t, x = returned t ∧ f t = returned u := by
  cases x <;> simp [andThen]

end Outcome

namespace ReentrantLoop

open Outcome

variable {σ ρ : Type}

/-- One pass: the rows in order, until one of them does not return. -/
def pass (f : ρ → σ → Outcome σ) : List ρ → σ → Outcome σ
  | [], s => returned s
  | r :: rest, s => (f r s).andThen (pass f rest)

/-- The loop over `rows`, with room for `depth` nested runs of it. -/
def run (body : (σ → Outcome σ) → ρ → σ → Outcome σ) (rows : List ρ) : ℕ → σ → Outcome σ
  | 0, s => overrun s
  | depth + 1, s => pass (body (run body rows depth)) rows s

/-! ## Rules for one pass -/

/-- INTERNAL: a pass respects a preorder that its rows respect. -/
theorem pass_rel (R : σ → σ → Prop) (refl : ∀ s, R s s)
    (trans : ∀ s t u, R s t → R t u → R s u) (f : ρ → σ → Outcome σ) (l : List ρ)
    (hf : ∀ r ∈ l, ∀ s, R s (f r s).state) (s : σ) : R s (pass f l s).state := by
  induction l generalizing s with
  | nil => exact refl s
  | cons r rest ih =>
    have hr := hf r (by simp) s
    unfold pass
    cases hout : f r s with
    | overrun t => simpa [hout] using hr
    | returned t =>
      have hrest := ih (fun r' h => hf r' (by simp [h])) t
      rw [hout] at hr
      exact trans s t _ hr hrest

/-- INTERNAL: a completed pass carries an assertion that names the rows still to come. -/
theorem pass_assert (J : List ρ → σ → Prop) (f : ρ → σ → Outcome σ) (l : List ρ)
    (hf : ∀ front r rest, l = front ++ r :: rest → ∀ s s', J (r :: rest) s →
      f r s = returned s' → J rest s') (s s' : σ) (hs : J l s)
    (hpass : pass f l s = returned s') : J [] s' := by
  induction l generalizing s with
  | nil =>
    simp only [pass, returned.injEq] at hpass
    exact hpass ▸ hs
  | cons r rest ih =>
    unfold pass at hpass
    obtain ⟨t, ht, hrest⟩ := (andThen_eq_returned _ _ _).mp hpass
    have hJ := hf [] r rest rfl s t hs ht
    exact ih (fun front r' rest' h => hf (r :: front) r' rest' (by simp [h])) t hJ hrest

/-- INTERNAL: a pass returns when each of its rows does, along an invariant and a
measure that never grows. -/
theorem pass_returns (Inv : σ → Prop) (μ : σ → ℕ) (n : ℕ) (f : ρ → σ → Outcome σ) (l : List ρ)
    (hf : ∀ r ∈ l, ∀ s, Inv s → μ s ≤ n → ∃ s', f r s = returned s' ∧ Inv s' ∧ μ s' ≤ μ s)
    (s : σ) (hs : Inv s) (hμ : μ s ≤ n) :
    ∃ s', pass f l s = returned s' ∧ Inv s' ∧ μ s' ≤ μ s := by
  induction l generalizing s with
  | nil => exact ⟨s, rfl, hs, le_rfl⟩
  | cons r rest ih =>
    obtain ⟨t, ht, hInv, hle⟩ := hf r (by simp) s hs hμ
    obtain ⟨u, hu, hInv', hle'⟩ :=
      ih (fun r' h => hf r' (by simp [h])) t hInv (hle.trans hμ)
    refine ⟨u, ?_, hInv', hle'.trans hle⟩
    simp [pass, ht, hu]

/-- INTERNAL: a pass over a table with a row that cannot return does not return. -/
theorem pass_stuck (Stuck : σ → Prop) (f : ρ → σ → Outcome σ) (l : List ρ) (bad : ρ)
    (hbad : bad ∈ l) (keep : ∀ r ∈ l, ∀ s s', Stuck s → f r s = returned s' → Stuck s')
    (loops : ∀ s s', Stuck s → f bad s ≠ returned s') (s s' : σ) (hs : Stuck s) :
    pass f l s ≠ returned s' := by
  induction l generalizing s with
  | nil => simp at hbad
  | cons r rest ih =>
    intro hpass
    unfold pass at hpass
    obtain ⟨t, ht, hrest⟩ := (andThen_eq_returned _ _ _).mp hpass
    rcases List.mem_cons.mp hbad with rfl | hmem
    · exact loops s t hs ht
    · exact ih hmem (fun r' h => keep r' (by simp [h])) t (keep r (by simp) s t hs ht) hrest

/-! ## Rules for the whole run -/

variable (body : (σ → Outcome σ) → ρ → σ → Outcome σ) (rows : List ρ)

/-- INTERNAL: **preorder rule.** If every row's body respects `R` whenever its nested
runs do, a run respects `R`, whether it returns or not. -/
theorem run_rel (R : σ → σ → Prop) (refl : ∀ s, R s s)
    (trans : ∀ s t u, R s t → R t u → R s u)
    (hbody : ∀ nested : σ → Outcome σ, (∀ s, R s (nested s).state) →
      ∀ r ∈ rows, ∀ s, R s (body nested r s).state) (depth : ℕ) (s : σ) :
    R s (run body rows depth s).state := by
  induction depth generalizing s with
  | zero => exact refl s
  | succ depth ih => exact pass_rel R refl trans _ rows (hbody _ ih) s

/-- INTERNAL: **completed-run rule.** `J s₀ rest s` says what holds of the state `s` of a pass
that began in `s₀`, with the rows `rest` still to come; a nested run that returned gives
its own `Post`. -/
theorem run_pass (Pre : σ → Prop) (Post : σ → σ → Prop) (J : σ → List ρ → σ → Prop)
    (start : ∀ s, Pre s → J s rows s) (finish : ∀ s₀ s, J s₀ [] s → Post s₀ s)
    (step : ∀ depth, (∀ s s', Pre s → run body rows depth s = returned s' → Post s s') →
      ∀ front r rest, rows = front ++ r :: rest → ∀ s₀ s s', J s₀ (r :: rest) s →
        body (run body rows depth) r s = returned s' → J s₀ rest s')
    (depth : ℕ) (s s' : σ) (hs : Pre s) (hrun : run body rows depth s = returned s') :
    Post s s' := by
  induction depth generalizing s s' with
  | zero => exact absurd hrun (by simp [run])
  | succ depth ih =>
    have hpass := pass_assert (J s) _ rows
      (fun front r rest hrows => step depth ih front r rest hrows s) s s' (start s hs) hrun
    exact finish s s' hpass

/-- INTERNAL: **measure rule.** If a row only starts nested runs in states of a smaller
measure, and no row raises the measure, a run returns as soon as there is room for
more nested runs than the measure says. -/
theorem run_returns (Inv : σ → Prop) (μ : σ → ℕ)
    (hbody : ∀ n, ∀ nested : σ → Outcome σ,
      (∀ s, Inv s → μ s < n → ∃ s', nested s = returned s' ∧ Inv s' ∧ μ s' ≤ μ s) →
      ∀ r ∈ rows, ∀ s, Inv s → μ s ≤ n →
        ∃ s', body nested r s = returned s' ∧ Inv s' ∧ μ s' ≤ μ s)
    (depth : ℕ) (s : σ) (hs : Inv s) (hμ : μ s < depth) :
    ∃ s', run body rows depth s = returned s' ∧ Inv s' ∧ μ s' ≤ μ s := by
  induction depth generalizing s with
  | zero => omega
  | succ depth ih =>
    exact pass_returns Inv μ depth _ rows (hbody depth _ ih) s hs (by omega)

/-- INTERNAL: **no-return rule.** If every row keeps `Stuck` when it returns, and one row
of the table cannot return from a `Stuck` state unless a nested run from a `Stuck`
state does, no run from a `Stuck` state returns. -/
theorem run_stuck (Stuck : σ → Prop) (bad : ρ) (hbad : bad ∈ rows)
    (keep : ∀ nested : σ → Outcome σ, (∀ s s', Stuck s → nested s ≠ returned s') →
      ∀ r ∈ rows, ∀ s s', Stuck s → body nested r s = returned s' → Stuck s')
    (loops : ∀ nested : σ → Outcome σ, (∀ s s', Stuck s → nested s ≠ returned s') →
      ∀ s s', Stuck s → body nested bad s ≠ returned s')
    (depth : ℕ) (s s' : σ) (hs : Stuck s) : run body rows depth s ≠ returned s' := by
  induction depth generalizing s s' with
  | zero => simp [run]
  | succ depth ih =>
    exact pass_stuck Stuck _ rows bad hbad (keep _ ih) (loops _ ih) s s' hs

/-! ## Two runs side by side -/

/-- Two computations are apart, or agree in their states and in whether they returned. -/
def SideBySide (R D : σ → σ → Prop) (x y : Outcome σ) : Prop :=
  D x.state y.state ∨ R x.state y.state ∧ x.didReturn = y.didReturn

section SideBySide

variable (E R D : σ → σ → Prop) (refl : ∀ s, E s s) (trans : ∀ s t u, E s t → E t u → E s u)
  (keep : ∀ s t s' t', D s t → E s s' → E t t' → D s' t')

include refl keep in
/-- INTERNAL: two sequences run side by side when their parts do, and the second parts only
take their states further along `E`, which no two states that are apart get together by. -/
theorem andThen_sideBySide (x y : Outcome σ) (f g : σ → Outcome σ) (hxy : SideBySide R D x y)
    (hf : ∀ s, E s (f s).state) (hg : ∀ t, E t (g t).state)
    (hfg : ∀ s t, R s t → SideBySide R D (f s) (g t)) :
    SideBySide R D (x.andThen f) (y.andThen g) := by
  have hx : E x.state (x.andThen f).state := by
    cases x with
    | returned s => exact hf s
    | overrun s => exact refl s
  have hy : E y.state (y.andThen g).state := by
    cases y with
    | returned t => exact hg t
    | overrun t => exact refl t
  rcases hxy with hD | ⟨hR, hret⟩
  · exact Or.inl (keep _ _ _ _ hD hx hy)
  · cases x with
    | returned s =>
      cases y with
      | returned t => exact hfg s t hR
      | overrun t => cases hret
    | overrun s =>
      cases y with
      | returned t => cases hret
      | overrun t => exact Or.inr ⟨hR, rfl⟩

include refl trans keep in
/-- INTERNAL: two passes over the same rows. -/
theorem pass_sideBySide (f g : ρ → σ → Outcome σ) (l : List ρ)
    (hf : ∀ r ∈ l, ∀ s, E s (f r s).state) (hg : ∀ r ∈ l, ∀ t, E t (g r t).state)
    (hfg : ∀ r ∈ l, ∀ s t, R s t → SideBySide R D (f r s) (g r t)) (s t : σ) (hR : R s t) :
    SideBySide R D (pass f l s) (pass g l t) := by
  induction l generalizing s t with
  | nil => exact Or.inr ⟨hR, rfl⟩
  | cons r rest ih =>
    have hf' : ∀ r' ∈ rest, ∀ s, E s (f r' s).state := fun r' h => hf r' (by simp [h])
    have hg' : ∀ r' ∈ rest, ∀ t, E t (g r' t).state := fun r' h => hg r' (by simp [h])
    unfold pass
    apply andThen_sideBySide E R D refl keep
    · exact hfg r (by simp) s t hR
    · exact pass_rel E refl trans f rest hf'
    · exact pass_rel E refl trans g rest hg'
    · exact ih hf' hg' fun r' h => hfg r' (by simp [h])

include refl trans keep in
/-- INTERNAL: **two-run rule.** Two loops over the same rows run side by side when their
bodies do, given nested runs that do. -/
theorem run_sideBySide (body' : (σ → Outcome σ) → ρ → σ → Outcome σ)
    (hE : ∀ nested : σ → Outcome σ, (∀ s, E s (nested s).state) →
      ∀ r ∈ rows, ∀ s, E s (body nested r s).state)
    (hE' : ∀ nested : σ → Outcome σ, (∀ s, E s (nested s).state) →
      ∀ r ∈ rows, ∀ s, E s (body' nested r s).state)
    (hbody : ∀ nested nested' : σ → Outcome σ, (∀ s, E s (nested s).state) →
      (∀ s, E s (nested' s).state) → (∀ s t, R s t → SideBySide R D (nested s) (nested' t)) →
      ∀ r ∈ rows, ∀ s t, R s t → SideBySide R D (body nested r s) (body' nested' r t))
    (depth : ℕ) (s t : σ) (hR : R s t) :
    SideBySide R D (run body rows depth s) (run body' rows depth t) := by
  induction depth generalizing s t with
  | zero => exact Or.inr ⟨hR, rfl⟩
  | succ depth ih =>
    have hnested := run_rel body rows E refl trans hE depth
    have hnested' := run_rel body' rows E refl trans hE' depth
    apply pass_sideBySide E R D refl trans keep
    · exact hE _ hnested
    · exact hE' _ hnested'
    · exact hbody _ _ hnested hnested' ih
    · exact hR

end SideBySide

end ReentrantLoop

end OpenHes.Library
