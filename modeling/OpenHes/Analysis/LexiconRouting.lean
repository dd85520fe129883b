import OpenHes.Model.Dispatch
import Mathlib.Data.List.Induction

/-!
# Which object an address belongs to

An object owns its own address, and that address with one segment behind it, which is then the
datum selected. The search of `find_object` keeps the longest address of the owners so far and
the selector that goes with it.
-/

set_option autoImplicit false

namespace OpenHes.Analysis

open OpenHes.Library OpenHes.Model

variable {α : Type} {path : CStr} {so : ServiceObject α} {selector : Option CStr}
  {objs objs' : List (ServiceObject α)}

/-- Does the object own the address, with this selector? -/
def OwnsAddress (so : ServiceObject α) (path : CStr) : Option CStr → Prop
  | none => path = so.path
  | some segment => segment ≠ [] ∧ (47 : UInt8) ∉ segment ∧ path = so.path ++ 47 :: segment

/-- Is the object at place `i` the one with the longest address among the owners, and the first
of those with an address of that length? -/
structure LongestOwner (objs : List (ServiceObject α)) (path : CStr) (i : ℕ)
    (so : ServiceObject α) (selector : Option CStr) : Prop where
  place : objs[i]? = some so
  owns : OwnsAddress so path selector
  longest : ∀ other ∈ objs, ∀ s, OwnsAddress other path s →
    other.path.length ≤ so.path.length
  first : ∀ j other s, objs[j]? = some other → OwnsAddress other path s →
    other.path.length = so.path.length → i ≤ j

/-! ## Owners -/

/-- INTERNAL: a path is the owner's, with the selector behind a slash. -/
theorem OwnsAddress.split (h : OwnsAddress so path selector) :
    path = so.path ++ selector.elim [] (47 :: ·) := by
  cases selector with
  | none => exact h.trans (List.append_nil _).symm
  | some segment => exact h.2.2

/-- INTERNAL: the address and the owner tell the selector. -/
theorem OwnsAddress.selector_eq {s : Option CStr} (h : OwnsAddress so path selector)
    (hs : OwnsAddress so path s) : s = selector := by
  have htail := List.append_cancel_left (h.split.symm.trans hs.split)
  cases selector <;> cases s <;> simp_all

/-- INTERNAL: owners with addresses of one length have one address. -/
theorem OwnsAddress.path_eq {other : ServiceObject α} {s : Option CStr}
    (h : OwnsAddress so path selector) (hs : OwnsAddress other path s)
    (hlen : other.path.length = so.path.length) : other.path = so.path :=
  (List.append_inj (hs.split.symm.trans h.split) hlen).1

/-! ## One turn of the search -/

/-- INTERNAL: **an owner** is taken when its address is longer. -/
theorem considerObject_owner (h : OwnsAddress so path selector)
    (best : Option (ServiceObject α × Option CStr)) :
    considerObject path best so =
      match best with
      | none => some (so, selector)
      | some (b, _) => if b.path.length < so.path.length then some (so, selector) else best := by
  unfold considerObject
  cases selector with
  | none =>
    have hpath : path = so.path := h
    cases best with
    | none => simp [onBoundary, hpath]
    | some _ => simp [onBoundary, hpath]
  | some segment =>
    obtain ⟨hne, hslash, hpath⟩ := h
    have hstarts : so.path.isPrefixOf path = true := by simp [hpath]
    have hdrop : path.drop so.path.length = 47 :: segment := by simp [hpath]
    have hselector : path.drop (so.path.length + 1) = segment := by
      rw [← List.drop_drop, hdrop]
      rfl
    have hsegment : singleSegment segment = true := by
      simp [singleSegment, hne, hslash]
    have hlonger : so.path.length < path.length := by
      rw [hpath, List.length_append, List.length_cons]
      omega
    cases best with
    | none => simp [hstarts, onBoundary, hdrop, hselector, hsegment, hlonger]
    | some _ => simp [hstarts, onBoundary, hdrop, hselector, hsegment, hlonger]

/-- INTERNAL: **any other object** changes nothing. -/
theorem considerObject_other (h : ∀ s, ¬OwnsAddress so path s)
    (best : Option (ServiceObject α × Option CStr)) : considerObject path best so = best := by
  unfold considerObject
  split
  next htaken =>
    rw [Bool.and_eq_true, List.isPrefixOf_iff_prefix] at htaken
    obtain ⟨⟨tail, hpath⟩, hboundary⟩ := htaken
    subst hpath
    cases tail with
    | nil => exact absurd (List.append_nil so.path) (h none)
    | cons c segment =>
      have hc : c = 47 := by simpa [onBoundary] using hboundary
      subst hc
      have hselector : (so.path ++ 47 :: segment).drop (so.path.length + 1) = segment := by
        rw [← List.drop_drop, List.drop_left]
        rfl
      have hnot : singleSegment segment = false := by
        by_contra htrue
        rw [Bool.not_eq_false, singleSegment, Bool.and_eq_true] at htrue
        exact h (some segment) ⟨by simpa using htrue.1, by simpa using htrue.2, rfl⟩
      simp [hselector, hnot]
  · rfl

/-! ## The search -/

/-- What the search has found among the objects so far. -/
def Found (objs : List (ServiceObject α)) (path : CStr) :
    Option (ServiceObject α × Option CStr) → Prop
  | none => ∀ so ∈ objs, ∀ s, ¬OwnsAddress so path s
  | some (so, selector) => ∃ i, LongestOwner objs path i so selector

/-- INTERNAL: an owner stays the longest with one more that is not longer. -/
theorem LongestOwner.snoc {i : ℕ} (h : LongestOwner objs path i so selector)
    (last : ServiceObject α)
    (hlast : ∀ s, OwnsAddress last path s → last.path.length ≤ so.path.length) :
    LongestOwner (objs ++ [last]) path i so selector := by
  have hi : i < objs.length := (List.getElem?_eq_some_iff.mp h.place).1
  constructor
  · rw [List.getElem?_append_left hi]
    exact h.place
  · exact h.owns
  · intro other hother s hs
    rcases List.mem_append.mp hother with hmem | hmem
    · exact h.longest other hmem s hs
    · obtain rfl := List.mem_singleton.mp hmem
      exact hlast s hs
  · intro j other s hj hs hlen
    by_cases hjlt : j < objs.length
    · rw [List.getElem?_append_left hjlt] at hj
      exact h.first j other s hj hs hlen
    · omega

/-- INTERNAL: one that is longer than all is the longest from there on. -/
theorem longestOwner_snoc (last : ServiceObject α) (howns : OwnsAddress last path selector)
    (h : ∀ other ∈ objs, ∀ s, OwnsAddress other path s →
      other.path.length < last.path.length) :
    LongestOwner (objs ++ [last]) path objs.length last selector := by
  constructor
  · simp
  · exact howns
  · intro other hother s hs
    rcases List.mem_append.mp hother with hmem | hmem
    · exact Nat.le_of_lt (h other hmem s hs)
    · rw [List.mem_singleton.mp hmem]
  · intro j other s hj hs hlen
    by_contra hlt
    rw [List.getElem?_append_left (by omega)] at hj
    have := h other (List.mem_of_getElem? hj) s hs
    omega

/-- INTERNAL: **one more object.** -/
theorem Found.step {best : Option (ServiceObject α × Option CStr)} (h : Found objs path best)
    (last : ServiceObject α) : Found (objs ++ [last]) path (considerObject path best last) := by
  by_cases howns : ∃ s, OwnsAddress last path s
  · obtain ⟨selector, howns⟩ := howns
    rw [considerObject_owner howns]
    cases best with
    | none =>
      exact ⟨_, longestOwner_snoc last howns fun other hother s hs =>
        absurd hs (h other hother s)⟩
    | some found =>
      obtain ⟨so, sel⟩ := found
      obtain ⟨i, hi⟩ := h
      dsimp only
      split
      next hlonger =>
        exact ⟨_, longestOwner_snoc last howns fun other hother s hs =>
          Nat.lt_of_le_of_lt (hi.longest other hother s hs) hlonger⟩
      next hnot => exact ⟨i, hi.snoc last fun _ _ => Nat.le_of_not_lt hnot⟩
  · have hnone : ∀ s, ¬OwnsAddress last path s := fun s hs => howns ⟨s, hs⟩
    rw [considerObject_other hnone]
    cases best with
    | none =>
      intro other hother s
      rcases List.mem_append.mp hother with hmem | hmem
      · exact h other hmem s
      · rw [List.mem_singleton.mp hmem]
        exact hnone s
    | some found =>
      obtain ⟨so, sel⟩ := found
      obtain ⟨i, hi⟩ := h
      exact ⟨i, hi.snoc last fun s hs => absurd hs (hnone s)⟩

/-- INTERNAL: **the search** finds the longest owner, or none where there is none. -/
theorem found_findObject (objs : List (ServiceObject α)) (path : CStr) :
    Found objs path (findObject objs path) := by
  induction objs using List.reverseRecOn with
  | nil =>
    intro so hso
    exact absurd hso List.not_mem_nil
  | append_singleton objs last ih =>
    have hstep : findObject (objs ++ [last]) path =
        considerObject path (findObject objs path) last := by
      simp [findObject]
    rw [hstep]
    exact ih.step last

/-- INTERNAL: there is one longest owner. -/
theorem LongestOwner.unique {i j : ℕ} {other : ServiceObject α} {s : Option CStr}
    (h : LongestOwner objs path i so selector) (h' : LongestOwner objs path j other s) :
    other = so ∧ s = selector := by
  have hlen : other.path.length = so.path.length := Nat.le_antisymm
    (h.longest other (List.mem_of_getElem? h'.place) s h'.owns)
    (h'.longest so (List.mem_of_getElem? h.place) selector h.owns)
  have hij : i = j := Nat.le_antisymm (h.first j other s h'.place h'.owns hlen)
    (h'.first i so selector h.place h.owns hlen.symm)
  subst hij
  obtain rfl := Option.some.inj (h'.place.symm.trans h.place)
  exact ⟨rfl, h.owns.selector_eq h'.owns⟩

/-- INTERNAL: it finds an object if that is the longest owner. -/
theorem findObject_eq_some_iff :
    findObject objs path = some (so, selector) ↔
      ∃ i, LongestOwner objs path i so selector := by
  have hfound := found_findObject objs path
  constructor
  · intro h
    rw [h] at hfound
    exact hfound
  · rintro ⟨i, hi⟩
    cases hbest : findObject objs path with
    | none =>
      rw [hbest] at hfound
      exact absurd hi.owns (hfound so (List.mem_of_getElem? hi.place) selector)
    | some best =>
      obtain ⟨other, s⟩ := best
      rw [hbest] at hfound
      obtain ⟨j, hj⟩ := hfound
      obtain ⟨rfl, rfl⟩ := hi.unique hj
      rfl

/-- INTERNAL: it finds none if there is no owner. -/
theorem findObject_eq_none_iff :
    findObject objs path = none ↔ ∀ so ∈ objs, ∀ s, ¬OwnsAddress so path s := by
  have hfound := found_findObject objs path
  constructor
  · intro h
    rw [h] at hfound
    exact hfound
  · intro h
    cases hbest : findObject objs path with
    | none => rfl
    | some best =>
      obtain ⟨other, s⟩ := best
      rw [hbest] at hfound
      obtain ⟨j, hj⟩ := hfound
      exact absurd hj.owns (h other (List.mem_of_getElem? hj.place) s)

/-- INTERNAL: objects that do not own the address change nothing. -/
theorem foldl_others (h : ∀ so ∈ objs, ∀ s, ¬OwnsAddress so path s)
    (best : Option (ServiceObject α × Option CStr)) :
    objs.foldl (considerObject path) best = best := by
  induction objs with
  | nil => rfl
  | cons so objs ih =>
    rw [List.foldl_cons, considerObject_other (h so List.mem_cons_self)]
    exact ih fun other hother => h other (List.mem_cons_of_mem _ hother)

/-- INTERNAL: the only owner is found, wherever it stands. -/
theorem findObject_only_owner {front back : List (ServiceObject α)}
    (howns : OwnsAddress so path selector)
    (hfront : ∀ other ∈ front, ∀ s, ¬OwnsAddress other path s)
    (hback : ∀ other ∈ back, ∀ s, ¬OwnsAddress other path s) :
    findObject (front ++ so :: back) path = some (so, selector) := by
  unfold findObject
  rw [List.foldl_append, foldl_others hfront, List.foldl_cons, considerObject_owner howns]
  exact foldl_others hback _

/-- INTERNAL: **the order** of objects with different addresses does not matter. -/
theorem findObject_perm (hperm : objs.Perm objs') (hpaths : (objs.map (·.path)).Nodup) :
    findObject objs' path = findObject objs path := by
  cases hbest : findObject objs path with
  | none =>
    rw [findObject_eq_none_iff] at hbest ⊢
    exact fun so hso => hbest so (hperm.mem_iff.mpr hso)
  | some best =>
    obtain ⟨so, selector⟩ := best
    rw [findObject_eq_some_iff] at hbest ⊢
    obtain ⟨i, hi⟩ := hbest
    have hmem : so ∈ objs' := hperm.mem_iff.mp (List.mem_of_getElem? hi.place)
    obtain ⟨j, hj⟩ := List.getElem?_of_mem hmem
    have hpaths' : (objs'.map (·.path)).Nodup := (hperm.map _).nodup_iff.mp hpaths
    refine ⟨j, hj, hi.owns, fun other hother => ?_, fun k other s hk hs hlen => ?_⟩
    · exact hi.longest other (hperm.mem_iff.mpr hother)
    · have hpath := hi.owns.path_eq hs hlen
      have hjlt : j < (objs'.map (·.path)).length := by
        rw [List.length_map]
        exact (List.getElem?_eq_some_iff.mp hj).1
      have hjk : j = k := (List.getElem?_inj hjlt hpaths').mp (by
        rw [List.getElem?_map, List.getElem?_map, hj, hk, Option.map_some, Option.map_some, hpath])
      omega

/-- **Lexicon routing.** The search gives the owner with the longest address, the first one
among equals, with its selector; it gives none when nobody owns the address; and the order of
objects with different addresses does not matter.
SRCLINE: hes_dispatch.c:86-116 -/
theorem findObject_routes (objs : List (ServiceObject α)) (path : CStr) :
    (∀ so selector, findObject objs path = some (so, selector) ↔
      ∃ i, LongestOwner objs path i so selector) ∧
    (findObject objs path = none ↔ ∀ so ∈ objs, ∀ s, ¬OwnsAddress so path s) ∧
    ∀ objs', objs.Perm objs' → (objs.map (·.path)).Nodup →
      findObject objs' path = findObject objs path :=
  ⟨fun _ _ => findObject_eq_some_iff, findObject_eq_none_iff, fun _ hperm hpaths =>
    findObject_perm hperm hpaths⟩

/-- The identification service's capability and its values. -/
def nestedObjects : List (ServiceObject Unit) :=
  [{ path := lit "/lx/ob/so/id" }, { path := lit "/lx/ob/so/id/co" }]

/-- Nested addresses are routed alike in either order. -/
theorem findObject_routes_nested :
    findObject nestedObjects.reverse (lit "/lx/ob/so/id/co/pi") =
      findObject nestedObjects (lit "/lx/ob/so/id/co/pi") :=
  (findObject_routes nestedObjects (lit "/lx/ob/so/id/co/pi")).2.2 nestedObjects.reverse
    (List.reverse_perm nestedObjects).symm (by decide)

end OpenHes.Analysis
