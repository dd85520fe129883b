import Mathlib.Data.Int.Order.Basic
import Mathlib.Data.List.Nodup

/-!
# Watched flags and the history of their changes

A watcher goes over its members again and again, and tells each change of a member's flag as it
sees it. `History gap h b` says that `h` tells a flag that was false at first and is `b` now: each
change and nothing else, with at least `gap` between a fall and the rise behind it. `Told` says
so of every member, and holds through any number of passes whose turns tell what they change.
-/

set_option autoImplicit false

namespace OpenHes.Library

/-! ## The history of one flag -/

/-- The changes of a flag that was false at first, with the times they were told at. -/
inductive History (gap : ℤ) : List (ℤ × Bool) → Bool → Prop
  | start : History gap [] false
  | rise (h : List (ℤ × Bool)) (now : ℤ) (past : History gap h false)
      (waited : ∀ t, h.getLast? = some (t, false) → t + gap ≤ now) :
      History gap (h ++ [(now, true)]) true
  | fall (h : List (ℤ × Bool)) (now : ℤ) (past : History gap h true) :
      History gap (h ++ [(now, false)]) false

namespace History

variable {gap : ℤ} {h : List (ℤ × Bool)} {b : Bool}

/-- INTERNAL: the flag is what was told last. -/
theorem last (hist : History gap h b) : (h.getLast?.map Prod.snd).getD false = b := by
  cases hist with
  | start => rfl
  | rise h now past waited => rw [List.getLast?_concat, Option.map_some, Option.getD_some]
  | fall h now past => rw [List.getLast?_concat, Option.map_some, Option.getD_some]

/-- INTERNAL: a flag is up after an odd number of changes. -/
theorem parity (hist : History gap h b) : b = decide (h.length % 2 = 1) := by
  induction hist with
  | start => rfl
  | rise h now past waited ih =>
    rw [List.length_append, List.length_singleton, eq_comm, decide_eq_true_iff]
    have heven : ¬ h.length % 2 = 1 := of_decide_eq_false ih.symm
    omega
  | fall h now past ih =>
    rw [List.length_append, List.length_singleton, eq_comm, decide_eq_false_iff_not]
    have hodd : h.length % 2 = 1 := of_decide_eq_true ih.symm
    omega

/-- INTERNAL: an entry of a list with one more at its end. -/
theorem getElem?_snoc {α : Type} (l : List α) (a e : α) (i : ℕ) (h : (l ++ [a])[i]? = some e) :
    l[i]? = some e ∨ i = l.length ∧ a = e := by
  by_cases hi : i < l.length
  · left
    rw [List.getElem?_append_left hi] at h
    exact h
  · right
    rw [List.getElem?_append_right (Nat.le_of_not_lt hi)] at h
    obtain ⟨hlt, heq⟩ := List.getElem?_eq_some_iff.mp h
    rw [List.length_singleton] at hlt
    have hlen : i = l.length := by omega
    subst hlen
    simp only [Nat.sub_self, List.getElem_cons_zero] at heq
    exact ⟨rfl, heq⟩

/-- INTERNAL: **the changes alternate**, from a rise on. -/
theorem alternates (hist : History gap h b) (i : ℕ) (e : ℤ × Bool) (he : h[i]? = some e) :
    e.2 = decide (i % 2 = 0) := by
  induction hist generalizing i e with
  | start => simp at he
  | rise h now past waited ih =>
    rcases getElem?_snoc _ _ _ _ he with hold | ⟨rfl, rfl⟩
    · exact ih i e hold
    · have heven : ¬ h.length % 2 = 1 := of_decide_eq_false past.parity.symm
      rw [eq_comm, decide_eq_true_iff]
      omega
  | fall h now past ih =>
    rcases getElem?_snoc _ _ _ _ he with hold | ⟨rfl, rfl⟩
    · exact ih i e hold
    · have hodd : h.length % 2 = 1 := of_decide_eq_true past.parity.symm
      rw [eq_comm, decide_eq_false_iff_not]
      omega

/-- INTERNAL: **a rise keeps its distance** from the fall before it. -/
theorem spaced (hist : History gap h b) (i : ℕ) (t t' : ℤ) (hfall : h[i]? = some (t, false))
    (hrise : h[i + 1]? = some (t', true)) : t + gap ≤ t' := by
  induction hist with
  | start => simp at hfall
  | rise h now past waited ih =>
    have hlt : i < h.length := by
      obtain ⟨hlt, -⟩ := List.getElem?_eq_some_iff.mp hrise
      rw [List.length_append, List.length_singleton] at hlt
      omega
    rw [List.getElem?_append_left hlt] at hfall
    rcases getElem?_snoc _ _ _ _ hrise with hold | ⟨hlen, heq⟩
    · exact ih hfall hold
    · obtain ⟨rfl, -⟩ := Prod.mk.inj heq
      apply waited
      rw [List.getLast?_eq_getElem?, ← hlen]
      exact hfall
  | fall h now past ih =>
    rcases getElem?_snoc _ _ _ _ hrise with hold | ⟨-, heq⟩
    · have hlt : i < h.length := by
        obtain ⟨hlt, -⟩ := List.getElem?_eq_some_iff.mp hold
        omega
      rw [List.getElem?_append_left hlt] at hfall
      exact ih hfall hold
    · exact absurd (congrArg Prod.snd heq) Bool.false_ne_true

end History

/-! ## The members of a watcher -/

variable {D E κ : Type}

/-- What a watcher knows of a member, and what it tells. `ready` is the time before which a
member that is down does not rise. -/
structure Watch (D E κ : Type) where
  key : D → κ
  up : D → Bool
  ready : D → ℤ
  about : E → κ
  value : E → Bool

namespace Watch

variable (w : Watch D E κ) (gap now : ℤ)

/-- A turn tells the change of its member, if there is one. -/
structure Turn (d d' : D) (ev : Option E) : Prop where
  key : w.key d' = w.key d
  about : ∀ e, ev = some e → w.about e = w.key d
  silent : ev = none → w.up d' = w.up d
  told : ∀ e, ev = some e → w.value e = !w.up d ∧ w.up d' = w.value e
  early : w.up d = false → w.up d' = true → w.ready d ≤ now
  waits : w.up d = false → w.up d' = false → w.ready d ≤ w.ready d'
  loss : w.up d = true → w.up d' = false → now + gap ≤ w.ready d'

/-- A pass: a turn of each member. -/
inductive Pass : List D → List D → List E → Prop
  | nil : Pass [] [] []
  | cons (d d' : D) (ev : Option E) (ds ds' : List D) (evs : List E)
      (turn : w.Turn gap now d d' ev) (rest : Pass ds ds' evs) :
      Pass (d :: ds) (d' :: ds') (ev.toList ++ evs)

variable {w gap now}

/-- INTERNAL: a member that stays down. -/
theorem Turn.rest (d d' : D) (hkey : w.key d' = w.key d) (hdown : w.up d = false)
    (hdown' : w.up d' = false) (hready : w.ready d ≤ w.ready d') : w.Turn gap now d d' none where
  key := hkey
  about := fun _ he => by cases he
  silent := fun _ => hdown'.trans hdown.symm
  told := fun _ he => by cases he
  early := fun _ hup => absurd (hup.symm.trans hdown') Bool.true_eq_false.mp
  waits := fun _ _ => hready
  loss := fun hup _ => absurd (hup.symm.trans hdown) Bool.true_eq_false.mp

/-- INTERNAL: a member that stays up. -/
theorem Turn.keep (d d' : D) (hkey : w.key d' = w.key d) (hup : w.up d = true)
    (hup' : w.up d' = true) : w.Turn gap now d d' none where
  key := hkey
  about := fun _ he => by cases he
  silent := fun _ => hup'.trans hup.symm
  told := fun _ he => by cases he
  early := fun hdown _ => absurd (hup.symm.trans hdown) Bool.true_eq_false.mp
  waits := fun hdown _ => absurd (hup.symm.trans hdown) Bool.true_eq_false.mp
  loss := fun _ hdown => absurd (hup'.symm.trans hdown) Bool.true_eq_false.mp

/-- INTERNAL: a member that rises, told by an event. -/
theorem Turn.rise (d d' : D) (e : E) (hkey : w.key d' = w.key d) (hdown : w.up d = false)
    (hup : w.up d' = true) (hready : w.ready d ≤ now) (habout : w.about e = w.key d)
    (hvalue : w.value e = true) : w.Turn gap now d d' (some e) where
  key := hkey
  about := fun _ he => Option.some.inj he ▸ habout
  silent := fun hnone => by cases hnone
  told := fun _ he => by
    rw [← Option.some.inj he, hvalue, hdown, hup]
    exact ⟨rfl, rfl⟩
  early := fun _ _ => hready
  waits := fun _ hdown' => absurd (hup.symm.trans hdown') Bool.true_eq_false.mp
  loss := fun hup' _ => absurd (hup'.symm.trans hdown) Bool.true_eq_false.mp

/-- INTERNAL: a member that falls, told by an event. -/
theorem Turn.fall (d d' : D) (e : E) (hkey : w.key d' = w.key d) (hup : w.up d = true)
    (hdown : w.up d' = false) (hready : now + gap ≤ w.ready d') (habout : w.about e = w.key d)
    (hvalue : w.value e = false) : w.Turn gap now d d' (some e) where
  key := hkey
  about := fun _ he => Option.some.inj he ▸ habout
  silent := fun hnone => by cases hnone
  told := fun _ he => by
    rw [← Option.some.inj he, hvalue, hup, hdown]
    exact ⟨rfl, rfl⟩
  early := fun hdown' _ => absurd (hup.symm.trans hdown') Bool.true_eq_false.mp
  waits := fun hdown' _ => absurd (hup.symm.trans hdown') Bool.true_eq_false.mp
  loss := fun _ _ => hready

/-- INTERNAL: a turn that leaves its member alone. -/
theorem Turn.refl (d : D) : w.Turn gap now d d none := by
  cases hup : w.up d with
  | true => exact .keep d d rfl hup hup
  | false => exact .rest d d rfl hup hup (le_refl _)

/-- INTERNAL: a turn that goes on from a member with no earlier time to rise. -/
theorem Turn.of_le (d d₁ d' : D) (ev : Option E) (hkey : w.key d₁ = w.key d)
    (hup : w.up d₁ = w.up d) (hready : w.ready d ≤ w.ready d₁)
    (h : w.Turn gap now d₁ d' ev) : w.Turn gap now d d' ev where
  key := hkey ▸ h.key
  about := hkey ▸ h.about
  silent := hup ▸ h.silent
  told := hup ▸ h.told
  early := fun hdown hup' => le_trans hready (h.early (hup.trans hdown) hup')
  waits := fun hdown hdown' => le_trans hready (h.waits (hup.trans hdown) hdown')
  loss := hup ▸ h.loss

/-- INTERNAL: a pass keeps the members. -/
theorem Pass.keys {ds ds' : List D} {evs : List E} (h : w.Pass gap now ds ds' evs) :
    ds'.map w.key = ds.map w.key := by
  induction h with
  | nil => rfl
  | cons d d' ev ds ds' evs turn rest ih => rw [List.map_cons, List.map_cons, turn.key, ih]

/-- INTERNAL: the events of a pass are about its members. -/
theorem Pass.about {ds ds' : List D} {evs : List E} (h : w.Pass gap now ds ds' evs) :
    ∀ e ∈ evs, w.about e ∈ ds.map w.key := by
  induction h with
  | nil => simp
  | cons d d' ev ds ds' evs turn rest ih =>
    intro e he
    rw [List.map_cons, List.mem_cons]
    rcases List.mem_append.mp he with he | he
    · exact Or.inl (turn.about e (Option.mem_toList.mp he))
    · exact Or.inr (ih e he)

/-- INTERNAL: a pass has at most one event of each member. -/
theorem Pass.length {ds ds' : List D} {evs : List E} (h : w.Pass gap now ds ds' evs) :
    evs.length ≤ ds.length := by
  induction h with
  | nil => exact Nat.le_refl 0
  | cons d d' ev ds ds' evs turn rest ih =>
    have hev : ev.toList.length ≤ 1 := by cases ev <;> simp
    rw [List.length_append, List.length_cons]
    omega

/-- What the watcher sees of a member. -/
def view (w : Watch D E κ) (d : D) : κ × Bool × ℤ := (w.key d, w.up d, w.ready d)

/-- INTERNAL: what the watcher does not see makes no difference to a pass. -/
theorem Pass.of_view {ds ds₁ ds' : List D} {evs : List E} (hview : ds₁.map w.view = ds.map w.view)
    (h : w.Pass gap now ds₁ ds' evs) : w.Pass gap now ds ds' evs := by
  induction h generalizing ds with
  | nil =>
    rw [List.map_nil, eq_comm, List.map_eq_nil_iff] at hview
    rw [hview]
    exact .nil
  | cons d₁ d' ev ds₁ ds' evs turn rest ih =>
    cases ds with
    | nil => cases hview
    | cons d ds =>
      rw [List.map_cons, List.map_cons, List.cons.injEq] at hview
      obtain ⟨hhead, htail⟩ := hview
      obtain ⟨hkey, hrest⟩ := Prod.mk.inj hhead
      obtain ⟨hup, hready⟩ := Prod.mk.inj hrest
      exact .cons d d' ev ds ds' evs (turn.of_le d d₁ d' ev hkey hup (le_of_eq hready.symm)) (ih htail)

/-- INTERNAL: a pass that leaves its members alone. -/
theorem Pass.refl (ds : List D) : w.Pass gap now ds ds [] := by
  induction ds with
  | nil => exact .nil
  | cons d ds ih => exact .cons d d none ds ds [] (.refl d) ih

variable [DecidableEq κ]

section

variable (w gap)

/-- What has been told of a member. -/
def historyOf (k : κ) (log : List (ℤ × E)) : List (ℤ × Bool) :=
  (log.filter fun e => w.about e.2 = k).map fun e => (e.1, w.value e.2)

/-- The flag of a member; false where there is none. -/
def upAt (members : List D) (k : κ) : Bool :=
  ((members.find? fun d => w.key d = k).map w.up).getD false

/-- The log tells the history of each member, and of nobody else. -/
structure Told (members : List D) (log : List (ℤ × E)) : Prop where
  distinct : (members.map w.key).Nodup
  about : ∀ e ∈ log, w.about e.2 ∈ members.map w.key
  history : ∀ k, History gap (w.historyOf k log) (w.upAt members k)
  waiting : ∀ d ∈ members, ∀ t, (w.historyOf (w.key d) log).getLast? = some (t, false) →
    t + gap ≤ w.ready d

end

/-- INTERNAL: the history of a member is taken piece by piece. -/
theorem historyOf_append (k : κ) (log more : List (ℤ × E)) :
    w.historyOf k (log ++ more) = w.historyOf k log ++ w.historyOf k more := by
  unfold historyOf
  rw [List.filter_append, List.map_append]

/-- INTERNAL: the history of events of one moment is that of the events about the member. -/
theorem historyOf_stamped (k : κ) (evs : List E) :
    w.historyOf k (evs.map fun e => (now, e)) =
      (evs.filter fun e => w.about e = k).map fun e => (now, w.value e) := by
  unfold historyOf
  rw [List.filter_map, List.map_map]
  rfl

/-- INTERNAL: what is no member is not up. -/
theorem upAt_absent (members : List D) (k : κ) (h : k ∉ members.map w.key) :
    w.upAt members k = false := by
  have hnone : members.find? (fun d => w.key d = k) = none := by
    rw [List.find?_eq_none]
    intro d hd hk
    exact h (List.mem_map.mpr ⟨d, hd, of_decide_eq_true hk⟩)
  unfold upAt
  rw [hnone]
  rfl

/-- INTERNAL: a member is found by its key. -/
theorem find_member (members : List D) (hnodup : (members.map w.key).Nodup) (d : D)
    (hd : d ∈ members) : members.find? (fun x => w.key x = w.key d) = some d := by
  induction members with
  | nil => simp at hd
  | cons x rest ih =>
    rw [List.map_cons, List.nodup_cons] at hnodup
    rw [List.find?_cons]
    rcases List.mem_cons.mp hd with rfl | hd
    · rw [decide_eq_true rfl]
    · have hne : w.key x ≠ w.key d := fun h =>
        hnodup.1 (h ▸ List.mem_map.mpr ⟨d, hd, rfl⟩)
      rw [decide_eq_false hne]
      exact ih hnodup.2 hd

/-- INTERNAL: a member is up by its own state. -/
theorem upAt_member (members : List D) (hnodup : (members.map w.key).Nodup) (d : D)
    (hd : d ∈ members) : w.upAt members (w.key d) = w.up d := by
  unfold upAt
  rw [find_member members hnodup d hd]
  rfl

/-- INTERNAL: no event is about what is no member. -/
theorem filter_about_absent (evs : List E) (k : κ) (keys : List κ)
    (habout : ∀ e ∈ evs, w.about e ∈ keys) (hk : k ∉ keys) :
    evs.filter (fun e => w.about e = k) = [] := by
  rw [List.filter_eq_nil_iff]
  intro e he heq
  exact hk (of_decide_eq_true heq ▸ habout e he)

/-- INTERNAL: each member behind a pass comes from its turn, and the events about it are the one
of that turn. -/
theorem Pass.turn {ds ds' : List D} {evs : List E} (h : w.Pass gap now ds ds' evs)
    (hnodup : (ds.map w.key).Nodup) (d' : D) (hd' : d' ∈ ds') :
    ∃ d ∈ ds, ∃ ev, w.Turn gap now d d' ev ∧
      evs.filter (fun e => w.about e = w.key d') = ev.toList := by
  induction h with
  | nil => simp at hd'
  | cons d x ev ds ds' evs turn rest ih =>
    rw [List.map_cons, List.nodup_cons] at hnodup
    rw [List.filter_append]
    rcases List.mem_cons.mp hd' with rfl | hd'
    · refine ⟨d, List.mem_cons_self, ev, turn, ?_⟩
      have hself : ev.toList.filter (fun e => w.about e = w.key d') = ev.toList := by
        rw [List.filter_eq_self]
        intro e he
        rw [turn.key]
        exact decide_eq_true (turn.about e (Option.mem_toList.mp he))
      rw [hself, turn.key, filter_about_absent evs _ _ rest.about hnodup.1, List.append_nil]
    · obtain ⟨d₀, hd₀, ev₀, turn₀, hevs⟩ := ih hnodup.2 hd'
      refine ⟨d₀, List.mem_cons_of_mem _ hd₀, ev₀, turn₀, ?_⟩
      have hother : ev.toList.filter (fun e => w.about e = w.key d') = [] := by
        rw [List.filter_eq_nil_iff]
        intro e he heq
        apply hnodup.1
        rw [← turn.about e (Option.mem_toList.mp he), of_decide_eq_true heq, turn₀.key]
        exact List.mem_map.mpr ⟨d₀, hd₀, rfl⟩
      rw [hother, hevs, List.nil_append]

/-- INTERNAL: nobody is watched at first. -/
theorem told_nil : w.Told gap [] [] where
  distinct := List.nodup_nil
  about := fun _ he => absurd he List.not_mem_nil
  history := fun _ => .start
  waiting := fun _ hd => absurd hd List.not_mem_nil

/-- INTERNAL: a new member is down. -/
theorem Told.add (members : List D) (log : List (ℤ × E)) (h : w.Told gap members log) (d : D)
    (hnew : w.key d ∉ members.map w.key) (hdown : w.up d = false) :
    w.Told gap (members ++ [d]) log := by
  have hsilent : w.historyOf (w.key d) log = [] := by
    unfold historyOf
    rw [List.map_eq_nil_iff, List.filter_eq_nil_iff]
    intro e he heq
    exact hnew (of_decide_eq_true heq ▸ h.about e he)
  refine ⟨?_, fun e he => ?_, fun k => ?_, fun x hx t hlast => ?_⟩
  · rw [List.map_append, List.map_singleton]
    exact h.distinct.append (List.nodup_singleton _)
      (List.disjoint_singleton.mpr hnew)
  · rw [List.map_append]
    exact List.mem_append_left _ (h.about e he)
  · have hflag : w.upAt (members ++ [d]) k = w.upAt members k := by
      unfold upAt
      rw [List.find?_append]
      cases hfind : members.find? fun x => w.key x = k with
      | some x => rfl
      | none =>
        rw [Option.none_or, List.find?_cons]
        by_cases hk : w.key d = k
        · rw [decide_eq_true hk]
          simp only [Option.map_some, Option.getD_some, Option.map_none, Option.getD_none]
          exact hdown
        · rw [decide_eq_false hk]
          rfl
    rw [hflag]
    exact h.history k
  · rcases List.mem_append.mp hx with hx | hx
    · exact h.waiting x hx t hlast
    · rw [List.mem_singleton.mp hx, hsilent] at hlast
      simp at hlast

/-- INTERNAL: **a pass keeps the log right**. -/
theorem Told.pass (members members' : List D) (log : List (ℤ × E)) (evs : List E)
    (h : w.Told gap members log) (hpass : w.Pass gap now members members' evs) :
    w.Told gap members' (log ++ evs.map fun e => (now, e)) := by
  have hkeys := hpass.keys
  have hdistinct : (members'.map w.key).Nodup := hkeys ▸ h.distinct
  -- What the pass makes of a member, told by what its turn did.
  have hmember : ∀ d' ∈ members',
      History gap (w.historyOf (w.key d') (log ++ evs.map fun e => (now, e))) (w.up d') ∧
      ∀ t, (w.historyOf (w.key d') (log ++ evs.map fun e => (now, e))).getLast? =
        some (t, false) → t + gap ≤ w.ready d' := by
    intro d' hd'
    obtain ⟨d, hd, ev, turn, hevs⟩ := hpass.turn h.distinct d' hd'
    have hpast := h.history (w.key d)
    have hwait := h.waiting d hd
    rw [upAt_member members h.distinct d hd] at hpast
    rw [historyOf_append, historyOf_stamped, hevs, turn.key]
    cases ev with
    | none =>
      simp only [Option.toList_none, List.map_nil, List.append_nil]
      rw [turn.silent rfl]
      refine ⟨hpast, fun t hlast => le_trans (hwait t hlast) ?_⟩
      have hdown : w.up d = false := by
        have := hpast.last
        rw [hlast, Option.map_some, Option.getD_some] at this
        exact this.symm
      exact turn.waits hdown (turn.silent rfl ▸ hdown)
    | some e =>
      obtain ⟨hvalue, hup⟩ := turn.told e rfl
      simp only [Option.toList_some, List.map_cons, List.map_nil]
      rw [hup, hvalue]
      rw [hvalue] at hup
      cases hd₀ : w.up d with
      | true =>
        rw [hd₀] at hpast hup
        refine ⟨.fall _ now hpast, fun t hlast => ?_⟩
        rw [List.getLast?_concat, Option.some.injEq] at hlast
        obtain ⟨rfl, -⟩ := Prod.mk.inj hlast
        exact turn.loss hd₀ hup
      | false =>
        rw [hd₀] at hpast hup
        refine ⟨.rise _ now hpast fun t hlast => le_trans (hwait t hlast) (turn.early hd₀ hup),
          fun t hlast => ?_⟩
        rw [List.getLast?_concat, Option.some.injEq] at hlast
        exact absurd (congrArg Prod.snd hlast) Bool.true_eq_false.mp
  refine ⟨hdistinct, fun e he => ?_, fun k => ?_, fun d' hd' => (hmember d' hd').2⟩
  · rw [hkeys]
    rcases List.mem_append.mp he with he | he
    · exact h.about e he
    · obtain ⟨e₀, he₀, rfl⟩ := List.mem_map.mp he
      exact hpass.about e₀ he₀
  · by_cases hk : k ∈ members'.map w.key
    · obtain ⟨d', hd', rfl⟩ := List.mem_map.mp hk
      rw [upAt_member members' hdistinct d' hd']
      exact (hmember d' hd').1
    · have hk₀ : k ∉ members.map w.key := hkeys ▸ hk
      rw [upAt_absent members' k hk, historyOf_append, historyOf_stamped,
        filter_about_absent evs k _ hpass.about hk₀, List.map_nil, List.append_nil]
      have hpast := h.history k
      rw [upAt_absent members k hk₀] at hpast
      exact hpast

end Watch

end OpenHes.Library
