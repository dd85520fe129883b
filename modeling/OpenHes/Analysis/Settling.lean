import OpenHes.Analysis.Dataflow

/-!
# What an evaluation of the table leaves behind

Two facts about a whole evaluation, however deep it nests. Idle rows that only idle rows
feed stay as they are: nothing is recorded or sent for them, and the devices only they
write keep their values. And when the evaluation returns, each row has been looked at on
the values the cache ends with: an interrupted pass is made up for by the nested one.
-/

set_option autoImplicit false

namespace OpenHes.Analysis

open OpenHes.Library OpenHes.Model
open CDouble

variable {V α : Type} [CDouble V]

/-- Something was recorded or sent for row `i`. -/
def ActedOn (i : ℕ) : BmEvent V → Prop
  | .commit row _ _ => row = i
  | .put row _ _ => row = i
  | _ => False

variable (host : BmHost V α) (bm : BindingMap V) (m : HesClmeMsg)

/-- INTERNAL: a row with a result to record is enabled. -/
theorem enabled_of_result {i : ℕ} {op : BmOperation V} {s t : BmState V α} {v : V}
    (h : decideOutput host bm m i op s = (t, some v)) : op.enabled = true := by
  obtain ⟨vs, raw, hvs, -⟩ := decideOutput_some host bm m i op s t v h
  by_contra hdis
  rw [rowOperands_disabled bm op s.cache (by simpa using hdis)] at hvs
  cases hvs

/-- INTERNAL: a look changes no other row's change detectors. -/
theorem decideOutput_mem_ne (i j : ℕ) (op : BmOperation V) (s : BmState V α) (hj : j ≠ i) :
    (decideOutput host bm m i op s).1.mem j = s.mem j := by
  rw [decideOutput_mem]
  cases rowOperands bm s.cache op with
  | none => rfl
  | some vs => simp [lookedMem, hj]

/-- INTERNAL: a look keeps every last output. -/
theorem decideOutput_lastOutput (i j : ℕ) (op : BmOperation V) (s : BmState V α) :
    ((decideOutput host bm m i op s).1.mem j).lastOutput = (s.mem j).lastOutput := by
  by_cases hj : j = i
  · rw [hj, decideOutput_mem]
    cases rowOperands bm s.cache op with
    | none => rfl
    | some vs => simp [lookedMem]
  · rw [decideOutput_mem_ne host bm m i j op s hj]

/-! ## Rows that stay at rest -/

section Quiet

variable (U : Set ℕ)

/-- The rows of `U` are fed by rows of `U` only. -/
def UpClosed : Prop := ∀ i j, Feeds bm i j → j ∈ U → i ∈ U

/-- Every row of `U` is idle. -/
def AllIdle (s : BmState V α) : Prop :=
  ∀ i ∈ U, ∀ op, IsRow bm i op → Idle host bm m op (s.mem i) s.cache

/-- From `s` to `t` nothing was recorded or sent for the rows of `U`: they remember the same
outputs, the devices that only they write kept their values, and the trace grew by events
of other rows. -/
structure Untouched (s t : BmState V α) : Prop where
  lastOutput : ∀ i ∈ U, (t.mem i).lastOutput = (s.mem i).lastOutput
  cache : ∀ d, (∀ i, WritesDevice bm i d → i ∈ U) → t.cache d = s.cache d
  trace : ∃ evs, t.trace = s.trace ++ evs ∧ ∀ e ∈ evs, ∀ i ∈ U, ¬ ActedOn i e

/-- And they are idle in the end. -/
structure Undisturbed (s t : BmState V α) : Prop extends Untouched bm U s t where
  idle : AllIdle host bm m U t

omit [CDouble V] in
/-- INTERNAL: nothing has happened from a state to itself. -/
theorem Untouched.refl (s : BmState V α) : Untouched bm U s s :=
  { lastOutput := fun _ _ => rfl
    cache := fun _ _ => rfl
    trace := ⟨[], by simp, by simp⟩ }

omit [CDouble V] in
/-- INTERNAL: one stretch in which nothing happens, and another. -/
theorem Untouched.trans {s t u : BmState V α} (h₁ : Untouched bm U s t)
    (h₂ : Untouched bm U t u) : Untouched bm U s u := by
  obtain ⟨evs₁, htrace₁, hact₁⟩ := h₁.trace
  obtain ⟨evs₂, htrace₂, hact₂⟩ := h₂.trace
  refine ⟨?_, ?_, evs₁ ++ evs₂, ?_, ?_⟩
  · intro i hi
    exact (h₂.lastOutput i hi).trans (h₁.lastOutput i hi)
  · intro d hd
    exact (h₂.cache d hd).trans (h₁.cache d hd)
  · rw [htrace₂, htrace₁, List.append_assoc]
  · intro e he
    rcases List.mem_append.mp he with he | he
    · exact hact₁ e he
    · exact hact₂ e he

omit [CDouble V] in
/-- INTERNAL: what is untouched together with other rows is untouched. -/
theorem Untouched.mono {U' : Set ℕ} (hsub : U' ⊆ U) {s t : BmState V α}
    (h : Untouched bm U s t) : Untouched bm U' s t := by
  obtain ⟨evs, htrace, hact⟩ := h.trace
  exact
    { lastOutput := fun i hi => h.lastOutput i (hsub hi)
      cache := fun d hd => h.cache d fun i hi => hsub (hd i hi)
      trace := ⟨evs, htrace, fun e he i hi => hact e he i (hsub hi)⟩ }

/-- INTERNAL: looking at any row touches no row. -/
theorem Untouched.look (i : ℕ) (op : BmOperation V) (s : BmState V α) :
    Untouched bm U s (decideOutput host bm m i op s).1 := by
  obtain ⟨calls, hcalls, htrace⟩ := decideOutput_trace host bm m i op s
  refine ⟨fun j _ => decideOutput_lastOutput host bm m i j op s, fun d _ => ?_,
    _, htrace, lookEvents_forall host (fun e => ∀ j ∈ U, ¬ ActedOn j e) i calls _ hcalls
      (fun _ _ _ => id) (fun _ _ _ _ _ => id) fun _ _ _ _ _ => id⟩
  rw [decideOutput_cache]

omit [CDouble V] in
/-- INTERNAL: nor does recording another row's result. -/
theorem Untouched.record {i : ℕ} {op : BmOperation V} {s t : BmState V α} {v : V}
    (hrow : IsRow bm i op) (hi : i ∉ U) (hen : op.enabled = true) (h : Untouched bm U s t) :
    Untouched bm U s (commitOutput i op v t) := by
  have hne : ∀ j ∈ U, j ≠ i := fun j hj hji => hi (hji ▸ hj)
  refine h.trans bm U ⟨?_, ?_, [.commit i op.outDeviceIndex v], rfl, ?_⟩
  · intro j hj
    rw [commitOutput_mem_ne i j op v t (hne j hj)]
  · intro d hd
    refine commitOutput_cache_ne i d op v t fun hslot hdev => ?_
    exact hi (hd i ⟨op, hrow, hen, hdev ▸ hslot, hdev.symm⟩)
  · intro e he j hj
    rw [List.mem_singleton.mp he]
    exact fun hij => hne j hj hij.symm

/-- INTERNAL: nor does sending for it. -/
theorem Untouched.send {i : ℕ} {op : BmOperation V} {s t : BmState V α} {v : V}
    (hi : i ∉ U) (h : Untouched bm U s t) : Untouched bm U s (sendPut i op v t) := by
  obtain ⟨hcache, hmem, -⟩ := sendPut_frame i op v t
  refine h.trans bm U ⟨fun j _ => by rw [hmem], fun d _ => by rw [hcache], ?_⟩
  unfold sendPut
  split
  · exact ⟨[], by simp⟩
  · refine ⟨_, rfl, fun e he j hj => ?_⟩
    rw [List.mem_singleton.mp he]
    exact fun hij => hi (hij ▸ hj)

/-- INTERNAL: rest goes on. -/
theorem Undisturbed.trans {s t u : BmState V α} (h₁ : Undisturbed host bm m U s t)
    (h₂ : Undisturbed host bm m U t u) : Undisturbed host bm m U s u :=
  ⟨h₁.toUntouched.trans bm U h₂.toUntouched, h₂.idle⟩

/-- INTERNAL: what is undisturbed together with other rows is undisturbed. -/
theorem Undisturbed.mono {U' : Set ℕ} (hsub : U' ⊆ U) {s t : BmState V α}
    (h : Undisturbed host bm m U s t) : Undisturbed host bm m U' s t :=
  ⟨h.toUntouched.mono bm U hsub, fun i hi => h.idle i (hsub hi)⟩

/-- INTERNAL: idle rows are undisturbed so far. -/
theorem Undisturbed.refl {s : BmState V α} (h : AllIdle host bm m U s) :
    Undisturbed host bm m U s s := ⟨Untouched.refl bm U s, h⟩

/-- INTERNAL: looking at any row disturbs no idle row. -/
theorem Undisturbed.look (i : ℕ) (op : BmOperation V) (s : BmState V α)
    (hrow : IsRow bm i op) (hidle : AllIdle host bm m U s) :
    Undisturbed host bm m U s (decideOutput host bm m i op s).1 := by
  refine ⟨Untouched.look host bm m U i op s, ?_⟩
  intro j hj op' hrow'
  rw [decideOutput_cache]
  by_cases hij : j = i
  · subst hij
    obtain rfl := hrow.unique hrow'
    rw [decideOutput_mem]
    cases hvs : rowOperands bm s.cache op with
    | none => exact hidle j hj op hrow
    | some vs =>
      simp only [lookedMem, Function.update_self]
      exact (hidle j hj op hrow).look host bm m hvs
  · rw [decideOutput_mem_ne host bm m i j op s hij]
    exact hidle j hj op' hrow'

/-- INTERNAL: recording a result wakes no idle row that it does not feed. -/
theorem AllIdle.commit {i : ℕ} {op : BmOperation V} {t : BmState V α} {v : V}
    (hrow : IsRow bm i op) (hi : i ∉ U) (hen : op.enabled = true)
    (hfeeds : ∀ j ∈ U, ¬ Feeds bm i j) (h : AllIdle host bm m U t) :
    AllIdle host bm m U (commitOutput i op v t) := by
  intro j hj op' hrow'
  refine (h j hj op' hrow').commit host bm m hrow hen hrow' ?_ (hfeeds j hj)
  exact fun hji => hi (hji ▸ hj)

/-- INTERNAL: recording another row's result disturbs no idle row. -/
theorem Undisturbed.record (hU : UpClosed bm U) (i : ℕ) (op : BmOperation V)
    (s t : BmState V α) (v : V) (hrow : IsRow bm i op) (hi : i ∉ U) (hen : op.enabled = true)
    (h : Undisturbed host bm m U s t) :
    Undisturbed host bm m U s (commitOutput i op v t) :=
  ⟨h.toUntouched.record bm U hrow hi hen,
    h.idle.commit host bm m U hrow hi hen fun j hj hfeeds => hi (hU i j hfeeds hj)⟩

/-- INTERNAL: sending for another row disturbs no idle row. -/
theorem Undisturbed.send (i : ℕ) (op : BmOperation V) (s t : BmState V α) (v : V)
    (hi : i ∉ U) (h : Undisturbed host bm m U s t) :
    Undisturbed host bm m U s (sendPut i op v t) := by
  refine ⟨h.toUntouched.send bm U hi, ?_⟩
  obtain ⟨hcache, hmem, -⟩ := sendPut_frame i op v t
  intro j hj op' hrow'
  rw [hmem, hcache]
  exact h.idle j hj op' hrow'

/-- INTERNAL: a row with a result to record is none of the idle ones. -/
theorem AllIdle.not_mem_of_result {i : ℕ} {op : BmOperation V} {s t : BmState V α}
    {v : V} (hidle : AllIdle host bm m U s) (hrow : IsRow bm i op)
    (h : decideOutput host bm m i op s = (t, some v)) : i ∉ U := by
  intro hi
  have hnone := ((hidle i hi op hrow).decideOutput host bm m).1
  rw [h] at hnone
  cases hnone

/-- INTERNAL: **rest.** An evaluation of the table, returned or not, does nothing to idle
rows that only idle rows feed.
SRCLINE: bm.c:660-680, bm.c:783-788 -/
theorem bmEvaluateAll_undisturbed (hU : UpClosed bm U) (depth : ℕ) (s : BmState V α)
    (hidle : AllIdle host bm m U s) :
    Undisturbed host bm m U s (bmEvaluateAll host bm m depth s).state := by
  refine bmEvaluateAll_rel host bm m
    (fun s t => AllIdle host bm m U s → Undisturbed host bm m U s t) ?_ ?_ ?_ ?_ ?_ depth s hidle
  · intro s hs
    exact Undisturbed.refl host bm m U hs
  · intro s t u h₁ h₂ hs
    exact (h₁ hs).trans host bm m U (h₂ (h₁ hs).idle)
  · intro i op s t hrow hdec hs
    have hlook := Undisturbed.look host bm m U i op s hrow hs
    rwa [hdec] at hlook
  · intro i op s t v hrow hdec hs
    have hlook := Undisturbed.look host bm m U i op s hrow hs
    rw [hdec] at hlook
    exact hlook.record host bm m U hU i op s t v hrow (hs.not_mem_of_result host bm m U hrow hdec)
      (enabled_of_result host bm m hdec)
  · intro i op s t v u hrow hdec _ hall hs
    exact (hall hs).send host bm m U i op s u v (hs.not_mem_of_result host bm m U hrow hdec)

/-- INTERNAL: nor does the evaluation of one row, with the nested one it starts. -/
theorem evaluateOp_undisturbed (hU : UpClosed bm U) (depth : ℕ) {i : ℕ} {op : BmOperation V}
    {s s' : BmState V α} (hrow : IsRow bm i op) (hidle : AllIdle host bm m U s)
    (h : evaluateOp host bm m (bmEvaluateAll host bm m depth) (op, i) s = .returned s') :
    Undisturbed host bm m U s s' := by
  have hlook := Undisturbed.look host bm m U i op s hrow hidle
  rcases evaluateOp_returned host bm m _ i op s s' h with
    hnone | ⟨t, v, hdec, ⟨-, rfl⟩ | ⟨-, u, hu, rfl⟩⟩
  · rwa [hnone] at hlook
  all_goals
    have hi := hidle.not_mem_of_result host bm m U hrow hdec
    rw [hdec] at hlook
    have hrec := hlook.record host bm m U hU i op s t v hrow hi (enabled_of_result host bm m hdec)
  · exact hrec.send host bm m U i op s _ v hi
  · have hin := bmEvaluateAll_undisturbed host bm m U hU depth _ hrec.idle
    rw [hu] at hin
    exact (hrec.trans host bm m U hin).send host bm m U i op s u v hi

/-- INTERNAL: **rows that never have a result.** Where the rows keep to the caches of `C`,
rows that are barren on `C` are not touched, and neither are idle rows that only they and
one another feed. -/
theorem bmEvaluateAll_untouched {W T : Set ℕ} {C : Set (ValueCache V)}
    (hC : StepClosed host bm m C) (hT : ∀ i j, Feeds bm i j → j ∈ T → i ∈ W ∪ T) (depth : ℕ)
    (s : BmState V α) (hs : s.cache ∈ C)
    (hW : ∀ i ∈ W, ∀ op, IsRow bm i op → Barren host bm m C op (s.mem i))
    (hidle : AllIdle host bm m T s) :
    (bmEvaluateAll host bm m depth s).state.cache ∈ C ∧
      Untouched bm (W ∪ T) s (bmEvaluateAll host bm m depth s).state := by
  let Kept : BmState V α → Prop := fun t =>
    t.cache ∈ C ∧ AllIdle host bm m T t ∧ Untouched bm (W ∪ T) s t
  -- a row with a result is none of them
  have hout : ∀ i op t u v, Kept t → IsRow bm i op →
      decideOutput host bm m i op t = (u, some v) → i ∉ W ∪ T := by
    rintro i op t u v ⟨htC, hrest, htouch⟩ hrow hdec (hi | hi)
    · exact (hW i hi op hrow).no_result host bm m htC (htouch.lastOutput i (Or.inl hi)) hdec
    · exact hrest.not_mem_of_result host bm m T hrow hdec hi
  have hkept : Kept (bmEvaluateAll host bm m depth s).state := by
    refine bmEvaluateAll_rel host bm m (fun t u => Kept t → Kept u) (fun _ h => h)
      (fun _ _ _ h₁ h₂ h => h₂ (h₁ h)) ?_ ?_ ?_ depth s ⟨hs, hidle, Untouched.refl bm _ s⟩
    · rintro i op t u hrow hdec ⟨htC, hrest, htouch⟩
      have hlook := Undisturbed.look host bm m T i op t hrow hrest
      have htouched := Untouched.look host bm m (W ∪ T) i op t
      have hcache := decideOutput_cache host bm m i op t
      rw [hdec] at hlook htouched hcache
      exact ⟨hcache ▸ htC, hlook.idle, htouch.trans bm _ htouched⟩
    · rintro i op t u v hrow hdec ht
      have hi := hout i op t u v ht hrow hdec
      obtain ⟨htC, hrest, htouch⟩ := ht
      have hen := enabled_of_result host bm m hdec
      have hlook := Undisturbed.look host bm m T i op t hrow hrest
      have htouched := Untouched.look host bm m (W ∪ T) i op t
      rw [hdec] at hlook htouched
      refine ⟨hC.commit host bm m hrow htC hdec, ?_, ?_⟩
      · refine hlook.idle.commit host bm m T hrow (fun hiT => hi (Or.inr hiT)) hen ?_
        exact fun j hj hfeeds => hi (hT i j hfeeds hj)
      · exact (htouch.trans bm _ htouched).record bm _ hrow hi hen
    · rintro i op t u v w hrow hdec - hall ht
      have hi := hout i op t u v ht hrow hdec
      obtain ⟨hwC, hrest, htouch⟩ := hall ht
      obtain ⟨hcache, hmem, -⟩ := sendPut_frame i op v w
      refine ⟨hcache ▸ hwC, ?_, htouch.send bm _ hi⟩
      intro j hj op' hrow'
      rw [hmem, hcache]
      exact hrest j hj op' hrow'
  exact ⟨hkept.1, hkept.2.2⟩

/-- The rows from which row `i` can be reached along the dataflow. -/
def Upstream (i : ℕ) : Set ℕ := { j | Relation.TransGen (Feeds bm) j i }

omit [CDouble V] in
/-- INTERNAL: what feeds an upstream row is upstream. -/
theorem upstream_upClosed (i : ℕ) : UpClosed bm (Upstream bm i) := by
  intro j k hfeeds hk
  exact Relation.TransGen.head hfeeds hk

omit [CDouble V] in
/-- INTERNAL: a closed set holds everything upstream of its rows. -/
theorem upClosed_upstream {U : Set ℕ} (hU : UpClosed bm U) {i j : ℕ} (hi : i ∈ U)
    (hj : j ∈ Upstream bm i) : j ∈ U := by
  induction hj using Relation.TransGen.head_induction_on with
  | single hfeeds => exact hU _ _ hfeeds hi
  | head hfeeds _ ih => exact hU _ _ hfeeds ih

omit [CDouble V] in
/-- INTERNAL: with its own index the upstream rows of a row are closed, too. -/
theorem insert_upstream_upClosed (i : ℕ) : UpClosed bm (insert i (Upstream bm i)) := by
  rintro j k hfeeds (rfl | hk)
  · exact Or.inr (Relation.TransGen.single hfeeds)
  · exact Or.inr (Relation.TransGen.head hfeeds hk)

/-- No row writes a device that row `i` reads. -/
def SourceFed (i : ℕ) : Prop := ∀ d, ReadsDevice bm i d → ∀ j, ¬ WritesDevice bm j d

omit [CDouble V] in
/-- INTERNAL: nothing is upstream of such a row. -/
theorem SourceFed.upstream {i : ℕ} (h : SourceFed bm i) : Upstream bm i = ∅ := by
  refine Set.eq_empty_of_forall_notMem fun j hj => ?_
  obtain ⟨k, -, d, hwrites, hreads⟩ := Relation.TransGen.tail'_iff.mp hj
  exact h d hreads k hwrites

/-- INTERNAL: so they are all idle. -/
theorem SourceFed.allIdle {i : ℕ} (h : SourceFed bm i) (s : BmState V α) :
    AllIdle host bm m (Upstream bm i) s := by
  rw [h.upstream]
  intro j hj
  exact absurd hj (Set.notMem_empty j)

/-- INTERNAL: while its upstream rows rest, a row's operands stay the same. -/
theorem Undisturbed.rowOperands {i : ℕ} {op : BmOperation V} {s t : BmState V α}
    (hrow : IsRow bm i op) (h : Undisturbed host bm m (Upstream bm i) s t) :
    rowOperands bm t.cache op = rowOperands bm s.cache op := by
  by_cases hen : op.enabled = true
  · refine rowOperands_congr bm op _ _ fun inp hinp => h.cache _ fun j hj => ?_
    exact Relation.TransGen.single ⟨_, hj, op, hrow, hen, inp, hinp, rfl⟩
  · have hdis : op.enabled = false := by simpa using hen
    rw [rowOperands_disabled bm op _ hdis, rowOperands_disabled bm op _ hdis]

end Quiet

/-! ## Rows that were looked at -/

/-- INTERNAL: what a look at a row establishes, and a recording without a nested
evaluation does not spoil, holds of every row when an evaluation of the table returns.
SRCLINE: bm.c:739-752, bm.c:783-788 -/
theorem bmEvaluateAll_each_row (P : ℕ → BmOperation V → OpMemory V → ValueCache V → Prop)
    (look : ∀ i op s t, IsRow bm i op → decideOutput host bm m i op s = (t, none) →
      P i op (t.mem i) t.cache)
    (record : ∀ i op s t v, IsRow bm i op → decideOutput host bm m i op s = (t, some v) →
      hasSlot op.outDeviceIndex = false →
      P i op ((commitOutput i op v t).mem i) (commitOutput i op v t).cache)
    (depth : ℕ) (s s' : BmState V α) (h : bmEvaluateAll host bm m depth s = .returned s') :
    ∀ i op, IsRow bm i op → P i op (s'.mem i) s'.cache := by
  let holds : BmOperation V × ℕ → BmState V α → Prop :=
    fun row s => P row.2 row.1 (s.mem row.2) s.cache
  -- only the rows still to come may lack it
  have hpost : ∀ row ∈ bm.ops.zipIdx, holds row s' := by
    refine ReentrantLoop.run_pass (evaluateOp host bm m) bm.ops.zipIdx (fun _ => True)
      (fun _ s => ∀ row ∈ bm.ops.zipIdx, holds row s)
      (fun _ rest s => ∀ row ∈ bm.ops.zipIdx, row ∉ rest → holds row s)
      (fun s _ row hrow hnot => absurd hrow hnot) (fun _ s hJ row hrow => hJ row hrow (by simp))
      ?_ depth s s' trivial h
    rintro depth hnested front ⟨op, i⟩ rest hrows - s s' hJ hret row hmem hrest
    have hself : IsRow bm i op := (mem_rows_iff bm (op, i)).mp (by rw [hrows]; simp)
    have hrow := (mem_rows_iff bm row).mp hmem
    have hother : row.2 ≠ i → holds row s := by
      intro hne
      refine hJ row hmem fun hin => ?_
      rcases List.mem_cons.mp hin with rfl | hin
      · exact hne rfl
      · exact hrest hin
    have hsame : row.2 = i → row = (op, i) := by
      intro hi
      have hop : row.1 = op := IsRow.unique (hi ▸ hrow) hself
      exact Prod.ext hop hi
    rcases evaluateOp_returned host bm m _ i op s s' hret with
      hnone | ⟨t, v, hdec, ⟨hslot, rfl⟩ | ⟨-, u, hu, rfl⟩⟩
    · by_cases hi : row.2 = i
      · rw [hsame hi]
        exact look i op s s' hself hnone
      · have hmemEq := decideOutput_mem_ne host bm m i row.2 op s hi
        have hcacheEq := decideOutput_cache host bm m i op s
        rw [hnone] at hmemEq hcacheEq
        simp only [holds] at hother ⊢
        rw [hmemEq, hcacheEq]
        exact hother hi
    · obtain ⟨hcache, hmemSend, -⟩ := sendPut_frame i op v (commitOutput i op v t)
      simp only [holds]
      rw [hcache, hmemSend]
      by_cases hi : row.2 = i
      · rw [hsame hi]
        exact record i op s t v hself hdec hslot
      · have hmemEq := decideOutput_mem_ne host bm m i row.2 op s hi
        have hcacheEq := decideOutput_cache host bm m i op s
        rw [hdec] at hmemEq hcacheEq
        simp only [holds] at hother
        rw [commitOutput_mem_ne i row.2 op v t hi, commitOutput_cache_no_slot i op v t hslot,
          hmemEq, hcacheEq]
        exact hother hi
    · -- the nested evaluation has been over the whole table
      obtain ⟨hcache, hmemSend, -⟩ := sendPut_frame i op v u
      simp only [holds]
      rw [hcache, hmemSend]
      exact hnested _ u trivial hu row hmem
  intro i op hrow
  exact hpost (op, i) ((mem_rows_iff bm (op, i)).mpr hrow)

/-- The operands a row has now are the ones it remembers. -/
def Settled (op : BmOperation V) (mem : OpMemory V) (cache : ValueCache V) : Prop :=
  ∀ vs, rowOperands bm cache op = some vs → mem.lastOperands = some vs

/-- INTERNAL: after a look at a row its operands are remembered. -/
theorem settled_of_look (i : ℕ) (op : BmOperation V) (s : BmState V α) :
    Settled bm op ((decideOutput host bm m i op s).1.mem i)
      (decideOutput host bm m i op s).1.cache := by
  intro vs hvs
  rw [decideOutput_cache] at hvs
  rw [decideOutput_mem, hvs]
  simp [lookedMem]

/-- INTERNAL: when an evaluation of the table returns, every row is settled. -/
theorem bmEvaluateAll_settles (depth : ℕ) (s s' : BmState V α)
    (h : bmEvaluateAll host bm m depth s = .returned s') :
    ∀ i op, IsRow bm i op → Settled bm op (s'.mem i) s'.cache := by
  refine bmEvaluateAll_each_row host bm m (fun _ op mem cache => Settled bm op mem cache)
    ?_ ?_ depth s s' h
  · intro i op s t _ hdec
    have hlook := settled_of_look host bm m i op s
    rwa [hdec] at hlook
  · intro i op s t v _ hdec hslot
    have hlook := settled_of_look host bm m i op s
    rw [hdec] at hlook
    intro vs hvs
    rw [commitOutput_cache_no_slot i op v t hslot] at hvs
    rw [commitOutput_mem_self]
    exact hlook vs hvs

/-! ## Settled runs -/

/-- Every row of the table is settled. -/
def AllSettled (s : BmState V α) : Prop :=
  ∀ i op, IsRow bm i op → Settled bm op (s.mem i) s.cache

omit [CDouble V] in
/-- INTERNAL: an attribution loop that stores nothing leaves the cache as it was. -/
theorem storeReading_unstored (v : V) (cache : ValueCache V)
    (h : (storeReading bm m v cache).2 = false) :
    (storeReading bm m v cache).1 = cache := by
  have hloop : ∀ (inputs : List BmInput) (acc : ValueCache V × Bool),
      (inputs.foldl (storeInput m v) acc).2 = false →
        (inputs.foldl (storeInput m v) acc).1 = acc.1 ∧ acc.2 = false := by
    intro inputs
    induction inputs with
    | nil => exact fun acc hacc => ⟨rfl, hacc⟩
    | cons inp rest ih =>
      intro acc hacc
      obtain ⟨hcache, hflag⟩ := ih (storeInput m v acc inp) hacc
      rw [List.foldl_cons, hcache]
      unfold storeInput at hflag ⊢
      split at hflag
      · simp at hflag
      next hcond => exact ⟨by rw [if_neg hcond], hflag⟩
  exact (hloop _ _ h).1

/-- INTERNAL: `bm_processor_handle`, as what it may be: nothing, a reading nobody
listens to, or an evaluation of the table. -/
theorem bmProcessorHandle_returned (depth : ℕ) (s s' : BmState V α)
    (h : bmProcessorHandle host bm m depth s = .returned s') :
    s' = s ∨ isReport m = true ∧
      (s' = takeReading bm m s ∧ s'.cache = s.cache ∨
        bmEvaluateAll host bm m depth (takeReading bm m s) = .returned s') := by
  unfold bmProcessorHandle at h
  split at h
  · left
    simpa using h.symm
  next hrep =>
    refine Or.inr ⟨by simpa using hrep, ?_⟩
    split at h
    · exact Or.inr h
    next hflag =>
      have hs' : s' = takeReading bm m s := by simpa using h.symm
      refine Or.inl ⟨hs', ?_⟩
      rw [hs']
      exact storeReading_unstored bm m (readingOf m : V) s.cache (by simpa using hflag)

/-- A row up to its output authorType, the one thing `bm_set_at` writes. -/
def eraseAuthorType (op : BmOperation V) : BmOperation V := { op with outAuthorType := [] }

omit [CDouble V] in
/-- INTERNAL: writing an authorType changes nothing else of the map.
SRCLINE: bm.c:833-852 -/
theorem bmSetAt_erased {bm bm' : BindingMap V} {atAddress value : CStr}
    (h : bmSetAt bm atAddress value = some bm') :
    bm'.authzDisabled = bm.authzDisabled ∧
      bm'.ops.map eraseAuthorType = bm.ops.map eraseAuthorType := by
  have hrows : ∀ ops ops' : List (BmOperation V), setAtOps atAddress value ops = some ops' →
      ops'.map eraseAuthorType = ops.map eraseAuthorType := by
    intro ops
    induction ops with
    | nil => simp [setAtOps]
    | cons first rest ih =>
      intro ops' hset
      unfold setAtOps at hset
      split at hset
      · obtain rfl := Option.some.inj hset
        rfl
      · obtain ⟨rest', hrest, rfl⟩ := Option.map_eq_some_iff.mp hset
        simp [ih rest' hrest]
  obtain ⟨ops', hops', rfl⟩ := Option.map_eq_some_iff.mp h
  exact ⟨rfl, hrows bm.ops ops' hops'⟩

omit [CDouble V] in
/-- INTERNAL: two tables that are the same up to authorTypes have the same rows up to
authorTypes. -/
theorem row_of_erased {bm bm' : BindingMap V}
    (h : bm'.ops.map eraseAuthorType = bm.ops.map eraseAuthorType) {i : ℕ}
    {op' : BmOperation V} (hrow : IsRow bm' i op') :
    ∃ op, IsRow bm i op ∧ eraseAuthorType op' = eraseAuthorType op := by
  have hget := congrArg (fun ops => ops[i]?) h
  simp only [List.getElem?_map] at hget
  unfold IsRow at hrow ⊢
  rw [hrow, Option.map_some] at hget
  obtain ⟨op, hop, heq⟩ := Option.map_eq_some_iff.mp hget.symm
  exact ⟨op, hop, heq.symm⟩

/-- INTERNAL: the operands of a row do not depend on authorTypes of outputs. -/
theorem rowOperands_erased {bm bm' : BindingMap V} (hauthz : bm'.authzDisabled = bm.authzDisabled)
    (cache : ValueCache V) {op op' : BmOperation V}
    (h : eraseAuthorType op' = eraseAuthorType op) :
    rowOperands bm' cache op' = rowOperands bm cache op := by
  have hinputs : (eraseAuthorType op').inputs = (eraseAuthorType op).inputs := by rw [h]
  have henabled : (eraseAuthorType op').enabled = (eraseAuthorType op).enabled := by rw [h]
  simp only [eraseAuthorType] at hinputs henabled
  unfold rowOperands opReady
  rw [hinputs, henabled, hauthz]

/-- INTERNAL: **every state of a run is settled.** -/
theorem ReachableBy.settled {host : BmHost V α}
    {ok : BindingMap V → BmState V α → HesClmeMsg → Prop} {bm : BindingMap V} {s : BmState V α}
    (h : ReachableBy host ok bm s) : AllSettled bm s := by
  induction h with
  | init bm app =>
    intro i op _ vs hvs
    -- nothing has reported, so no row is ready
    have hready : opReady bm (BmState.initial (V := V) app).cache op = false := by
      unfold opReady BmState.initial
      cases op.inputs <;> simp
    simp [rowOperands, hready] at hvs
  | @handle bm s s' m depth _ _ hm ih =>
    rcases bmProcessorHandle_returned host bm m depth s s' hm with
      rfl | ⟨-, ⟨htake, hcache⟩ | hrun⟩
    · exact ih
    · intro i op hrow
      rw [hcache, htake]
      exact ih i op hrow
    · exact bmEvaluateAll_settles host bm m depth _ s' hrun
  | @setAt bm bm' s atAddress value _ hset ih =>
    obtain ⟨hauthz, hrows⟩ := bmSetAt_erased hset
    intro i op' hrow' vs hvs
    obtain ⟨op, hrow, heq⟩ := row_of_erased hrows hrow'
    refine ih i op hrow vs ?_
    rw [← rowOperands_erased hauthz s.cache heq]
    exact hvs

end OpenHes.Analysis
