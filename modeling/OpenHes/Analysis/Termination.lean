import OpenHes.Analysis.RowEffect

/-!
# When the evaluation of a table returns

A result that is recorded wakes rows it feeds and puts its own row to rest, so on an
acyclic table the weight of the rows that are not idle drops with every nested
evaluation. One case escapes: a row that reads a NaN and computes a NaN is never at rest,
since no comparison calls its operands or its result unchanged.
-/

set_option autoImplicit false

namespace OpenHes.Analysis

open OpenHes.Library OpenHes.Model
open CDouble

variable {V α : Type} [CDouble V]

/-- A row in range would record a NaN it computed from a NaN. -/
def NaNTrap (host : BmHost V α) (bm : BindingMap V) (m : HesClmeMsg) (cache : ValueCache V) :
    Prop :=
  ∃ i op vs v, MayRecord host bm m cache i op vs v ∧ (∃ x ∈ vs, eq x x = false) ∧
    eq v v = false

/-- None of the caches that the rows can make of this one has such a row. -/
def TrapFree (host : BmHost V α) (bm : BindingMap V) (m : HesClmeMsg) (cache : ValueCache V) :
    Prop :=
  ∀ cache', CacheReach host bm m cache cache' → ¬ NaNTrap host bm m cache'

/-- No enabled row of the table is an app's. -/
def AllBuiltin (bm : BindingMap V) : Prop :=
  ∀ i op, IsRow bm i op → op.enabled = true → op.operation ≠ lit "ap"

variable (host : BmHost V α) (bm : BindingMap V) (m : HesClmeMsg)

/-- INTERNAL: where there is no trap, a row with a result in range rests on its operands. -/
theorem restsOn_of_no_trap {i : ℕ} {op : BmOperation V} {s t : BmState V α} {v : V}
    (hrow : IsRow bm i op) (hap : op.operation ≠ lit "ap")
    (hslot : hasSlot op.outDeviceIndex = true) (htrap : ¬ NaNTrap host bm m s.cache)
    (h : decideOutput host bm m i op s = (t, some v)) :
    ∀ vs, rowOperands bm s.cache op = some vs → RestsOn op vs := by
  intro vs hvs
  obtain ⟨vs', hmay⟩ := mayRecord_of_result host bm m hrow hslot h
  obtain rfl : vs' = vs := Option.some.inj (hmay.operands.symm.trans hvs)
  by_cases hnum : ∀ x ∈ vs', eq x x = true
  · exact Or.inl hnum
  · refine Or.inr ⟨hap, fun w hw => ?_⟩
    obtain ⟨raw, hraw, hadj⟩ := hmay.result
    unfold OperationGives at hraw
    rw [if_neg hap] at hraw
    obtain rfl : v = w := Option.some.inj (hadj.symm.trans (hraw ▸ hw))
    by_contra hv
    obtain ⟨x, hx⟩ := not_forall.mp hnum
    obtain ⟨hmem, hxx⟩ := Classical.not_imp.mp hx
    exact htrap ⟨i, op, vs', v, hmay, ⟨x, hmem, by simpa using hxx⟩, by simpa using hv⟩

/-! ## The weight of the rows that are not idle -/

section Weight

open Classical in
/-- The rows that are not idle. -/
noncomputable def activeRows (s : BmState V α) : Finset ℕ :=
  (Finset.range bm.ops.length).filter fun i =>
    ∃ op, IsRow bm i op ∧ ¬ Idle host bm m op (s.mem i) s.cache

/-- INTERNAL: the rows that are not idle. -/
theorem mem_activeRows (i : ℕ) (s : BmState V α) :
    i ∈ activeRows host bm m s ↔
      ∃ op, IsRow bm i op ∧ ¬ Idle host bm m op (s.mem i) s.cache := by
  classical
  unfold activeRows
  rw [Finset.mem_filter, Finset.mem_range, and_iff_right_iff_imp]
  rintro ⟨op, hrow, -⟩
  exact (List.getElem?_eq_some_iff.mp hrow).1

variable (w : ℕ → ℕ)

/-- Their weight. -/
noncomputable def activeWeight (s : BmState V α) : ℕ := ∑ i ∈ activeRows host bm m s, w i

/-- INTERNAL: sending does not change which rows are idle. -/
theorem activeWeight_send (i : ℕ) (op : BmOperation V) (v : V) (s : BmState V α) :
    activeWeight host bm m w (sendPut i op v s) = activeWeight host bm m w s := by
  obtain ⟨hcache, hmem, -⟩ := sendPut_frame i op v s
  unfold activeWeight activeRows
  rw [hcache, hmem]

/-- INTERNAL: a look that comes to nothing wakes no row. -/
theorem activeWeight_look {i : ℕ} {op : BmOperation V} {s t : BmState V α}
    (hrow : IsRow bm i op) (h : decideOutput host bm m i op s = (t, none)) :
    activeWeight host bm m w t ≤ activeWeight host bm m w s := by
  refine Finset.sum_le_sum_of_subset ?_
  intro j hj
  rw [mem_activeRows] at hj ⊢
  obtain ⟨op', hrow', hact⟩ := hj
  refine ⟨op', hrow', fun hidle => hact ?_⟩
  have ht : t = (decideOutput host bm m i op s).1 := by rw [h]
  rw [ht, decideOutput_cache]
  by_cases hji : j = i
  · subst hji
    obtain rfl := hrow.unique hrow'
    rw [decideOutput_mem]
    cases hvs : rowOperands bm s.cache op with
    | none => exact hidle
    | some vs =>
      simp only [lookedMem, Function.update_self]
      exact hidle.look host bm m hvs
  · rw [decideOutput_mem_ne host bm m i j op s hji]
    exact hidle

/-- INTERNAL: which rows may be awake after a result was recorded. -/
theorem active_after_commit {i j : ℕ} {op : BmOperation V} {s t : BmState V α} {v : V}
    (hrow : IsRow bm i op) (h : decideOutput host bm m i op s = (t, some v)) (hji : j ≠ i)
    (hj : j ∈ activeRows host bm m (commitOutput i op v t)) :
    Feeds bm i j ∨ j ∈ activeRows host bm m s := by
  rw [mem_activeRows] at hj ⊢
  obtain ⟨op', hrow', hact⟩ := hj
  by_contra hcon
  obtain ⟨hfeeds, hidle⟩ := not_or.mp hcon
  have hidle : Idle host bm m op' (s.mem j) s.cache := by
    by_contra hno
    exact hidle ⟨op', hrow', hno⟩
  refine hact (Idle.commit host bm m hrow (enabled_of_result host bm m h) hrow' hji hfeeds ?_)
  have ht : t = (decideOutput host bm m i op s).1 := by rw [h]
  rw [ht, decideOutput_cache, decideOutput_mem_ne host bm m i j op s hji]
  exact hidle

/-- INTERNAL: a row with a result to record is not idle. -/
theorem active_of_result {i : ℕ} {op : BmOperation V} {s t : BmState V α} {v : V}
    (hrow : IsRow bm i op) (h : decideOutput host bm m i op s = (t, some v)) :
    i ∈ activeRows host bm m s := by
  rw [mem_activeRows]
  refine ⟨op, hrow, fun hidle => ?_⟩
  have hnone := (hidle.decideOutput host bm m).1
  rw [h] at hnone
  cases hnone

/-- INTERNAL: a row in range that records a result makes the rows that are not idle lighter. -/
theorem activeWeight_commit_slot (hacyclic : Acyclic (Feeds bm))
    (hw : ∀ i, ∀ S : Finset ℕ, (∀ j ∈ S, Feeds bm i j) → ∑ j ∈ S, w j < w i)
    {i : ℕ} {op : BmOperation V} {s t : BmState V α} {v : V} (hrow : IsRow bm i op)
    (hap : op.operation ≠ lit "ap") (hslot : hasSlot op.outDeviceIndex = true)
    (htrap : ¬ NaNTrap host bm m s.cache) (h : decideOutput host bm m i op s = (t, some v)) :
    activeWeight host bm m w (commitOutput i op v t) < activeWeight host bm m w s := by
  classical
  refine marks_lighter (Feeds bm) (Finset.range bm.ops.length) w (fun k => ?_) _ _ i
    (active_of_result host bm m hrow h) fun j hj => ?_
  · exact hw k _ fun j hj => (Finset.mem_filter.mp hj).2
  · have hji : j ≠ i := by
      rintro rfl
      obtain ⟨op', hrow', hact⟩ := (mem_activeRows host bm m _ _).mp hj
      obtain rfl := hrow.unique hrow'
      refine hact (idle_of_commit host bm m hrow ?_
        (restsOn_of_no_trap host bm m hrow hap hslot htrap h) h)
      exact fun hself => hacyclic j (Relation.TransGen.single hself)
    rcases active_after_commit host bm m hrow h hji hj with hfeeds | hold
    · have hrange : j ∈ Finset.range bm.ops.length := by
        obtain ⟨op', hrow', -⟩ := (mem_activeRows host bm m _ _).mp hj
        exact Finset.mem_range.mpr (List.getElem?_eq_some_iff.mp hrow').1
      exact Or.inl ⟨hrange, hfeeds⟩
    · exact Or.inr ⟨hold, hji⟩

/-- INTERNAL: a row out of range that records a result wakes no row. -/
theorem activeWeight_commit_no_slot {i : ℕ} {op : BmOperation V} {s t : BmState V α} {v : V}
    (hrow : IsRow bm i op) (hslot : hasSlot op.outDeviceIndex = false)
    (h : decideOutput host bm m i op s = (t, some v)) :
    activeWeight host bm m w (commitOutput i op v t) ≤ activeWeight host bm m w s := by
  refine Finset.sum_le_sum_of_subset fun j hj => ?_
  by_cases hji : j = i
  · rw [hji]
    exact active_of_result host bm m hrow h
  · rcases active_after_commit host bm m hrow h hji hj with ⟨d, ⟨op', hrow', -, hd, hdev⟩, -⟩ | hold
    · obtain rfl := hrow.unique hrow'
      rw [hdev, hd] at hslot
      cases hslot
    · exact hold

end Weight

/-! ## Evaluations and runs return -/

/-- INTERNAL: **an evaluation of an acyclic table of built-in rows returns**, given room
enough, when no trap can come up.
SRCLINE: bm.c:660-752, bm.c:783-788 -/
theorem bmEvaluateAll_returns (hacyclic : Acyclic (Feeds bm)) (hbuiltin : AllBuiltin bm)
    (s : BmState V α) (htrap : TrapFree host bm m s.cache) :
    ∃ depth s', bmEvaluateAll host bm m depth s = .returned s' := by
  classical
  obtain ⟨w, hweight⟩ := hacyclic.exists_weight (Feeds bm) (Finset.range bm.ops.length) (by
    rintro i j ⟨d, -, op, hrow, -⟩
    exact Finset.mem_range.mpr (List.getElem?_eq_some_iff.mp hrow).1)
  have hw : ∀ i, ∀ S : Finset ℕ, (∀ j ∈ S, Feeds bm i j) → ∑ j ∈ S, w j < w i := by
    intro i S hS
    refine lt_of_le_of_lt (Finset.sum_le_sum_of_subset fun j hj => ?_) (hweight i)
    obtain ⟨d, -, op, hrow, -⟩ := hS j hj
    exact Finset.mem_filter.mpr
      ⟨Finset.mem_range.mpr (List.getElem?_eq_some_iff.mp hrow).1, hS j hj⟩
  have hrun := ReentrantLoop.run_returns (evaluateOp host bm m) bm.ops.zipIdx
    (fun t => CacheReach host bm m s.cache t.cache) (activeWeight host bm m w) ?_
    (activeWeight host bm m w s + 1) s Relation.ReflTransGen.refl (Nat.lt_succ_self _)
  · obtain ⟨s', hs', -⟩ := hrun
    exact ⟨_, s', hs'⟩
  rintro n nested hnested ⟨op, i⟩ hmem t hreach hn
  have hrow := (mem_rows_iff bm _).mp hmem
  unfold evaluateOp
  cases hdec : decideOutput host bm m i op t with
  | mk t' res =>
    cases res with
    | none =>
      have hcache : t'.cache = t.cache := by
        rw [← decideOutput_cache host bm m i op t, hdec]
      exact ⟨t', rfl, hcache ▸ hreach, activeWeight_look host bm m w hrow hdec⟩
    | some v =>
      have hap := hbuiltin i op hrow (enabled_of_result host bm m hdec)
      have hreach' := hreach.trans (cacheReach_commit host bm m hrow hdec)
      dsimp only
      by_cases hslot : hasSlot op.outDeviceIndex = true
      · have hlt := activeWeight_commit_slot host bm m w hacyclic hw hrow hap hslot
          (htrap _ hreach) hdec
        obtain ⟨u, hu, hureach, hule⟩ := hnested _ hreach' (lt_of_lt_of_le hlt hn)
        refine ⟨sendPut i op v u, ?_, ?_, ?_⟩
        · rw [if_pos hslot, hu]
          rfl
        · rw [(sendPut_frame i op v u).1]
          exact hureach
        · rw [activeWeight_send]
          exact hule.trans hlt.le
      · have hle := activeWeight_commit_no_slot host bm m w hrow (by simpa using hslot) hdec
        refine ⟨sendPut i op v (commitOutput i op v t'), ?_, ?_, ?_⟩
        · rw [if_neg hslot]
          rfl
        · rw [(sendPut_frame i op v _).1]
          exact hreach'
        · rw [activeWeight_send]
          exact hle

/-! ## A trap that comes up does not let go -/

/-- INTERNAL: a trap has a result to record whatever it remembers. -/
theorem decideOutput_trap {i : ℕ} {op : BmOperation V} {s : BmState V α} {vs : List V} {v : V}
    (hap : op.operation ≠ lit "ap") (hmay : MayRecord host bm m s.cache i op vs v)
    (hnan : ∃ x ∈ vs, eq x x = false) (hv : ∀ x, eq v x = false) :
    (decideOutput host bm m i op s).2 = some v := by
  obtain ⟨raw, hraw, hadj⟩ := hmay.result
  unfold OperationGives at hraw
  rw [if_neg hap] at hraw
  subst hraw
  have hch := inputsChanged_of_nan (s.mem i) vs hnan
  have hnew : outputUnchanged (s.mem i) v = false := by
    unfold outputUnchanged
    split
    · rfl
    · exact hv _
  have hgate : (decide (op.outDestObject = []) || outputAuthorized host bm m op) = true := by
    simpa using hmay.gate
  rw [decideOutput_result host bm m i op s vs hmay.operands, if_pos hch,
    computeResult_builtin host i op vs _ hap]
  unfold gatedResult
  simp only [Option.bind_some, hadj, Option.filter_some, hnew, hgate]
  rfl

/-- INTERNAL: **with a trap whose upstream rows rest, no evaluation returns**, whatever the
room.
SRCLINE: bm.c:739-752, bm.c:776-782 -/
theorem bmEvaluateAll_diverges {i : ℕ} {op : BmOperation V} {s : BmState V α} {vs : List V}
    {v : V} (hap : op.operation ≠ lit "ap")
    (hmay : MayRecord host bm m s.cache i op vs v) (hnan : ∃ x ∈ vs, eq x x = false)
    (hv : ∀ x, eq v x = false) (hidle : AllIdle host bm m (Upstream bm i) s)
    (depth : ℕ) (s' : BmState V α) : bmEvaluateAll host bm m depth s ≠ .returned s' := by
  have hU := upstream_upClosed bm i
  let Stuck : BmState V α → Prop := Undisturbed host bm m (Upstream bm i) s
  have hrest : ∀ t j op' t' v', Stuck t → IsRow bm j op' →
      decideOutput host bm m j op' t = (t', some v') → Stuck (commitOutput j op' v' t') := by
    intro t j op' t' v' ht hrow' hdec
    have hlook := Undisturbed.look host bm m _ j op' t hrow' ht.idle
    rw [hdec] at hlook
    exact (ht.trans host bm m _ hlook).record host bm m _ hU j op' s t' v' hrow'
      (ht.idle.not_mem_of_result host bm m _ hrow' hdec) (enabled_of_result host bm m hdec)
  refine ReentrantLoop.run_stuck (evaluateOp host bm m) bm.ops.zipIdx Stuck (op, i)
    ((mem_rows_iff bm _).mpr hmay.row) ?_ ?_ depth s s'
    (Undisturbed.refl host bm m _ hidle)
  · rintro nested hnested ⟨op', j⟩ hmem t t' ht hret
    have hrow' := (mem_rows_iff bm _).mp hmem
    rcases evaluateOp_returned host bm m nested j op' t t' hret with
      hnone | ⟨u, v', hdec, ⟨-, rfl⟩ | ⟨-, w, hw, -⟩⟩
    · have hlook := Undisturbed.look host bm m _ j op' t hrow' ht.idle
      rw [hnone] at hlook
      exact ht.trans host bm m _ hlook
    · exact (hrest t j op' u v' ht hrow' hdec).send host bm m _ j op' s _ v'
        (ht.idle.not_mem_of_result host bm m _ hrow' hdec)
    · exact absurd hw (hnested _ w (hrest t j op' u v' ht hrow' hdec))
  · intro nested hnested t t' ht hret
    have hoperands := Undisturbed.rowOperands host bm m hmay.row ht
    have hmay' : MayRecord host bm m t.cache i op vs v :=
      { hmay with operands := hoperands.trans hmay.operands }
    have hdec := decideOutput_trap host bm m hap hmay' hnan hv
    rcases evaluateOp_returned host bm m nested i op t t' hret with
      hnone | ⟨u, v', hdec', ⟨hslot, -⟩ | ⟨-, w, hw, -⟩⟩
    · rw [hnone] at hdec
      cases hdec
    · rw [hmay.slot] at hslot
      cases hslot
    · exact hnested _ w (hrest t i op u v' ht hmay.row hdec') hw

/-! ## Runs -/

/-- The condition under which a message is safe to take in a state: it is no report, or
the cache it leaves behind leads to no trap. -/
def MessageSafe (s : BmState V α) : Prop :=
  isReport m = true → TrapFree host bm m (takeReading bm m s).cache

/-- INTERNAL: a safe message is handled to the end. -/
theorem bmProcessorHandle_returns (hacyclic : Acyclic (Feeds bm)) (hbuiltin : AllBuiltin bm)
    (s : BmState V α) (hsafe : MessageSafe host bm m s) :
    ∃ depth s', bmProcessorHandle host bm m depth s = .returned s' := by
  by_cases hrep : isReport m = true
  · by_cases hstored : (storeReading bm m (readingOf m : V) s.cache).2 = true
    · obtain ⟨depth, s', hrun⟩ := bmEvaluateAll_returns host bm m hacyclic hbuiltin
        (takeReading bm m s) (hsafe hrep)
      refine ⟨depth, s', ?_⟩
      unfold bmProcessorHandle
      rw [if_neg (by simp [hrep]), if_pos hstored, hrun]
    · refine ⟨0, takeReading bm m s, ?_⟩
      unfold bmProcessorHandle
      rw [if_neg (by simp [hrep]), if_neg hstored]
  · refine ⟨0, s, ?_⟩
    unfold bmProcessorHandle
    rw [if_pos (by simp [hrep])]

/-- Every run over an acyclic table of built-in rows goes to its end, when each message is
safe in the state it finds.
SRCLINE: bm.c:660-752, bm.c:992-1081 -/
theorem runMessages_returns (hacyclic : Acyclic (Feeds bm)) (hbuiltin : AllBuiltin bm)
    (ms : List HesClmeMsg) (s : BmState V α)
    (hsafe : ∀ done m rest t, ms = done ++ m :: rest → RunMessages host bm done s t →
      MessageSafe host bm m t) :
    ∃ s', RunMessages host bm ms s s' := by
  induction ms generalizing s with
  | nil => exact ⟨s, RunMessages.nil s⟩
  | cons m rest ih =>
    obtain ⟨depth, t, ht⟩ := bmProcessorHandle_returns host bm m hacyclic hbuiltin s
      (hsafe [] m rest s rfl (RunMessages.nil s))
    obtain ⟨s', hs'⟩ := ih t fun done m' rest' u hsplit hdone =>
      hsafe (m :: done) m' rest' u (by rw [hsplit]; rfl) (RunMessages.cons depth ht hdone)
    exact ⟨s', RunMessages.cons depth ht hs'⟩

/-! ## A sum with one reading -/

/-- A row that hands a reading on to an internal device. -/
def sumRow : BmOperation Binary64 where
  operation := lit "ad"
  inputs := [{ deviceIndex := 1, sourceObject := lit "/lx/ob/uo/hv/ts/as/cv" }]
  outDeviceIndex := 2

/-- A map with that row only. -/
def sumMap : BindingMap Binary64 := { ops := [sumRow] }

/-- A report of the row's sensor. -/
def sensed (payload : CStr) : HesClmeMsg :=
  { verb := .event, deviceIndex := 1, path := lit "/lx/ob/uo/hv/ts/as/cv", payload := payload }

/-- INTERNAL: the only row is the only row. -/
theorem sumMap_row {i : ℕ} {op : BmOperation Binary64} (h : IsRow sumMap i op) :
    i = 0 ∧ op = sumRow := by
  cases i with
  | zero => exact ⟨rfl, (Option.some.inj h).symm⟩
  | succ i => simp [IsRow, sumMap] at h

/-- INTERNAL: nothing feeds anything there. -/
theorem sumMap_no_feeds (i j : ℕ) : ¬ Feeds sumMap i j := by
  rintro ⟨d, ⟨op, hi, -, -, hout⟩, op', hj, -, inp, hinp, hin⟩
  obtain ⟨-, rfl⟩ := sumMap_row hi
  obtain ⟨-, rfl⟩ := sumMap_row hj
  obtain rfl := List.mem_singleton.mp hinp
  have hsame : (2 : ℕ) = 1 := hout.trans hin.symm
  omega

/-- INTERNAL: so there is no cycle. -/
theorem sumMap_acyclic : Acyclic (Feeds sumMap) :=
  acyclic_of_rank (Feeds sumMap) (fun _ => 0) fun i j h => absurd h (sumMap_no_feeds i j)

/-- INTERNAL: the row is built in. -/
theorem sumMap_builtin : AllBuiltin sumMap := by
  intro i op hrow _
  obtain ⟨-, rfl⟩ := sumMap_row hrow
  decide

/-- The reading "nan" is never handled to the end. -/
theorem sumMap_never_returns :
    Acyclic (Feeds sumMap) ∧ AllBuiltin sumMap ∧
      Reachable (BmHost.unwired Binary64) sumMap (BmState.initial ()) ∧
      isReport (sensed (lit "nan")) = true ∧
      ∀ depth s', bmProcessorHandle (BmHost.unwired Binary64) sumMap (sensed (lit "nan")) depth
        (BmState.initial ()) ≠ .returned s' := by
  refine ⟨sumMap_acyclic, sumMap_builtin, ReachableBy.init sumMap (), by decide, ?_⟩
  intro depth s'
  let nan : Binary64 := readingOf (sensed (lit "nan"))
  have hstart : bmProcessorHandle (BmHost.unwired Binary64) sumMap (sensed (lit "nan")) depth
      (BmState.initial ()) = bmEvaluateAll (BmHost.unwired Binary64) sumMap (sensed (lit "nan")) depth
        (takeReading sumMap (sensed (lit "nan")) (BmState.initial ())) := rfl
  have hisNaN : Binary64.isNaN (Binary64.add nan (Binary64.pack false 0)) = true := by decide
  have hnever : ∀ x, eq (Binary64.add nan (Binary64.pack false 0)) x = false := by
    intro x
    simp [CDouble.eq, Binary64.eq, hisNaN]
  have hmay : MayRecord (BmHost.unwired Binary64) sumMap (sensed (lit "nan"))
      (takeReading sumMap (sensed (lit "nan")) (BmState.initial (V := Binary64) ())).cache 0
      sumRow [nan] (Binary64.add nan (Binary64.pack false 0)) :=
    { row := rfl
      operands := rfl
      result := ⟨_, rfl, rfl⟩
      slot := rfl
      gate := Or.inl rfl }
  rw [hstart]
  refine bmEvaluateAll_diverges (BmHost.unwired Binary64) sumMap (sensed (lit "nan")) (by decide) hmay
    ⟨nan, by simp, by decide⟩ hnever ?_ depth s'
  intro j hj
  obtain ⟨k, -, hk⟩ := Relation.TransGen.tail'_iff.mp hj
  exact absurd hk (sumMap_no_feeds k 0)

/-- The reading "5" is: a run of `runMessages_returns`. -/
theorem runMessages_returns_sum :
    Acyclic (Feeds sumMap) ∧ AllBuiltin sumMap ∧
      (∀ done m rest t, [sensed (lit "5")] = done ++ m :: rest →
        RunMessages (BmHost.unwired Binary64) sumMap done (BmState.initial ()) t →
        MessageSafe (BmHost.unwired Binary64) sumMap m t) ∧
      ∃ s', RunMessages (BmHost.unwired Binary64) sumMap [sensed (lit "5")] (BmState.initial ()) s' := by
  have hsafe : ∀ done m rest t, [sensed (lit "5")] = done ++ m :: rest →
      RunMessages (BmHost.unwired Binary64) sumMap done (BmState.initial ()) t →
      MessageSafe (BmHost.unwired Binary64) sumMap m t := by
    intro done m rest t hsplit hrun _ cache hreach
    obtain ⟨rfl, rfl⟩ : done = [] ∧ m = sensed (lit "5") := by
      cases done with
      | nil => exact ⟨rfl, (List.cons.inj hsplit).1.symm⟩
      | cons a done => simp at hsplit
    cases hrun
    -- nobody writes the sensor's device, so it holds the reading
    have hread : cache 1 = some (readingOf (sensed (lit "5"))) := by
      induction hreach with
      | refl => rfl
      | tail _ hstep ih =>
        obtain ⟨i, op, vs, v, hmay, rfl⟩ := hstep
        obtain ⟨-, rfl⟩ := sumMap_row hmay.row
        rw [← ih]
        exact Function.update_of_ne (by decide) _ _
    rintro ⟨i, op, vs, v, hmay, ⟨x, hx, hxx⟩, -⟩
    obtain ⟨-, rfl⟩ := sumMap_row hmay.row
    have hoperands := rowOperands_congr sumMap sumRow
      (takeReading sumMap (sensed (lit "5")) (BmState.initial (V := Binary64) ())).cache cache (by
        intro inp hinp
        obtain rfl := List.mem_singleton.mp hinp
        exact hread)
    rw [hmay.operands] at hoperands
    have hvs : vs = [readingOf (sensed (lit "5"))] := Option.some.inj hoperands
    rw [hvs, List.mem_singleton] at hx
    rw [hx] at hxx
    exact absurd hxx (by decide)
  exact ⟨sumMap_acyclic, sumMap_builtin, hsafe, runMessages_returns (BmHost.unwired Binary64) sumMap
    sumMap_acyclic sumMap_builtin [sensed (lit "5")] (BmState.initial ()) hsafe⟩

end OpenHes.Analysis
