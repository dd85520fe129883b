import OpenHes.Analysis.Settling

/-!
# What an evaluation of the table does for one row

When the rows upstream of a row rest, an evaluation of the whole table does for the row
what one look at it does, no matter which other rows commit and how deep the table is
evaluated again meanwhile: the row decides once, sends once, and rests.
-/

set_option autoImplicit false

namespace OpenHes.Analysis

open OpenHes.Library OpenHes.Model
open CDouble

variable {V α : Type} [CDouble V]

/-! ## PUTs of a row in a trace -/

section Puts

omit [CDouble V]

/-- INTERNAL: the PUTs of a trace in two parts. -/
@[simp] theorem putsOf_append (i : ℕ) (first second : List (BmEvent V)) :
    putsOf i (first ++ second) = putsOf i first ++ putsOf i second := by
  simp [putsOf]

/-- INTERNAL: events that do nothing for the row hold no PUT of it. -/
theorem putsOf_of_not_actedOn (i : ℕ) (evs : List (BmEvent V))
    (h : ∀ e ∈ evs, ¬ ActedOn i e) : putsOf i evs = [] := by
  refine List.filterMap_eq_nil_iff.mpr fun e he => ?_
  cases e with
  | put row msg valid => exact if_neg (h _ he)
  | _ => rfl

end Puts

variable (host : BmHost V α) (bm : BindingMap V) (m : HesClmeMsg)

omit [CDouble V] in
/-- INTERNAL: untouched rows send nothing. -/
theorem Untouched.putsOf_eq {U : Set ℕ} {s t : BmState V α} {i : ℕ} (hi : i ∈ U)
    (h : Untouched bm U s t) : putsOf i t.trace = putsOf i s.trace := by
  obtain ⟨evs, htrace, hact⟩ := h.trace
  rw [htrace, putsOf_append, putsOf_of_not_actedOn i evs fun e he => hact e he i hi,
    List.append_nil]

/-- INTERNAL: a look at any row sends nothing. -/
theorem decideOutput_putsOf (i j : ℕ) (op : BmOperation V) (s : BmState V α) :
    putsOf j (decideOutput host bm m i op s).1.trace = putsOf j s.trace := by
  obtain ⟨calls, hcalls, htrace⟩ := decideOutput_trace host bm m i op s
  rw [htrace, putsOf_append, putsOf_of_not_actedOn j _ (lookEvents_forall host
    (fun e => ¬ ActedOn j e) i calls _ hcalls (fun _ => id) (fun _ _ _ => id) fun _ _ _ => id),
    List.append_nil]

omit [CDouble V] in
/-- INTERNAL: recording sends nothing. -/
theorem commitOutput_putsOf (i j : ℕ) (op : BmOperation V) (v : V) (s : BmState V α) :
    putsOf j (commitOutput i op v s).trace = putsOf j s.trace := by
  change putsOf j (s.trace ++ _) = _
  rw [putsOf_append]
  exact List.append_nil _

/-- INTERNAL: taking a reading sends nothing. -/
theorem takeReading_putsOf (m : HesClmeMsg) (i : ℕ) (s : BmState V α) :
    putsOf i (takeReading bm m s).trace = putsOf i s.trace := by
  change putsOf i (s.trace ++ [.report m]) = _
  rw [putsOf_append]
  exact List.append_nil _

/-- The PUTs a row sends for a result. -/
def sentFor (op : BmOperation V) : Option V → List HesClmeMsg
  | none => []
  | some v => if op.outDestObject = [] then [] else [putMessage op v]

/-- INTERNAL: sending adds the row's PUT, and nobody else's. -/
theorem sendPut_putsOf (i j : ℕ) (op : BmOperation V) (v : V) (s : BmState V α) :
    putsOf j (sendPut i op v s).trace =
      putsOf j s.trace ++ if j = i then sentFor op (some v) else [] := by
  unfold sendPut sentFor
  by_cases hdest : op.outDestObject = []
  · simp [hdest]
  · by_cases hji : j = i
    · simp [hdest, hji, BmState.log, putsOf, putOf]
    · simp [hdest, hji, Ne.symm hji, BmState.log, putsOf, putOf]

/-! ## Rows at rest with their operands -/

/-- The operation of the row gives `f` of the operands, whatever went before. -/
def Computes (op : BmOperation V) (f : List V → Option V) : Prop :=
  ∀ i vs (s : BmState V α), (computeResult host i op vs s).2 = f vs

/-- INTERNAL: built-in operations do. -/
theorem computes_builtin (op : BmOperation V) (hap : op.operation ≠ lit "ap") :
    Computes host op fun vs => some (builtinResult op vs) := by
  intro i vs s
  rw [computeResult_builtin host i op vs s hap]

/-- Having read these operands the row comes to rest: they hold no NaN, or the row is built
in and computes none. -/
def RestsOn (op : BmOperation V) (vs : List V) : Prop :=
  (∀ x ∈ vs, eq x x = true) ∨ op.operation ≠ lit "ap" ∧
    ∀ v, applyCondition op.outAdjustment (builtinResult op vs) = some v → eq v v = true

/-- INTERNAL: a row rests when nothing came of its operands, unless an app read a NaN. -/
theorem idle_of_look {i : ℕ} {op : BmOperation V} {s t : BmState V α}
    (hrest : op.operation = lit "ap" →
      ∀ vs, rowOperands bm s.cache op = some vs → ∀ x ∈ vs, eq x x = true)
    (h : decideOutput host bm m i op s = (t, none)) :
    Idle host bm m op (t.mem i) t.cache := by
  have ht : t = (decideOutput host bm m i op s).1 := by rw [h]
  have hlook := settled_of_look host bm m i op s
  rw [← ht] at hlook
  intro vs hvs hch
  have hnow : rowOperands bm s.cache op = some vs := by
    rw [ht, decideOutput_cache] at hvs
    exact hvs
  by_cases hap : op.operation = lit "ap"
  · rw [(inputsChanged_settled _ vs (hlook vs hvs)).mpr (hrest hap vs hnow)] at hch
    cases hch
  · have hidle := (idle_of_no_result host bm m (s := s) (i := i) hap (by rw [h])).look
      host bm m hnow
    have hmem : t.mem i = { s.mem i with lastOperands := some vs } := by
      rw [ht, decideOutput_mem, hnow]
      simp [lookedMem]
    rw [← hmem] at hidle
    exact hidle vs hnow hch

/-- INTERNAL: recording a result leaves the operands of a row that does not feed itself. -/
theorem rowOperands_commit {i : ℕ} {op : BmOperation V} {s t : BmState V α} {v : V}
    (hrow : IsRow bm i op) (hself : ¬ Feeds bm i i)
    (h : decideOutput host bm m i op s = (t, some v)) :
    rowOperands bm (commitOutput i op v t).cache op = rowOperands bm s.cache op := by
  have hen := enabled_of_result host bm m h
  have hcache : t.cache = s.cache := by
    rw [← decideOutput_cache host bm m i op s, h]
  rw [← hcache]
  refine rowOperands_congr bm op _ _ fun inp hinp => ?_
  refine commitOutput_cache_ne i _ op v t fun hslot hdev => hself ?_
  exact ⟨inp.deviceIndex, ⟨op, hrow, hen, hdev ▸ hslot, hdev.symm⟩,
    ⟨op, hrow, hen, inp, hinp, rfl⟩⟩

/-- INTERNAL: it rests when their result was recorded.
SRCLINE: bm.c:666-680, bm.c:700-702 -/
theorem idle_of_commit {i : ℕ} {op : BmOperation V} {s t : BmState V α} {v : V}
    (hrow : IsRow bm i op) (hself : ¬ Feeds bm i i)
    (hrest : ∀ vs, rowOperands bm s.cache op = some vs → RestsOn op vs)
    (h : decideOutput host bm m i op s = (t, some v)) :
    Idle host bm m op ((commitOutput i op v t).mem i) (commitOutput i op v t).cache := by
  obtain ⟨vs, raw, hvs, -, hraw, hadj, -⟩ := decideOutput_some host bm m i op s t v h
  have hmem : t.mem i = { s.mem i with lastOperands := some vs } := by
    have hlook := congrFun (decideOutput_mem host bm m i op s) i
    rw [h, hvs] at hlook
    simpa [lookedMem] using hlook
  intro vs' hvs' hch
  rw [rowOperands_commit host bm m hrow hself h] at hvs'
  obtain rfl : vs = vs' := Option.some.inj (hvs.symm.trans hvs')
  rw [commitOutput_mem_self, hmem] at hch ⊢
  rcases hrest vs hvs with hnum | ⟨hap, hnum⟩
  · have hunch := (inputsChanged_settled
      ({ lastOutput := some v, lastOperands := some vs } : OpMemory V) vs rfl).mpr hnum
    exact absurd hch (by simp [hunch])
  · refine ⟨hap, ?_⟩
    rw [computeResult_builtin host i op vs _ hap] at hraw
    obtain rfl := Option.some.inj hraw
    unfold gatedResult
    simp [hadj, outputUnchanged, hnum v hadj]

/-! ## One row through an evaluation of the table -/

/-- The result a row that computes `f` has to record, on these operands. -/
def decision (op : BmOperation V) (f : List V → Option V) (mem : OpMemory V)
    (operands : Option (List V)) : Option V :=
  operands.bind fun vs =>
    if inputsChanged mem vs then gatedResult host bm m op mem (f vs) else none

/-- INTERNAL: it is what the look decides. -/
theorem decideOutput_decision {op : BmOperation V} {f : List V → Option V}
    (hf : Computes host op f) (i : ℕ) (s : BmState V α) :
    (decideOutput host bm m i op s).2 =
      decision host bm m op f (s.mem i) (rowOperands bm s.cache op) := by
  cases hvs : rowOperands bm s.cache op with
  | none => rw [decideOutput_no_operands host bm m i op s hvs]; rfl
  | some vs => rw [decideOutput_result host bm m i op s vs hvs, hf i vs]; rfl

/-- INTERNAL: with its own index added, the upstream rows of an idle row are all idle. -/
theorem allIdle_insert {i : ℕ} {op : BmOperation V} {U : Set ℕ} {s : BmState V α}
    (hrow : IsRow bm i op) (hi : Idle host bm m op (s.mem i) s.cache)
    (hU : AllIdle host bm m U s) : AllIdle host bm m (insert i U) s := by
  rintro j (rfl | hj) op' hrow'
  · rw [← hrow.unique hrow']
    exact hi
  · exact hU j hj op' hrow'

/-- The row was looked at once: it rests, remembers the result that was decided on, and sent
it. -/
structure RowDone (i : ℕ) (op : BmOperation V) (result : Option V) (s t : BmState V α) :
    Prop where
  idle : AllIdle host bm m (insert i (Upstream bm i)) t
  upstream : Undisturbed host bm m (Upstream bm i) s t
  lastOutput : (t.mem i).lastOutput = result.or (s.mem i).lastOutput
  sent : putsOf i t.trace = putsOf i s.trace ++ sentFor op result

/-- The row was not looked at yet. -/
structure RowPending (i : ℕ) (s t : BmState V α) : Prop where
  upstream : Undisturbed host bm m (Upstream bm i) s t
  mem : t.mem i = s.mem i
  sent : putsOf i t.trace = putsOf i s.trace

/-- INTERNAL: a row that was dealt with stays so. -/
theorem RowDone.trans {i : ℕ} {op : BmOperation V} {result : Option V} {s t u : BmState V α}
    (h : RowDone host bm m i op result s t)
    (hrest : Undisturbed host bm m (insert i (Upstream bm i)) t u) :
    RowDone host bm m i op result s u := by
  have hup := hrest.mono host bm m _ (Set.subset_insert i (Upstream bm i))
  exact
    { idle := hrest.idle
      upstream := h.upstream.trans host bm m _ hup
      lastOutput := (hrest.lastOutput i (Or.inl rfl)).trans h.lastOutput
      sent := (hrest.putsOf_eq bm (Or.inl rfl)).trans h.sent }

/-- INTERNAL: **the row's turn.** Evaluating the row itself deals with it. -/
theorem evaluateOp_row_done {i : ℕ} {op : BmOperation V} {f : List V → Option V}
    (hrow : IsRow bm i op) (hf : Computes host op f) {s t t' : BmState V α}
    (hrest : ∀ vs, rowOperands bm s.cache op = some vs → RestsOn op vs)
    (ht : RowPending host bm m i s t) (depth : ℕ)
    (h : evaluateOp host bm m (bmEvaluateAll host bm m depth) (op, i) t = .returned t') :
    RowDone host bm m i op (decision host bm m op f (s.mem i) (rowOperands bm s.cache op)) s t' := by
  have hoperands := Undisturbed.rowOperands host bm m hrow ht.upstream
  have hdecided := decideOutput_decision host bm m hf i t
  rw [hoperands, ht.mem] at hdecided
  have hrest' : ∀ vs, rowOperands bm t.cache op = some vs → RestsOn op vs := by
    rw [hoperands]
    exact hrest
  have hlook := Undisturbed.look host bm m (Upstream bm i) i op t hrow ht.upstream.idle
  have hlast := decideOutput_lastOutput host bm m i i op t
  have hputs := decideOutput_putsOf host bm m i i op t
  rcases evaluateOp_returned host bm m _ i op t t' h with
    hnone | ⟨c, v, hdec, hcase⟩
  · rw [hnone] at hlook hlast hputs hdecided
    have hidle := idle_of_look host bm m (fun hap vs hvs =>
      (hrest' vs hvs).resolve_right fun hbuiltin => hbuiltin.1 hap) hnone
    rw [← hdecided]
    exact
      { idle := allIdle_insert host bm m hrow hidle hlook.idle
        upstream := ht.upstream.trans host bm m _ hlook
        lastOutput := by rw [hlast, ht.mem]; rfl
        sent := by rw [hputs, ht.sent]; simp [sentFor] }
  · rw [hdec] at hlook hputs hdecided
    rw [← hdecided]
    have hi := ht.upstream.idle.not_mem_of_result host bm m _ hrow hdec
    have hself : ¬ Feeds bm i i := fun hfeeds => hi (Relation.TransGen.single hfeeds)
    have hU := upstream_upClosed bm i
    have hrec := hlook.record host bm m _ hU i op t c v hrow hi (enabled_of_result host bm m hdec)
    have hidle := idle_of_commit host bm m hrow hself hrest' hdec
    have hall := allIdle_insert host bm m hrow hidle hrec.idle
    -- what is left to do is to send, from a state in which nothing more was done to the row
    have hsend : ∀ u, Undisturbed host bm m (insert i (Upstream bm i)) (commitOutput i op v c) u →
        RowDone host bm m i op (some v) s (sendPut i op v u) := by
      intro u hu
      obtain ⟨hcache, hmem, -⟩ := sendPut_frame i op v u
      have hup := hu.mono host bm m _ (Set.subset_insert i (Upstream bm i))
      have hsofar := ht.upstream.trans host bm m _ (hrec.trans host bm m _ hup)
      refine ⟨?_, hsofar.send host bm m _ i op s u v hi, ?_, ?_⟩
      · intro j hj op' hrow'
        rw [hmem, hcache]
        exact hu.idle j hj op' hrow'
      · rw [hmem, hu.lastOutput i (Or.inl rfl), commitOutput_mem_self]
        rfl
      · rw [sendPut_putsOf, if_pos rfl, hu.putsOf_eq bm (Or.inl rfl),
          commitOutput_putsOf, hputs, ht.sent]
    rcases hcase with ⟨-, rfl⟩ | ⟨-, u, hu, rfl⟩
    · exact hsend _ (Undisturbed.refl host bm m _ hall)
    · have hin := bmEvaluateAll_undisturbed host bm m _ (insert_upstream_upClosed bm i) depth _ hall
      rw [hu] at hin
      exact hsend u hin

/-- INTERNAL: **other rows' turns.** Evaluating another row leaves the row pending, or a
nested evaluation of the table deals with it. -/
theorem evaluateOp_row_pending {i j : ℕ} {op op' : BmOperation V} {result : Option V}
    (hrow' : IsRow bm j op') (hji : j ≠ i) {s t t' : BmState V α}
    (ht : RowPending host bm m i s t) (depth : ℕ)
    (hnested : ∀ t u, RowPending host bm m i s t →
      bmEvaluateAll host bm m depth t = .returned u → RowDone host bm m i op result s u)
    (h : evaluateOp host bm m (bmEvaluateAll host bm m depth) (op', j) t = .returned t') :
    RowPending host bm m i s t' ∨ RowDone host bm m i op result s t' := by
  have hlook := Undisturbed.look host bm m (Upstream bm i) j op' t hrow' ht.upstream.idle
  have hmem := decideOutput_mem_ne host bm m j i op' t (Ne.symm hji)
  have hputs := decideOutput_putsOf host bm m j i op' t
  rcases evaluateOp_returned host bm m _ j op' t t' h with
    hnone | ⟨c, v, hdec, hcase⟩
  · rw [hnone] at hlook hmem hputs
    exact Or.inl
      { upstream := ht.upstream.trans host bm m _ hlook
        mem := hmem.trans ht.mem
        sent := hputs.trans ht.sent }
  · rw [hdec] at hlook hmem hputs
    have hj := ht.upstream.idle.not_mem_of_result host bm m _ hrow' hdec
    have hrec := hlook.record host bm m _ (upstream_upClosed bm i) j op' t c v hrow' hj
      (enabled_of_result host bm m hdec)
    have hpending : RowPending host bm m i s (commitOutput j op' v c) :=
      { upstream := ht.upstream.trans host bm m _ hrec
        mem := by rw [commitOutput_mem_ne j i op' v c (Ne.symm hji)]; exact hmem.trans ht.mem
        sent := by rw [commitOutput_putsOf]; exact hputs.trans ht.sent }
    have hsent : ∀ u : BmState V α, putsOf i (sendPut j op' v u).trace = putsOf i u.trace := by
      intro u
      rw [sendPut_putsOf, if_neg (Ne.symm hji), List.append_nil]
    rcases hcase with ⟨-, rfl⟩ | ⟨-, u, hu, rfl⟩
    · refine Or.inl ⟨hpending.upstream.send host bm m _ j op' s _ v hj, ?_, ?_⟩
      · rw [(sendPut_frame j op' v _).2.1]
        exact hpending.mem
      · exact (hsent _).trans hpending.sent
    · obtain ⟨hcache, hmemSend, -⟩ := sendPut_frame j op' v u
      have hdone := hnested _ u hpending hu
      refine Or.inr ⟨?_, hdone.upstream.send host bm m _ j op' s u v hj, ?_, ?_⟩
      · intro k hk op'' hrow''
        rw [hmemSend, hcache]
        exact hdone.idle k hk op'' hrow''
      · rw [hmemSend]
        exact hdone.lastOutput
      · exact (hsent u).trans hdone.sent

/-- INTERNAL: **one row through an evaluation of the table.** With its upstream rows at
rest, an evaluation that returns has dealt with the row exactly once.
SRCLINE: bm.c:624-788 -/
theorem bmEvaluateAll_row_done {i : ℕ} {op : BmOperation V} {f : List V → Option V}
    (hrow : IsRow bm i op) (hf : Computes host op f) (depth : ℕ) (s s' : BmState V α)
    (hrest : ∀ vs, rowOperands bm s.cache op = some vs → RestsOn op vs)
    (hidle : AllIdle host bm m (Upstream bm i) s)
    (h : bmEvaluateAll host bm m depth s = .returned s') :
    RowDone host bm m i op (decision host bm m op f (s.mem i) (rowOperands bm s.cache op)) s s' := by
  let Done : BmState V α → Prop := RowDone host bm m i op
    (decision host bm m op f (s.mem i) (rowOperands bm s.cache op)) s
  refine ReentrantLoop.run_pass (evaluateOp host bm m) bm.ops.zipIdx (RowPending host bm m i s)
    (fun _ => Done) (fun _ rest t => (op, i) ∈ rest ∧ RowPending host bm m i s t ∨ Done t)
    ?_ ?_ ?_ depth s s' ?_ h
  · intro t ht
    exact Or.inl ⟨(mem_rows_iff bm (op, i)).mpr hrow, ht⟩
  · rintro - t (⟨hmem, -⟩ | hdone)
    · cases hmem
    · exact hdone
  · rintro depth hnested front ⟨op', j⟩ rest hrows - t t' ht hret
    have hrow' : IsRow bm j op' := (mem_rows_iff bm (op', j)).mp (by rw [hrows]; simp)
    rcases ht with ⟨hmem, ht⟩ | hdone
    · by_cases hji : j = i
      · subst hji
        obtain rfl := hrow.unique hrow'
        exact Or.inr (evaluateOp_row_done host bm m hrow hf hrest ht depth hret)
      · have hrest' : (op, i) ∈ rest := by
          rcases List.mem_cons.mp hmem with heq | hmem
          · exact absurd (Prod.mk.inj heq).2 (Ne.symm hji)
          · exact hmem
        rcases evaluateOp_row_pending host bm m hrow' hji ht depth hnested hret with hp | hd
        · exact Or.inl ⟨hrest', hp⟩
        · exact Or.inr hd
    · exact Or.inr (hdone.trans host bm m (evaluateOp_undisturbed host bm m _
        (insert_upstream_upClosed bm i) depth hrow' hdone.idle hret))
  · exact
      { upstream := Undisturbed.refl host bm m _ hidle
        mem := rfl
        sent := rfl }

end OpenHes.Analysis
