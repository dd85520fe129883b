import OpenHes.Model.Evaluator

/-!
# What one evaluation of a row does

`decideOutput` looks at a row: it reads operands, overwrites the row's operand history
and decides on a result, and it touches neither the value cache nor any other row.
`commitOutput` and `sendPut` then write the cache and the bus. The lemmas below say so
once; the two rules at the end carry them through the re-entrant evaluation.
-/

set_option autoImplicit false

namespace OpenHes.Analysis

open OpenHes.Library OpenHes.Model
open CDouble

variable {V α : Type} [CDouble V]

/-! ## Rows -/

/-- `op` is the row with index `i` of the table. -/
def IsRow (bm : BindingMap V) (i : ℕ) (op : BmOperation V) : Prop := bm.ops[i]? = some op

omit [CDouble V] in
/-- INTERNAL: the rows a pass visits. -/
theorem mem_rows_iff (bm : BindingMap V) (row : BmOperation V × ℕ) :
    row ∈ bm.ops.zipIdx ↔ IsRow bm row.2 row.1 := List.mem_zipIdx_iff_getElem?

omit [CDouble V] in
/-- INTERNAL: an index names one row. -/
theorem IsRow.unique {bm : BindingMap V} {i : ℕ} {op op' : BmOperation V}
    (h : IsRow bm i op) (h' : IsRow bm i op') : op = op' := by
  unfold IsRow at h h'
  rw [h] at h'
  exact Option.some.inj h'

/-! ## Looking at a row -/

/-- What a built-in operation makes of the operands of a row. -/
def builtinResult (op : BmOperation V) (vs : List V) : V :=
  applyOperation op.operation (operandA vs) (operandB op vs)

/-- The result a row records when its operation gave `raw`: adjusted, new, and let
through by the output gates. -/
def gatedResult (host : BmHost V α) (bm : BindingMap V) (m : HesClmeMsg) (op : BmOperation V)
    (mem : OpMemory V) (raw : Option V) : Option V :=
  (raw.bind (applyCondition op.outAdjustment)).filter fun result =>
    !outputUnchanged mem result && (op.outDestObject = [] || outputAuthorized host bm m op)

/-- The app answers a call with these operand records by putting `sent` on the bus. -/
def AppSends (host : BmHost V α) (records : List (BmOperand V)) (sent : List HesClmeMsg) : Prop :=
  ∃ call a op, host.appOperation = some call ∧ sent = (call a op records).2.2

/-- A call of one of the hooks for row `i`. -/
def IsHookCall (host : BmHost V α) (i : ℕ) : BmEvent V → Prop
  | .appCall row records sent => row = i ∧ AppSends host records sent
  | .authCall row _ _ _ => row = i
  | _ => False

/-- What looking at row `i` notes: the operands, then the hook calls. -/
def lookEvents (i : ℕ) (calls : List (BmEvent V)) : Option (List V) → List (BmEvent V)
  | none => []
  | some vs => .operands i vs :: calls

/-- The change detectors after a look at row `i` on the operands `vs`. -/
def lookedMem (mem : ℕ → OpMemory V) (i : ℕ) : Option (List V) → ℕ → OpMemory V
  | none => mem
  | some vs => Function.update mem i { mem i with lastOperands := some vs }

variable (host : BmHost V α) (bm : BindingMap V) (m : HesClmeMsg)

/-- INTERNAL: an operation touches neither the value cache nor a change detector. -/
theorem computeResult_frame (i : ℕ) (op : BmOperation V) (vs : List V) (s : BmState V α) :
    (computeResult host i op vs s).1.cache = s.cache ∧
      (computeResult host i op vs s).1.mem = s.mem := by
  unfold computeResult
  split
  · split <;> exact ⟨rfl, rfl⟩
  · exact ⟨rfl, rfl⟩

/-- INTERNAL: a built-in operation changes nothing and always has a result. -/
theorem computeResult_builtin (i : ℕ) (op : BmOperation V) (vs : List V) (s : BmState V α)
    (hop : op.operation ≠ lit "ap") :
    computeResult host i op vs s = (s, some (builtinResult op vs)) := by
  unfold computeResult
  rw [if_neg hop]
  rfl

/-- INTERNAL: an operation notes at most a call of the app. -/
theorem computeResult_trace (i : ℕ) (op : BmOperation V) (vs : List V) (s : BmState V α) :
    ∃ evs, (computeResult host i op vs s).1.trace = s.trace ++ evs ∧
      ∀ e ∈ evs, IsHookCall host i e := by
  unfold computeResult
  split
  · split
    · exact ⟨[], by simp⟩
    next call hcall =>
      refine ⟨_, rfl, ?_⟩
      intro e he
      rw [List.mem_singleton.mp he]
      exact ⟨rfl, call, s.app, op, hcall, rfl⟩
  · exact ⟨[], by simp⟩

/-- INTERNAL: the gates touch the trace only. -/
theorem gateOutput_frame (i : ℕ) (op : BmOperation V) (raw : Option V) (s : BmState V α) :
    (gateOutput host bm m i op raw s).1.cache = s.cache ∧
      (gateOutput host bm m i op raw s).1.mem = s.mem ∧
      (gateOutput host bm m i op raw s).1.app = s.app := by
  unfold gateOutput
  split
  · exact ⟨rfl, rfl, rfl⟩
  · split_ifs <;> exact ⟨rfl, rfl, rfl⟩

/-- INTERNAL: the gates let a result through exactly when it is adjusted, new and
authorized. -/
theorem gateOutput_result (i : ℕ) (op : BmOperation V) (raw : Option V) (s : BmState V α) :
    (gateOutput host bm m i op raw s).2 = gatedResult host bm m op (s.mem i) raw := by
  unfold gateOutput gatedResult
  cases raw.bind (applyCondition op.outAdjustment) with
  | none => rfl
  | some result =>
    simp only [Option.filter_some]
    by_cases hun : outputUnchanged (s.mem i) result = true
    · simp [hun]
    · by_cases hdest : op.outDestObject = []
      · simp [hun, hdest]
      · by_cases hauth : outputAuthorized host bm m op = true
        · simp [hun, hdest, hauth]
        · simp [hun, hdest, hauth]

/-- INTERNAL: the gates note at most a call of the authorization hook. -/
theorem gateOutput_trace (i : ℕ) (op : BmOperation V) (raw : Option V) (s : BmState V α) :
    ∃ evs, (gateOutput host bm m i op raw s).1.trace = s.trace ++ evs ∧
      ∀ e ∈ evs, IsHookCall host i e := by
  have hauth : ∀ e ∈ authEvents host bm m i op, IsHookCall host i e := by
    intro e he
    unfold authEvents at he
    split at he
    · rw [List.mem_singleton.mp he]
      rfl
    · simp at he
  unfold gateOutput
  split
  · exact ⟨[], by simp⟩
  · split_ifs
    · exact ⟨[], by simp⟩
    · exact ⟨[], by simp⟩
    · exact ⟨_, rfl, hauth⟩
    · exact ⟨_, rfl, hauth⟩

/-- INTERNAL: looking at a row leaves the value cache alone. -/
@[simp] theorem decideOutput_cache (i : ℕ) (op : BmOperation V) (s : BmState V α) :
    (decideOutput host bm m i op s).1.cache = s.cache := by
  unfold decideOutput
  split
  · rfl
  · split
    · rw [(gateOutput_frame host bm m i op _ _).1, (computeResult_frame host i op _ _).1]
      rfl
    · rfl

/-- INTERNAL: looking at a row overwrites its operand history, and no other change
detector.
SRCLINE: bm.c:662-676 -/
theorem decideOutput_mem (i : ℕ) (op : BmOperation V) (s : BmState V α) :
    (decideOutput host bm m i op s).1.mem = lookedMem s.mem i (rowOperands bm s.cache op) := by
  unfold decideOutput
  split
  next hvs => rw [hvs]; rfl
  next vs hvs =>
    rw [hvs]
    split
    · rw [(gateOutput_frame host bm m i op _ _).2.1, (computeResult_frame host i op _ _).2]
      rfl
    · rfl

/-- INTERNAL: what looking at a row notes. -/
theorem decideOutput_trace (i : ℕ) (op : BmOperation V) (s : BmState V α) :
    ∃ calls, (∀ e ∈ calls, IsHookCall host i e) ∧ (decideOutput host bm m i op s).1.trace =
      s.trace ++ lookEvents i calls (rowOperands bm s.cache op) := by
  unfold decideOutput
  split
  next hvs => exact ⟨[], by simp, by simp [hvs, lookEvents]⟩
  next vs hvs =>
    rw [hvs]
    split
    · obtain ⟨called, hcalled, hhook⟩ := computeResult_trace host i op vs (s.readOperands i vs)
      obtain ⟨gated, hgated, hhook'⟩ := gateOutput_trace host bm m i op
        (computeResult host i op vs (s.readOperands i vs)).2
        (computeResult host i op vs (s.readOperands i vs)).1
      refine ⟨called ++ gated, ?_, ?_⟩
      · intro e he
        rcases List.mem_append.mp he with he | he
        · exact hhook e he
        · exact hhook' e he
      · rw [hgated, hcalled]
        simp [BmState.readOperands, lookEvents]
    · exact ⟨[], by simp, rfl⟩

omit [CDouble V] in
/-- INTERNAL: an assertion about events that holds of operands read and of hook calls holds
of what a look notes. -/
theorem lookEvents_forall (P : BmEvent V → Prop) (i : ℕ) (calls : List (BmEvent V))
    (operands : Option (List V)) (hcalls : ∀ e ∈ calls, IsHookCall host i e)
    (hread : ∀ vs, P (.operands i vs))
    (happ : ∀ records sent, AppSends host records sent → P (.appCall i records sent))
    (hauth : ∀ m addr verdict, P (.authCall i m addr verdict)) :
    ∀ e ∈ lookEvents i calls operands, P e := by
  intro e he
  cases operands with
  | none => simp [lookEvents] at he
  | some vs =>
    rcases List.mem_cons.mp he with rfl | he
    · exact hread vs
    · have hhook := hcalls e he
      cases e with
      | appCall row records sent =>
        obtain ⟨rfl, hsent⟩ : row = i ∧ AppSends host records sent := hhook
        exact happ records sent hsent
      | authCall row m addr verdict =>
        obtain rfl : row = i := hhook
        exact hauth m addr verdict
      | _ => exact hhook.elim

/-! ## What a look decides -/

/-- INTERNAL: of a row's memory the gates only read the last output. -/
theorem gatedResult_congr (op : BmOperation V) (mem mem' : OpMemory V) (raw : Option V)
    (hmem : mem'.lastOutput = mem.lastOutput) :
    gatedResult host bm m op mem' raw = gatedResult host bm m op mem raw := by
  unfold gatedResult outputUnchanged
  rw [hmem]

/-- INTERNAL: the result of a look, row operands and history first.
SRCLINE: bm.c:624-739 -/
theorem decideOutput_result (i : ℕ) (op : BmOperation V) (s : BmState V α) (vs : List V)
    (hvs : rowOperands bm s.cache op = some vs) :
    (decideOutput host bm m i op s).2 =
      if inputsChanged (s.mem i) vs then
        gatedResult host bm m op (s.mem i) (computeResult host i op vs (s.readOperands i vs)).2
      else none := by
  have hmem : ((computeResult host i op vs (s.readOperands i vs)).1.mem i).lastOutput =
      (s.mem i).lastOutput := by
    rw [(computeResult_frame host i op vs _).2]
    simp [BmState.readOperands]
  unfold decideOutput
  rw [hvs]
  by_cases hch : inputsChanged (s.mem i) vs = true
  · simp only [hch, if_true]
    rw [gateOutput_result, gatedResult_congr host bm m op _ _ _ hmem]
  · simp [hch]

/-- INTERNAL: a row that does not run decides nothing. -/
theorem decideOutput_no_operands (i : ℕ) (op : BmOperation V) (s : BmState V α)
    (hvs : rowOperands bm s.cache op = none) : decideOutput host bm m i op s = (s, none) := by
  unfold decideOutput
  rw [hvs]

/-- INTERNAL: what it takes for a row to have a result to record. -/
theorem decideOutput_some (i : ℕ) (op : BmOperation V) (s t : BmState V α) (v : V)
    (h : decideOutput host bm m i op s = (t, some v)) :
    ∃ vs raw, rowOperands bm s.cache op = some vs ∧ inputsChanged (s.mem i) vs = true ∧
      (computeResult host i op vs (s.readOperands i vs)).2 = some raw ∧
      applyCondition op.outAdjustment raw = some v ∧ outputUnchanged (s.mem i) v = false ∧
      (op.outDestObject = [] ∨ outputAuthorized host bm m op = true) := by
  cases hvs : rowOperands bm s.cache op with
  | none => simp [decideOutput_no_operands host bm m i op s hvs] at h
  | some vs =>
    have hres := decideOutput_result host bm m i op s vs hvs
    rw [h] at hres
    split at hres
    next hch =>
      unfold gatedResult at hres
      have hfilter := Option.filter_eq_some_iff.mp hres.symm
      obtain ⟨raw, hraw, hadj⟩ := Option.bind_eq_some_iff.mp hfilter.1
      refine ⟨vs, raw, rfl, hch, hraw, hadj, ?_⟩
      simpa using hfilter.2
    next => simp at hres

/-! ## Recording and sending -/

omit [CDouble V] in
/-- INTERNAL: recording a result leaves the other rows' change detectors alone. -/
theorem commitOutput_mem_ne (i j : ℕ) (op : BmOperation V) (v : V) (s : BmState V α)
    (hj : j ≠ i) : (commitOutput i op v s).mem j = s.mem j := by
  simp [commitOutput, hj]

omit [CDouble V] in
/-- INTERNAL: recording a result is remembered as the row's last output. -/
@[simp] theorem commitOutput_mem_self (i : ℕ) (op : BmOperation V) (v : V) (s : BmState V α) :
    (commitOutput i op v s).mem i = { s.mem i with lastOutput := some v } := by
  simp [commitOutput]

omit [CDouble V] in
/-- INTERNAL: a row whose device has no slot leaves the value cache alone. -/
theorem commitOutput_cache_no_slot (i : ℕ) (op : BmOperation V) (v : V) (s : BmState V α)
    (hslot : hasSlot op.outDeviceIndex = false) : (commitOutput i op v s).cache = s.cache := by
  simp [commitOutput, hslot]

omit [CDouble V] in
/-- INTERNAL: recording a result changes one device of the value cache. -/
theorem commitOutput_cache_ne (i d : ℕ) (op : BmOperation V) (v : V) (s : BmState V α)
    (hd : hasSlot op.outDeviceIndex = true → d ≠ op.outDeviceIndex) :
    (commitOutput i op v s).cache d = s.cache d := by
  by_cases hslot : hasSlot op.outDeviceIndex = true
  · simp [commitOutput, hslot, hd hslot]
  · simp [commitOutput, hslot]

/-- INTERNAL: sending touches the trace only. -/
theorem sendPut_frame (i : ℕ) (op : BmOperation V) (v : V) (s : BmState V α) :
    (sendPut i op v s).cache = s.cache ∧ (sendPut i op v s).mem = s.mem ∧
      (sendPut i op v s).app = s.app := by
  unfold sendPut
  split <;> exact ⟨rfl, rfl, rfl⟩

/-! ## Rules for the evaluation -/

/-- INTERNAL: the three ways a row's evaluation returns: with nothing to record, with a
device that has no slot, and through a nested evaluation of the table. -/
theorem evaluateOp_returned (nested : BmState V α → Outcome (BmState V α)) (i : ℕ)
    (op : BmOperation V) (s s' : BmState V α)
    (h : evaluateOp host bm m nested (op, i) s = .returned s') :
    decideOutput host bm m i op s = (s', none) ∨
    ∃ t v, decideOutput host bm m i op s = (t, some v) ∧
      (hasSlot op.outDeviceIndex = false ∧ s' = sendPut i op v (commitOutput i op v t) ∨
       hasSlot op.outDeviceIndex = true ∧ ∃ u, nested (commitOutput i op v t) = .returned u ∧
        s' = sendPut i op v u) := by
  unfold evaluateOp at h
  cases hdec : decideOutput host bm m i op s with
  | mk t res =>
    simp only [hdec] at h
    cases res with
    | none => exact Or.inl (by simpa using h)
    | some v =>
      refine Or.inr ⟨t, v, rfl, ?_⟩
      obtain ⟨u, hu, hs'⟩ := (Outcome.andThen_eq_returned _ _ _).mp h
      have hs' : s' = sendPut i op v u := by simpa using hs'.symm
      by_cases hslot : hasSlot op.outDeviceIndex = true
      · rw [if_pos hslot] at hu
        exact Or.inr ⟨hslot, u, hu, hs'⟩
      · rw [if_neg hslot] at hu
        have hu : commitOutput i op v t = u := by simpa using hu
        exact Or.inl ⟨by simpa using hslot, hu ▸ hs'⟩

/-- INTERNAL: **preorder rule for the table.** A preorder that looks, records and sends
respect is respected by an evaluation of the table, whether it returns or not. -/
theorem bmEvaluateAll_rel (R : BmState V α → BmState V α → Prop) (refl : ∀ s, R s s)
    (trans : ∀ s t u, R s t → R t u → R s u)
    (look : ∀ i op s t, IsRow bm i op → decideOutput host bm m i op s = (t, none) → R s t)
    (record : ∀ i op s t v, IsRow bm i op → decideOutput host bm m i op s = (t, some v) →
      R s (commitOutput i op v t))
    (send : ∀ i op s t v u, IsRow bm i op → decideOutput host bm m i op s = (t, some v) →
      R (commitOutput i op v t) u → R s u → R s (sendPut i op v u))
    (depth : ℕ) (s : BmState V α) : R s (bmEvaluateAll host bm m depth s).state := by
  refine ReentrantLoop.run_rel (evaluateOp host bm m) bm.ops.zipIdx R refl trans ?_ depth s
  rintro nested hnested ⟨op, i⟩ hrow s
  have hrow := (mem_rows_iff bm _).mp hrow
  unfold evaluateOp
  cases hdec : decideOutput host bm m i op s with
  | mk t res =>
    cases res with
    | none => simpa [hdec] using look i op s t hrow hdec
    | some v =>
      have hrec := record i op s t v hrow hdec
      dsimp only
      by_cases hslot : hasSlot op.outDeviceIndex = true
      · rw [if_pos hslot]
        have hin := hnested (commitOutput i op v t)
        cases hout : nested (commitOutput i op v t) with
        | overrun u =>
          rw [hout] at hin
          exact trans _ _ _ hrec hin
        | returned u =>
          rw [hout] at hin
          exact send i op s t v u hrow hdec hin (trans _ _ _ hrec hin)
      · rw [if_neg hslot]
        exact send i op s t v _ hrow hdec (refl _) hrec

/-- INTERNAL: **event rule for the table.** An evaluation of the table adds to the trace;
an assertion that holds of whatever rows note holds of every event it adds. -/
theorem bmEvaluateAll_events (P : BmEvent V → Prop) (hread : ∀ i vs, P (.operands i vs))
    (happ : ∀ i records sent, AppSends host records sent → P (.appCall i records sent))
    (hauth : ∀ i m addr verdict, P (.authCall i m addr verdict))
    (hcommit : ∀ i d v, P (.commit i d v)) (hput : ∀ i m valid, P (.put i m valid))
    (depth : ℕ) (s : BmState V α) :
    ∃ evs, (bmEvaluateAll host bm m depth s).state.trace = s.trace ++ evs ∧ ∀ e ∈ evs, P e := by
  refine bmEvaluateAll_rel host bm m
    (fun s t => ∃ evs, t.trace = s.trace ++ evs ∧ ∀ e ∈ evs, P e) ?_ ?_ ?_ ?_ ?_ depth s
  · exact fun s => ⟨[], by simp, by simp⟩
  · rintro s t u ⟨evs, hevs, hall⟩ ⟨evs', hevs', hall'⟩
    refine ⟨evs ++ evs', by rw [hevs', hevs, List.append_assoc], ?_⟩
    intro e he
    rcases List.mem_append.mp he with he | he
    · exact hall e he
    · exact hall' e he
  · intro i op s t _ hdec
    obtain ⟨calls, hcalls, htrace⟩ := decideOutput_trace host bm m i op s
    rw [hdec] at htrace
    exact ⟨_, htrace, lookEvents_forall host P i calls _ hcalls (hread i) (happ i) (hauth i)⟩
  · intro i op s t v _ hdec
    obtain ⟨calls, hcalls, htrace⟩ := decideOutput_trace host bm m i op s
    rw [hdec] at htrace
    have htrace : t.trace = s.trace ++ lookEvents i calls (rowOperands bm s.cache op) := htrace
    refine ⟨lookEvents i calls (rowOperands bm s.cache op) ++ [.commit i op.outDeviceIndex v],
      by simp [commitOutput, htrace], ?_⟩
    intro e he
    rcases List.mem_append.mp he with he | he
    · exact lookEvents_forall host P i calls _ hcalls (hread i) (happ i) (hauth i) e he
    · rw [List.mem_singleton.mp he]
      exact hcommit i op.outDeviceIndex v
  · rintro i op s t v u - - - ⟨evs, hevs, hall⟩
    unfold sendPut
    split
    · exact ⟨evs, hevs, hall⟩
    · refine ⟨evs ++ [.put i (putMessage op v) fun di => (u.cache di).isSome],
        by simp [BmState.log, hevs], ?_⟩
      intro e he
      rcases List.mem_append.mp he with he | he
      · exact hall e he
      · rw [List.mem_singleton.mp he]
        exact hput i _ _

end OpenHes.Analysis
