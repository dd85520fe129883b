import OpenHes.Library.AcyclicRelation
import OpenHes.Analysis.Steps
import Mathlib.Data.List.Forall2

/-!
# The dataflow of a table, and rows at rest

Row `i` feeds row `j` when `i` writes a device that `j` reads. A row is idle when its
evaluation comes to nothing: it does not run, its operands are what they were, or a
built-in operation gives nothing new that may go out. Only a row that feeds it can wake
an idle row.
-/

set_option autoImplicit false

namespace OpenHes.Analysis

open OpenHes.Library OpenHes.Model
open CDouble

variable {V α : Type} [CDouble V]

section Graph

omit [CDouble V]

variable (bm : BindingMap V)

/-- Row `i` writes device `d` of the value cache. -/
def WritesDevice (i d : ℕ) : Prop :=
  ∃ op, IsRow bm i op ∧ op.enabled = true ∧ hasSlot d = true ∧ op.outDeviceIndex = d

/-- Row `i` reads device `d` of the value cache. -/
def ReadsDevice (i d : ℕ) : Prop :=
  ∃ op, IsRow bm i op ∧ op.enabled = true ∧ ∃ inp ∈ op.inputs, inp.deviceIndex = d

/-- The result of row `i` is an input of row `j`. -/
def Feeds (i j : ℕ) : Prop := ∃ d, WritesDevice bm i d ∧ ReadsDevice bm j d

/-- INTERNAL: a table whose rows can be ranked along the dataflow is acyclic. -/
theorem acyclic_of_ranked_rows (rank : ℕ → ℕ)
    (h : ∀ row ∈ bm.ops.zipIdx, ∀ row' ∈ bm.ops.zipIdx,
      (row.1.enabled && row'.1.enabled && hasSlot row.1.outDeviceIndex &&
        row'.1.inputs.any fun inp => inp.deviceIndex = row.1.outDeviceIndex) = true →
      rank row.2 < rank row'.2) : Acyclic (Feeds bm) := by
  refine acyclic_of_rank (Feeds bm) rank ?_
  rintro i j ⟨d, ⟨op, hi, hen, hslot, hdev⟩, op', hj, hen', inp, hinp, hdev'⟩
  refine h (op, i) ((mem_rows_iff bm _).mpr hi) (op', j) ((mem_rows_iff bm _).mpr hj) ?_
  simp only [hen, hen', hdev, hslot, Bool.true_and, List.any_eq_true, decide_eq_true_eq]
  exact ⟨inp, hinp, hdev'⟩

end Graph

/-! ## Operands -/

/-- INTERNAL: the conditioning loop, input by input. -/
theorem conditionInputs_forall₂ (cache : ValueCache V) (inputs : List BmInput) (vs : List V)
    (h : conditionInputs cache inputs = some vs) :
    List.Forall₂ (fun inp v => applyCondition inp.condition
      ((cache inp.deviceIndex).getD zero) = some v) inputs vs := by
  induction inputs generalizing vs with
  | nil =>
    obtain rfl := Option.some.inj h
    exact List.Forall₂.nil
  | cons inp rest ih =>
    unfold conditionInputs at h
    split at h
    · cases h
    next v hv =>
      obtain ⟨ws, hws, rfl⟩ := Option.map_eq_some_iff.mp h
      exact List.Forall₂.cons hv (ih ws hws)

/-- INTERNAL: the conditioning loop reads the devices of its inputs only. -/
theorem conditionInputs_congr (cache cache' : ValueCache V) (inputs : List BmInput)
    (h : ∀ inp ∈ inputs, cache' inp.deviceIndex = cache inp.deviceIndex) :
    conditionInputs cache' inputs = conditionInputs cache inputs := by
  induction inputs with
  | nil => rfl
  | cons inp rest ih =>
    unfold conditionInputs
    rw [h inp (by simp), ih fun inp' hmem => h inp' (by simp [hmem])]

/-- INTERNAL: a conditioning loop that gives operands met no 'bk'. -/
theorem conditionInputs_open (cache : ValueCache V) (inputs : List BmInput) (vs : List V)
    (h : conditionInputs cache inputs = some vs) :
    ∀ inp ∈ inputs, inp.condition ≠ lit "bk" := by
  induction inputs generalizing vs with
  | nil => simp
  | cons inp rest ih =>
    unfold conditionInputs at h
    split at h
    · simp at h
    next v hv =>
      obtain ⟨ws, hws, -⟩ := Option.map_eq_some_iff.mp h
      intro inp' hmem
      rcases List.mem_cons.mp hmem with rfl | hmem
      · intro hbk
        rw [hbk] at hv
        exact absurd hv (by simp [applyCondition, lit])
      · exact ih ws hws inp' hmem

/-- INTERNAL: what a row with operands has passed.
SRCLINE: bm.c:473-493, bm.c:626-645 -/
theorem rowOperands_ready (bm : BindingMap V) (op : BmOperation V) (cache : ValueCache V) (vs : List V)
    (h : rowOperands bm cache op = some vs) :
    op.enabled = true ∧ op.inputs ≠ [] ∧
      (∀ inp ∈ op.inputs, (bm.authzDisabled = false → inp.authorType ≠ lit "bk") ∧
        inp.condition ≠ lit "bk" ∧ hasSlot inp.deviceIndex = true ∧
        (cache inp.deviceIndex).isSome = true) := by
  unfold rowOperands at h
  split at h
  · simp at h
  next hready =>
    simp only [Bool.or_eq_true, Bool.not_eq_true', not_or, Bool.not_eq_false] at hready
    obtain ⟨henabled, hop⟩ := hready
    unfold opReady at hop
    simp only [Bool.and_eq_true, Bool.not_eq_true', List.isEmpty_eq_false_iff,
      List.all_eq_true] at hop
    refine ⟨henabled, hop.1, ?_⟩
    intro inp hinp
    obtain ⟨⟨hat, hslot⟩, hvalid⟩ := hop.2 inp hinp
    refine ⟨?_, conditionInputs_open cache op.inputs vs h inp hinp, hslot, hvalid⟩
    intro hauthz
    simpa [hauthz] using hat

/-- INTERNAL: the operands of a row depend on the devices of its inputs only. -/
theorem rowOperands_congr (bm : BindingMap V) (op : BmOperation V) (cache cache' : ValueCache V)
    (h : ∀ inp ∈ op.inputs, cache' inp.deviceIndex = cache inp.deviceIndex) :
    rowOperands bm cache' op = rowOperands bm cache op := by
  have hready : opReady bm cache' op = opReady bm cache op := by
    unfold opReady
    congr 1
    rw [Bool.eq_iff_iff, List.all_eq_true, List.all_eq_true]
    exact forall₂_congr fun inp hinp => by rw [h inp hinp]
  unfold rowOperands
  rw [hready, conditionInputs_congr cache cache' op.inputs h]

/-- INTERNAL: a disabled row does not run. -/
theorem rowOperands_disabled (bm : BindingMap V) (op : BmOperation V) (cache : ValueCache V)
    (h : op.enabled = false) : rowOperands bm cache op = none := by
  simp [rowOperands, h]

/-- INTERNAL: operands that count as unchanged are no NaNs. -/
theorem self_equal_of_unchanged (mem : OpMemory V) (vs : List V)
    (h : inputsChanged mem vs = false) : ∀ v ∈ vs, eq v v = true := by
  unfold inputsChanged at h
  split at h
  · simp at h
  next old hold =>
    simp only [Bool.or_eq_false_iff, decide_eq_false_iff_not, not_not, List.any_eq_false,
      Bool.not_eq_true', Bool.not_eq_false] at h
    intro v hv
    obtain ⟨k, hk, rfl⟩ := List.getElem_of_mem hv
    have hko : k < old.length := by omega
    have hpair : (old[k], vs[k]) ∈ old.zip vs := by
      have hkz : k < (old.zip vs).length := by simp [hko, hk]
      have hget := List.getElem_mem hkz
      rwa [List.getElem_zip] at hget
    exact eq_refl_right _ _ (h.2 _ hpair)

/-- INTERNAL: operands with a NaN are changed, whatever was noted. -/
theorem inputsChanged_of_nan (mem : OpMemory V) (vs : List V) (h : ∃ x ∈ vs, eq x x = false) :
    inputsChanged mem vs = true := by
  obtain ⟨x, hx, hno⟩ := h
  by_contra hunchanged
  have hself := self_equal_of_unchanged mem vs (Bool.eq_false_of_not_eq_true hunchanged) x hx
  rw [hno] at hself
  cases hself

/-- INTERNAL: operands compared with themselves are unchanged exactly when none is a NaN. -/
theorem inputsChanged_settled (mem : OpMemory V) (vs : List V) (h : mem.lastOperands = some vs) :
    inputsChanged mem vs = false ↔ ∀ v ∈ vs, eq v v = true := by
  constructor
  · exact self_equal_of_unchanged mem vs
  · intro hself
    unfold inputsChanged
    rw [h]
    simp only [ne_eq, not_true_eq_false, decide_false, Bool.false_or, List.any_eq_false,
      Bool.not_eq_true', Bool.not_eq_false]
    rintro ⟨a, b⟩ hmem
    obtain ⟨k, hk, hkeq⟩ := List.getElem_of_mem hmem
    rw [List.getElem_zip] at hkeq
    obtain ⟨rfl, rfl⟩ := Prod.mk.inj hkeq
    exact hself _ (List.getElem_mem _)

/-! ## Idle rows -/

section Idle

variable (host : BmHost V α) (bm : BindingMap V) (m : HesClmeMsg)

/-- Nothing comes of evaluating the row. An app is left alone only while its operands
count as unchanged. -/
def Idle (op : BmOperation V) (mem : OpMemory V) (cache : ValueCache V) : Prop :=
  ∀ vs, rowOperands bm cache op = some vs → inputsChanged mem vs = true →
    op.operation ≠ lit "ap" ∧
      gatedResult host bm m op mem (some (builtinResult op vs)) = none

/-- INTERNAL: a disabled row is idle. -/
theorem idle_of_disabled (op : BmOperation V) (mem : OpMemory V) (cache : ValueCache V)
    (h : op.enabled = false) : Idle host bm m op mem cache := by
  intro vs hvs
  rw [rowOperands_disabled bm op cache h] at hvs
  cases hvs

/-- INTERNAL: evaluating an idle row gives no result and leaves the app alone. -/
theorem Idle.decideOutput {i : ℕ} {op : BmOperation V} {s : BmState V α}
    (h : Idle host bm m op (s.mem i) s.cache) :
    (decideOutput host bm m i op s).2 = none ∧
      (decideOutput host bm m i op s).1.app = s.app := by
  cases hvs : rowOperands bm s.cache op with
  | none => simp [decideOutput_no_operands host bm m i op s hvs]
  | some vs =>
    have hres := decideOutput_result host bm m i op s vs hvs
    by_cases hch : inputsChanged (s.mem i) vs = true
    · obtain ⟨hap, hgate⟩ := h vs hvs hch
      rw [if_pos hch, computeResult_builtin host i op vs _ hap] at hres
      refine ⟨hres.trans hgate, ?_⟩
      unfold Model.decideOutput
      rw [hvs]
      simp only [hch, if_true]
      rw [computeResult_builtin host i op vs _ hap, (gateOutput_frame host bm m i op _ _).2.2]
      rfl
    · rw [if_neg hch] at hres
      refine ⟨hres, ?_⟩
      unfold Model.decideOutput
      simp [hvs, hch, BmState.readOperands]

/-- INTERNAL: an idle row is idle after it was looked at. -/
theorem Idle.look {op : BmOperation V} {mem : OpMemory V} {cache : ValueCache V} {vs : List V}
    (h : Idle host bm m op mem cache) (hvs : rowOperands bm cache op = some vs) :
    Idle host bm m op { mem with lastOperands := some vs } cache := by
  intro vs' hvs' hch
  obtain rfl : vs = vs' := Option.some.inj (hvs.symm.trans hvs')
  by_cases hold : inputsChanged mem vs = true
  · obtain ⟨hap, hgate⟩ := h vs hvs hold
    refine ⟨hap, ?_⟩
    rw [← hgate]
    exact gatedResult_congr host bm m op _ _ _ rfl
  · have hself := self_equal_of_unchanged mem vs (by simpa using hold)
    rw [(inputsChanged_settled _ vs rfl).mpr hself] at hch
    cases hch

/-- INTERNAL: a built-in row whose evaluation gave no result is idle. -/
theorem idle_of_no_result {i : ℕ} {op : BmOperation V} {s : BmState V α}
    (hap : op.operation ≠ lit "ap") (h : (Model.decideOutput host bm m i op s).2 = none) :
    Idle host bm m op (s.mem i) s.cache := by
  intro vs hvs hch
  have hres := decideOutput_result host bm m i op s vs hvs
  rw [h, if_pos hch, computeResult_builtin host i op vs _ hap] at hres
  exact ⟨hap, hres.symm⟩

/-- INTERNAL: a row whose operands are the remembered ones and hold no NaN is idle. -/
theorem idle_of_settled {op : BmOperation V} {mem : OpMemory V} {cache : ValueCache V}
    (h : ∀ vs, rowOperands bm cache op = some vs →
      mem.lastOperands = some vs ∧ ∀ v ∈ vs, eq v v = true) :
    Idle host bm m op mem cache := by
  intro vs hvs hch
  obtain ⟨hold, hself⟩ := h vs hvs
  rw [(inputsChanged_settled mem vs hold).mpr hself] at hch
  cases hch

/-- INTERNAL: an idle row stays idle while its input devices keep their values. -/
theorem Idle.congr {op : BmOperation V} {mem : OpMemory V} {cache cache' : ValueCache V}
    (h : Idle host bm m op mem cache)
    (hcache : op.enabled = true → ∀ inp ∈ op.inputs,
      cache' inp.deviceIndex = cache inp.deviceIndex) :
    Idle host bm m op mem cache' := by
  by_cases hen : op.enabled = true
  · unfold Idle
    rw [rowOperands_congr bm op cache cache' (hcache hen)]
    exact h
  · exact idle_of_disabled host bm m op mem cache' (by simpa using hen)

/-- INTERNAL: recording the result of row `i` wakes no row that `i` does not feed. -/
theorem Idle.commit {i j : ℕ} {op op' : BmOperation V} {s : BmState V α} {v : V}
    (hi : IsRow bm i op) (hen : op.enabled = true) (hj : IsRow bm j op') (hij : j ≠ i)
    (hfeeds : ¬ Feeds bm i j) (h : Idle host bm m op' (s.mem j) s.cache) :
    Idle host bm m op' ((commitOutput i op v s).mem j) (commitOutput i op v s).cache := by
  rw [commitOutput_mem_ne i j op v s hij]
  refine h.congr host bm m fun hen' inp hinp => ?_
  refine commitOutput_cache_ne i _ op v s fun hslot hdev => ?_
  exact hfeeds ⟨inp.deviceIndex, ⟨op, hi, hen, hdev ▸ hslot, hdev.symm⟩,
    ⟨op', hj, hen', inp, hinp, rfl⟩⟩

end Idle

/-! ## The caches a table can fill in -/

section Caches

variable (host : BmHost V α) (bm : BindingMap V) (m : HesClmeMsg)

/-- `raw` is a result the operation of the row may give on the operands `vs`: the built-in
one, or an answer of the app in some state of it. -/
def OperationGives (op : BmOperation V) (vs : List V) (raw : V) : Prop :=
  if op.operation = lit "ap" then
    ∃ call a, host.appOperation = some call ∧ (call a op (appOperands op vs)).2.1 = some raw
  else raw = builtinResult op vs

/-- While `m` is processed, row `i` may record `v` over the cache, having read `vs`. -/
structure MayRecord (cache : ValueCache V) (i : ℕ) (op : BmOperation V) (vs : List V)
    (v : V) : Prop where
  row : IsRow bm i op
  operands : rowOperands bm cache op = some vs
  result : ∃ raw, OperationGives host op vs raw ∧ applyCondition op.outAdjustment raw = some v
  slot : hasSlot op.outDeviceIndex = true
  gate : op.outDestObject = [] ∨ outputAuthorized host bm m op = true

/-- One row's result goes from one cache to the next. -/
def CacheStep (cache cache' : ValueCache V) : Prop :=
  ∃ i op vs v, MayRecord host bm m cache i op vs v ∧
    cache' = Function.update cache op.outDeviceIndex (some v)

/-- The caches the rows can make of a cache, while `m` is processed. -/
abbrev CacheReach : ValueCache V → ValueCache V → Prop :=
  Relation.ReflTransGen (CacheStep host bm m)

/-- INTERNAL: what an operation gave is something it may give. -/
theorem operationGives_of_result {i : ℕ} {op : BmOperation V} {vs : List V} {s : BmState V α}
    {raw : V} (h : (computeResult host i op vs s).2 = some raw) : OperationGives host op vs raw := by
  unfold OperationGives
  unfold computeResult at h
  split
  next hap =>
    rw [if_pos hap] at h
    cases hcall : host.appOperation with
    | none => simp [hcall] at h
    | some call =>
      rw [hcall] at h
      exact ⟨call, _, rfl, h⟩
  next hap =>
    rw [if_neg hap] at h
    exact (Option.some.inj h).symm

/-- INTERNAL: a result the evaluator decided on is one the row may record. -/
theorem mayRecord_of_result {i : ℕ} {op : BmOperation V} {s t : BmState V α} {v : V}
    (hrow : IsRow bm i op) (hslot : hasSlot op.outDeviceIndex = true)
    (h : decideOutput host bm m i op s = (t, some v)) :
    ∃ vs, MayRecord host bm m s.cache i op vs v := by
  obtain ⟨vs, raw, hvs, -, hraw, hadj, -, hgate⟩ := decideOutput_some host bm m i op s t v h
  exact ⟨vs, hrow, hvs, ⟨raw, operationGives_of_result host hraw, hadj⟩, hslot, hgate⟩

/-- INTERNAL: recording a result is a step of the caches. -/
theorem cacheReach_commit {i : ℕ} {op : BmOperation V} {s t : BmState V α} {v : V}
    (hrow : IsRow bm i op) (h : decideOutput host bm m i op s = (t, some v)) :
    CacheReach host bm m s.cache (commitOutput i op v t).cache := by
  have hcache : t.cache = s.cache := by
    rw [← decideOutput_cache host bm m i op s, h]
  by_cases hslot : hasSlot op.outDeviceIndex = true
  · obtain ⟨vs, hmay⟩ := mayRecord_of_result host bm m hrow hslot h
    refine Relation.ReflTransGen.single ⟨i, op, vs, v, hmay, ?_⟩
    simp [commitOutput, hslot, hcache]
  · rw [commitOutput_cache_no_slot i op v t (by simpa using hslot), hcache]

/-- The rows keep to the caches of `C`, while `m` is processed. -/
def StepClosed (C : Set (ValueCache V)) : Prop :=
  ∀ cache ∈ C, ∀ cache', CacheStep host bm m cache cache' → cache' ∈ C

/-- On the caches of `C` the row has nothing to record: whatever its operation may give there
is the output it remembers, or is blocked or refused. -/
def Barren (C : Set (ValueCache V)) (op : BmOperation V) (mem : OpMemory V) : Prop :=
  ∀ cache ∈ C, ∀ vs raw, rowOperands bm cache op = some vs → OperationGives host op vs raw →
    gatedResult host bm m op mem (some raw) = none

/-- INTERNAL: of a row's memory only the last output counts. -/
theorem Barren.congr {C : Set (ValueCache V)} {op : BmOperation V} {mem mem' : OpMemory V}
    (h : Barren host bm m C op mem) (hmem : mem'.lastOutput = mem.lastOutput) :
    Barren host bm m C op mem' := by
  intro cache hcache vs raw hvs hraw
  rw [gatedResult_congr host bm m op mem mem' _ hmem]
  exact h cache hcache vs raw hvs hraw

/-- INTERNAL: the caches that can be made of one are such a set. -/
theorem stepClosed_cacheReach (cache : ValueCache V) :
    StepClosed host bm m { cache' | CacheReach host bm m cache cache' } :=
  fun _ hreach _ hstep => Relation.ReflTransGen.tail hreach hstep

/-- INTERNAL: what can be made of a cache of such a set is in it. -/
theorem StepClosed.reach {C : Set (ValueCache V)} (hC : StepClosed host bm m C)
    {cache cache' : ValueCache V} (hs : cache ∈ C) (h : CacheReach host bm m cache cache') :
    cache' ∈ C := by
  induction h with
  | refl => exact hs
  | tail _ hstep ih => exact hC _ ih _ hstep

/-- INTERNAL: recording a result keeps to the caches of `C`. -/
theorem StepClosed.commit {C : Set (ValueCache V)} (hC : StepClosed host bm m C) {i : ℕ}
    {op : BmOperation V} {s t : BmState V α} {v : V} (hrow : IsRow bm i op) (hs : s.cache ∈ C)
    (h : decideOutput host bm m i op s = (t, some v)) : (commitOutput i op v t).cache ∈ C :=
  hC.reach host bm m hs (cacheReach_commit host bm m hrow h)

/-- INTERNAL: a barren row has no result. -/
theorem Barren.no_result {C : Set (ValueCache V)} {i : ℕ} {op : BmOperation V}
    {mem : OpMemory V} {s t : BmState V α} {v : V} (h : Barren host bm m C op mem)
    (hs : s.cache ∈ C) (hmem : (s.mem i).lastOutput = mem.lastOutput) :
    decideOutput host bm m i op s ≠ (t, some v) := by
  intro hdec
  obtain ⟨vs, raw, hvs, hch, hraw, -⟩ := decideOutput_some host bm m i op s t v hdec
  have hres := decideOutput_result host bm m i op s vs hvs
  rw [hdec, if_pos hch, hraw, gatedResult_congr host bm m op mem (s.mem i) _ hmem,
    h _ hs vs raw hvs (operationGives_of_result host hraw)] at hres
  cases hres

end Caches

end OpenHes.Analysis
