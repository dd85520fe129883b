import OpenHes.Analysis.Attribution
import OpenHes.Analysis.Termination
import Mathlib.Data.Rat.Defs
import Mathlib.Algebra.Order.Ring.Rat

/-!
# The dataflow after a message

Over exact numbers, a table of built-in rows that each own their output device is
consistent whenever a message has been handled: each device a row writes holds the row's
function of the values its inputs have then. Two things are never lost on the way: a row
remembers the output that belongs to the operands it remembers, and its device holds it.
-/

set_option autoImplicit false

namespace OpenHes.Analysis

open OpenHes.Library OpenHes.Model
open CDouble

/-- Numbers without NaN, compared exactly. -/
class ExactDouble (V : Type) [CDouble V] : Prop where
  eq_iff : ∀ a b : V, eq a b = true ↔ a = b

variable {V α : Type} [CDouble V]

/-- A table of built-in rows, each with an output device of its own that no object reports,
whose dataflow has no cycle; authorization is off. -/
structure FeedForward (bm : BindingMap V) : Prop where
  acyclic : Acyclic (Feeds bm)
  builtin : AllBuiltin bm
  slots : ∀ i op, IsRow bm i op → op.enabled = true → hasSlot op.outDeviceIndex = true
  distinct : ∀ i j op op', IsRow bm i op → IsRow bm j op' → op.enabled = true →
    op'.enabled = true → op.outDeviceIndex = op'.outDeviceIndex → i = j
  internal : ∀ i op, IsRow bm i op → op.enabled = true → ∀ op' ∈ bm.ops, ∀ inp ∈ op'.inputs,
    inp.sourceObject ≠ [] → inp.deviceIndex ≠ op.outDeviceIndex
  authzDisabled : bm.authzDisabled = true

/-- What the enabled rows never lose: the remembered output belongs to the remembered
operands, and the row's device holds it. -/
structure OutputsKept (bm : BindingMap V) (s : BmState V α) : Prop where
  output : ∀ i op, IsRow bm i op → op.enabled = true → ∀ vs, (s.mem i).lastOperands = some vs →
    ∀ v, applyCondition op.outAdjustment (builtinResult op vs) = some v →
      (s.mem i).lastOutput = some v
  device : ∀ i op, IsRow bm i op → op.enabled = true → ∀ v, (s.mem i).lastOutput = some v →
    s.cache op.outDeviceIndex = some v

section Steps

variable [ExactDouble V] (host : BmHost V α) {bm : BindingMap V} (m : HesClmeMsg)

/-- INTERNAL: operands that count as unchanged are the remembered ones. -/
theorem lastOperands_of_unchanged {mem : OpMemory V} {vs : List V}
    (h : inputsChanged mem vs = false) : mem.lastOperands = some vs := by
  unfold inputsChanged at h
  split at h
  · cases h
  next old hold =>
    simp only [Bool.or_eq_false_iff, decide_eq_false_iff_not, not_not, List.any_eq_false,
      Bool.not_eq_true', Bool.not_eq_false] at h
    obtain ⟨hlen, hall⟩ := h
    rw [hold]
    congr 1
    refine List.ext_getElem hlen fun k hk hk' => ?_
    have hkz : k < (old.zip vs).length := by simp [hk, hk']
    have hpair := hall _ (List.getElem_mem hkz)
    rw [List.getElem_zip] at hpair
    exact (ExactDouble.eq_iff _ _).mp hpair

/-- INTERNAL: a look that comes to nothing loses no output. -/
theorem OutputsKept.look (hbm : FeedForward bm) {i : ℕ} {op : BmOperation V}
    {s t : BmState V α} (hrow : IsRow bm i op) (hs : OutputsKept bm s)
    (h : decideOutput host bm m i op s = (t, none)) : OutputsKept bm t := by
  have ht : t = (decideOutput host bm m i op s).1 := by rw [h]
  refine ⟨?_, ?_⟩
  · intro j op' hrow' hen vs hvs v hv
    rw [ht, decideOutput_lastOutput]
    rw [ht] at hvs
    by_cases hji : j = i
    · subst hji
      obtain rfl := hrow.unique hrow'
      rw [decideOutput_mem] at hvs
      cases hnow : rowOperands bm s.cache op with
      | none =>
        rw [hnow] at hvs
        exact hs.output j op hrow hen vs hvs v hv
      | some now =>
        rw [hnow] at hvs
        simp only [lookedMem, Function.update_self] at hvs
        obtain rfl := Option.some.inj hvs
        by_cases hch : inputsChanged (s.mem j) now = true
        · -- new operands without a result: the result was the old one
          have hres := decideOutput_result host bm m j op s now hnow
          rw [h, if_pos hch, computeResult_builtin host j op now _
            (hbm.builtin j op hrow hen)] at hres
          have hauth : outputAuthorized host bm m op = true := by
            simp [outputAuthorized, hbm.authzDisabled]
          unfold gatedResult at hres
          simp only [Option.bind_some, hv, Option.filter_some, hauth, Bool.or_true,
            Bool.and_true] at hres
          have hun : outputUnchanged (s.mem j) v = true := by
            by_contra hun
            simp [hun] at hres
          unfold outputUnchanged at hun
          split at hun
          · cases hun
          next old hold => rw [hold, (ExactDouble.eq_iff _ _).mp hun]
        · have hold := lastOperands_of_unchanged (by simpa using hch)
          exact hs.output j op hrow hen now hold v hv
    · rw [decideOutput_mem_ne host bm m i j op s hji] at hvs
      exact hs.output j op' hrow' hen vs hvs v hv
  · intro j op' hrow' hen v hv
    rw [ht, decideOutput_lastOutput] at hv
    rw [ht, decideOutput_cache]
    exact hs.device j op' hrow' hen v hv

omit [ExactDouble V] in
/-- INTERNAL: recording a result keeps it, and every other row's. -/
theorem OutputsKept.record (hbm : FeedForward bm) {i : ℕ} {op : BmOperation V}
    {s t : BmState V α} {v : V} (hrow : IsRow bm i op) (hs : OutputsKept bm s)
    (h : decideOutput host bm m i op s = (t, some v)) :
    OutputsKept bm (commitOutput i op v t) := by
  have ht : t = (decideOutput host bm m i op s).1 := by rw [h]
  have hen := enabled_of_result host bm m h
  obtain ⟨vs, raw, hvs, -, hraw, hadj, -, -⟩ := decideOutput_some host bm m i op s t v h
  rw [computeResult_builtin host i op vs _ (hbm.builtin i op hrow hen)] at hraw
  obtain rfl := Option.some.inj hraw
  refine ⟨?_, ?_⟩
  · intro j op' hrow' hen' ws hws w hw
    by_cases hji : j = i
    · subst hji
      obtain rfl := hrow.unique hrow'
      rw [commitOutput_mem_self] at hws ⊢
      rw [ht, decideOutput_mem, hvs] at hws
      simp only [lookedMem, Function.update_self] at hws
      obtain rfl := Option.some.inj hws
      rw [hadj] at hw
      exact hw
    · rw [commitOutput_mem_ne i j op v t hji] at hws ⊢
      rw [ht, decideOutput_mem_ne host bm m i j op s hji] at hws ⊢
      exact hs.output j op' hrow' hen' ws hws w hw
  · intro j op' hrow' hen' w hw
    by_cases hji : j = i
    · subst hji
      obtain rfl := hrow.unique hrow'
      rw [commitOutput_mem_self] at hw
      simpa [commitOutput, hbm.slots j op hrow hen] using hw
    · rw [commitOutput_mem_ne i j op v t hji, ht,
        decideOutput_mem_ne host bm m i j op s hji] at hw
      rw [commitOutput_cache_ne i _ op v t fun _ hdev =>
        hji (hbm.distinct j i op' op hrow' hrow hen' hen hdev), ht, decideOutput_cache]
      exact hs.device j op' hrow' hen' w hw

/-- INTERNAL: an evaluation of the table loses no output. -/
theorem OutputsKept.evaluate (hbm : FeedForward bm) (depth : ℕ) {s : BmState V α}
    (hs : OutputsKept bm s) : OutputsKept bm (bmEvaluateAll host bm m depth s).state := by
  refine bmEvaluateAll_rel host bm m (fun s t => OutputsKept bm s → OutputsKept bm t)
    (fun _ h => h) (fun _ _ _ h₁ h₂ h => h₂ (h₁ h)) ?_ ?_ ?_ depth s hs
  · intro i op s t hrow hdec hs
    exact hs.look host m hbm hrow hdec
  · intro i op s t v hrow hdec hs
    exact hs.record host m hbm hrow hdec
  · intro i op s t v u _ _ _ hall hs
    obtain ⟨hcache, hmem, -⟩ := sendPut_frame i op v u
    have hu := hall hs
    refine ⟨?_, ?_⟩
    · rw [hmem]
      exact hu.output
    · rw [hmem, hcache]
      exact hu.device

omit [ExactDouble V] in
/-- INTERNAL: a reading is never stored over a row's output. -/
theorem OutputsKept.take (hbm : FeedForward bm) {s : BmState V α} (hs : OutputsKept bm s) :
    OutputsKept bm (takeReading bm m s) := by
  refine ⟨hs.output, ?_⟩
  intro i op hrow hen v hv
  have hno : attributedDevice bm m op.outDeviceIndex = false := by
    by_contra hyes
    unfold attributedDevice attributedTo at hyes
    simp only [Bool.not_eq_false, Bool.and_eq_true, List.any_eq_true, List.mem_flatMap,
      decide_eq_true_eq] at hyes
    obtain ⟨-, inp, ⟨op', hop', hinp⟩, ⟨⟨hsrc, -⟩, -⟩, hdev⟩ := hyes
    exact hbm.internal i op hrow hen op' hop' inp hinp hsrc hdev
  change (storeReading bm m (readingOf m) s.cache).1 op.outDeviceIndex = some v
  rw [storeReading_apply, hno]
  exact hs.device i op hrow hen v hv

end Steps

/-! ## Runs -/

section Runs

variable (host : BmHost V α) {bm : BindingMap V}

/-- INTERNAL: the messages of a list lead from one state of a run to another. -/
theorem RunMessages.reachable {host : BmHost V α} {ms : List HesClmeMsg} {s s' : BmState V α}
    (hs : Reachable host bm s) (h : RunMessages host bm ms s s') : Reachable host bm s' := by
  induction h with
  | nil s => exact hs
  | @cons m ms s t u depth hm _ ih => exact ih (ReachableBy.handle m depth hs trivial hm)

variable [ExactDouble V]

/-- INTERNAL: a handled message loses no output. -/
theorem OutputsKept.handle (hbm : FeedForward bm) {m : HesClmeMsg} {depth : ℕ}
    {s s' : BmState V α} (hs : OutputsKept bm s)
    (h : bmProcessorHandle host bm m depth s = .returned s') : OutputsKept bm s' := by
  rcases bmProcessorHandle_returned host bm m depth s s' h with rfl | ⟨-, ⟨rfl, -⟩ | hrun⟩
  · exact hs
  · exact hs.take m hbm
  · have hdone := (hs.take m hbm).evaluate host m hbm depth
    rwa [hrun] at hdone

/-- INTERNAL: nor does a list of messages. -/
theorem OutputsKept.run (hbm : FeedForward bm) {ms : List HesClmeMsg} {s s' : BmState V α}
    (hs : OutputsKept bm s) (h : RunMessages host bm ms s s') : OutputsKept bm s' := by
  induction h with
  | nil s => exact hs
  | cons depth hm _ ih => exact ih (hs.handle host hbm hm)

omit [ExactDouble V] in
/-- INTERNAL: inputs without a 'bk' give operands. -/
theorem conditionInputs_total (cache : ValueCache V) (inputs : List BmInput)
    (h : ∀ inp ∈ inputs, inp.condition ≠ lit "bk") :
    ∃ vs, conditionInputs cache inputs = some vs := by
  induction inputs with
  | nil => exact ⟨[], rfl⟩
  | cons inp rest ih =>
    obtain ⟨vs, hvs⟩ := ih fun inp' hmem => h inp' (by simp [hmem])
    have hopen := h inp (by simp)
    have hcond : ∀ v : V, ∃ w, applyCondition inp.condition v = some w := by
      intro v
      unfold applyCondition
      rw [if_neg hopen]
      split_ifs <;> exact ⟨_, rfl⟩
    obtain ⟨w, hw⟩ := hcond ((cache inp.deviceIndex).getD zero)
    exact ⟨w :: vs, by simp [conditionInputs, hw, hvs]⟩

/-- After every list of messages, and each list of messages is handled to its end, an
enabled row with valid inputs and no 'bk' has its output device at its function of the
inputs' present values, whatever the order of the rows.
SRCLINE: bm.c:415-456, bm.c:512-540, bm.c:624-788 -/
theorem feedForward_quiescent (host : BmHost V α) (bm : BindingMap V) (hbm : FeedForward bm)
    (app : α) (ms : List HesClmeMsg) :
    (∃ s, RunMessages host bm ms (BmState.initial app) s) ∧
    ∀ s, RunMessages host bm ms (BmState.initial app) s →
      ∀ i op, IsRow bm i op → op.enabled = true → op.inputs ≠ [] →
        (∀ inp ∈ op.inputs, hasSlot inp.deviceIndex = true ∧
          (s.cache inp.deviceIndex).isSome = true) →
        (∀ inp ∈ op.inputs, inp.condition ≠ lit "bk") → op.outAdjustment ≠ lit "bk" →
        ∃ vs v, conditionInputs s.cache op.inputs = some vs ∧
          applyCondition op.outAdjustment
            (applyOperation op.operation (operandA vs) (operandB op vs)) = some v ∧
          s.cache op.outDeviceIndex = some v := by
  refine ⟨?_, ?_⟩
  · refine runMessages_returns host bm hbm.acyclic hbm.builtin ms _ fun _ m _ t _ _ _ => ?_
    rintro cache - ⟨i, op, vs, v, -, -, hv⟩
    rw [(ExactDouble.eq_iff v v).mpr rfl] at hv
    cases hv
  · intro s hrun i op hrow hen hne hvalid hopen hadj
    have hstart : OutputsKept bm (BmState.initial (V := V) app) :=
      ⟨fun _ _ _ _ _ hvs => (nomatch hvs), fun _ _ _ _ _ hv => (nomatch hv)⟩
    have hkept := hstart.run host hbm hrun
    have hsettled := ReachableBy.settled
      (RunMessages.reachable (ReachableBy.init bm app) hrun) i op hrow
    obtain ⟨vs, hvs⟩ := conditionInputs_total s.cache op.inputs hopen
    have hready : opReady bm s.cache op = true := by
      unfold opReady
      simp only [hbm.authzDisabled, Bool.true_or, Bool.true_and, Bool.and_eq_true,
        List.all_eq_true]
      exact ⟨by simpa using hne, hvalid⟩
    have hoperands : rowOperands bm s.cache op = some vs := by
      unfold rowOperands
      simp [hen, hready, hvs]
    have hv : ∃ v, applyCondition op.outAdjustment (builtinResult op vs) = some v := by
      unfold applyCondition
      rw [if_neg hadj]
      split_ifs <;> exact ⟨_, rfl⟩
    obtain ⟨v, hv⟩ := hv
    have hout := hkept.output i op hrow hen vs (hsettled vs hoperands) v hv
    exact ⟨vs, v, hvs, hv, hkept.device i op hrow hen v hout⟩

end Runs

/-! ## Exact numbers -/

/-- The decimal number at the start of a text. -/
def exactAtof (s : CStr) : ℚ :=
  let (neg, rest) := Binary64.readSign (s.dropWhile Binary64.isSpace)
  match Binary64.readDigits Binary64.isDigit rest with
  | some (ds, frac, rest) =>
    let a : ℚ := Binary64.digitsValue 10 ds * 10 ^ (Binary64.readExponent 101 rest - frac)
    if neg then -a else a
  | none => 0

/-- The sources' numbers, taken as rational numbers. -/
instance : CDouble ℚ where
  zero := 0
  one := 1
  add := (· + ·)
  sub := (· - ·)
  mul := (· * ·)
  div := (· / ·)
  neg := (- ·)
  lt a b := decide (a < b)
  eq a b := decide (a = b)
  atof := exactAtof
  fmtG a := (if a < 0 then [45] else []) ++
    if a = 0 then [48] else Binary64.fmtPositive a.num.natAbs a.den
  eq_refl_right _ _ _ := decide_eq_true rfl

instance : ExactDouble ℚ := ⟨fun _ _ => decide_eq_true_iff⟩

/-- A difference whose second input is an internal value. -/
def differenceRow : BmOperation ℚ where
  operation := lit "su"
  inputs := [{ deviceIndex := 1, sourceObject := lit "/lx/ob/uo/hv/ts/as/cv" },
    { deviceIndex := 5 }]
  outDeviceIndex := 6

/-- The row that computes it. -/
def doubleRow : BmOperation ℚ where
  operation := lit "ad"
  inputs := [{ deviceIndex := 1, sourceObject := lit "/lx/ob/uo/hv/ts/as/cv" },
    { deviceIndex := 1, sourceObject := lit "/lx/ob/uo/hv/ts/as/cv" }]
  outDeviceIndex := 5

/-- The two of them, the upstream row listed last. -/
def differenceMap : BindingMap ℚ :=
  { ops := [differenceRow, doubleRow], authzDisabled := true }

/-- INTERNAL: the rows of the map. -/
theorem differenceMap_row {i : ℕ} {op : BmOperation ℚ} (h : IsRow differenceMap i op) :
    i = 0 ∧ op = differenceRow ∨ i = 1 ∧ op = doubleRow := by
  match i, h with
  | 0, h => exact Or.inl ⟨rfl, (Option.some.inj h).symm⟩
  | 1, h => exact Or.inr ⟨rfl, (Option.some.inj h).symm⟩
  | i + 2, h => simp [IsRow, differenceMap] at h

/-- INTERNAL: it is a table of the kind the theorem is about. -/
theorem differenceMap_feedForward : FeedForward differenceMap where
  acyclic := acyclic_of_ranked_rows differenceMap (fun i => 1 - i) (by decide)
  builtin := by
    intro i op hrow _
    rcases differenceMap_row hrow with ⟨-, rfl⟩ | ⟨-, rfl⟩ <;> decide
  slots := by
    intro i op hrow _
    rcases differenceMap_row hrow with ⟨-, rfl⟩ | ⟨-, rfl⟩ <;> rfl
  distinct := by
    intro i j op op' hi hj _ _ hout
    rcases differenceMap_row hi with ⟨rfl, rfl⟩ | ⟨rfl, rfl⟩ <;>
      rcases differenceMap_row hj with ⟨rfl, rfl⟩ | ⟨rfl, rfl⟩ <;>
      first | rfl | exact absurd hout (by decide)
  internal := by
    intro i op hrow _ op' hop' inp hinp hsrc
    have hread : inp.deviceIndex = 1 := by
      have hall : ∀ op' ∈ differenceMap.ops, ∀ inp ∈ op'.inputs, inp.sourceObject ≠ [] →
          inp.deviceIndex = 1 := by
        intro op' hop'
        rcases List.mem_cons.mp hop' with rfl | hop'
        · decide
        · obtain rfl := List.mem_singleton.mp hop'
          decide
      exact hall op' hop' inp hinp hsrc
    rcases differenceMap_row hrow with ⟨-, rfl⟩ | ⟨-, rfl⟩ <;> rw [hread] <;> decide
  authzDisabled := rfl

/-- The thermometer's 5 is handled, and leaves both rows up to date. -/
theorem feedForward_quiescent_difference :
    (∃ s, RunMessages (BmHost.unwired ℚ) differenceMap [sensed (lit "5")]
      (BmState.initial ()) s) ∧
    ∀ s, RunMessages (BmHost.unwired ℚ) differenceMap [sensed (lit "5")]
        (BmState.initial ()) s →
      ∀ i op, IsRow differenceMap i op → op.enabled = true → op.inputs ≠ [] →
        (∀ inp ∈ op.inputs, hasSlot inp.deviceIndex = true ∧
          (s.cache inp.deviceIndex).isSome = true) →
        (∀ inp ∈ op.inputs, inp.condition ≠ lit "bk") → op.outAdjustment ≠ lit "bk" →
        ∃ vs v, conditionInputs s.cache op.inputs = some vs ∧
          applyCondition op.outAdjustment
            (applyOperation op.operation (operandA vs) (operandB op vs)) = some v ∧
          s.cache op.outDeviceIndex = some v :=
  feedForward_quiescent (BmHost.unwired ℚ) differenceMap differenceMap_feedForward ()
    [sensed (lit "5")]

end OpenHes.Analysis
