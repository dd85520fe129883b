import OpenHes.Analysis.Settling
import Mathlib.Data.List.Chain

/-!
# What an app is called with

A row whose operation is the app's calls it when the operands are no longer those of the last
look. A look that finds them the same overwrites the history with equal numbers, so what the
history holds always equals the operands of the last call: no call repeats the one before, and
since every row is settled between messages the last call has the operands of now.
-/

set_option autoImplicit false

namespace OpenHes.Analysis

open OpenHes.Library OpenHes.Model
open CDouble

variable {α : Type}

/-! ## Numbers that are the same -/

/-- The vectors are equal as the sources compare them, number by number. -/
def SameNumbers (vs ws : List Binary64) : Prop := List.Forall₂ (fun v w => eq v w = true) vs ws

/-- INTERNAL: numbers are the same as themselves. -/
theorem sameNumbers_refl (vs : List Binary64) (h : ∀ v ∈ vs, Binary64.isNaN v = false) :
    SameNumbers vs vs := by
  unfold SameNumbers
  rw [List.forall₂_same]
  intro v hv
  exact (Binary64.eq_self_iff v).mpr (h v hv)

/-- INTERNAL: equality of numbers is transitive. -/
theorem eq_trans_numbers (a b c : Binary64) (h : eq a b = true) (h' : eq b c = true) :
    eq a c = true := by
  simp only [eq, Binary64.eq, Bool.and_eq_true, Bool.not_eq_true', decide_eq_true_eq] at h h' ⊢
  exact ⟨⟨h.1.1, h'.1.2⟩, h.2.trans h'.2⟩

/-- INTERNAL: it goes both ways. -/
theorem SameNumbers.symm {vs ws : List Binary64} (h : SameNumbers vs ws) : SameNumbers ws vs := by
  induction h with
  | nil => exact .nil
  | cons hab _ ih =>
    refine .cons ?_ ih
    simp only [eq, Binary64.eq, Bool.and_eq_true, Bool.not_eq_true', decide_eq_true_eq] at hab ⊢
    exact ⟨⟨hab.1.2, hab.1.1⟩, hab.2.symm⟩

/-- INTERNAL: it goes from one list to the next. -/
theorem SameNumbers.trans {us vs ws : List Binary64} (h : SameNumbers us vs)
    (h' : SameNumbers vs ws) : SameNumbers us ws := by
  induction h generalizing ws with
  | nil => exact h'
  | cons hab _ ih =>
    cases h' with
    | cons hbc hrest => exact .cons (eq_trans_numbers _ _ _ hab hbc) (ih hrest)

/-- INTERNAL: operands count as unchanged if they are the same numbers as those noted. -/
theorem inputsChanged_iff (mem : OpMemory Binary64) (old vs : List Binary64)
    (h : mem.lastOperands = some old) : inputsChanged mem vs = false ↔ SameNumbers old vs := by
  unfold inputsChanged SameNumbers
  rw [h, List.forall₂_iff_zip]
  simp only [Bool.or_eq_false_iff, decide_eq_false_iff_not, not_not, List.any_eq_false,
    Bool.not_eq_true', Bool.not_eq_false, Prod.forall]

/-! ## The calls of a row -/

/-- The operands of a call for row `i`. -/
def callOf (i : ℕ) : BmEvent Binary64 → Option (List Binary64)
  | .appCall row operands _ => if row = i then some (operands.map BmOperand.value) else none
  | _ => none

/-- The operands of the calls for row `i`, in their order. -/
def callsOf (i : ℕ) (trace : List (BmEvent Binary64)) : List (List Binary64) :=
  trace.filterMap (callOf i)

/-- INTERNAL: the calls of a trace are taken piece by piece. -/
@[simp] theorem callsOf_append (i : ℕ) (first second : List (BmEvent Binary64)) :
    callsOf i (first ++ second) = callsOf i first ++ callsOf i second :=
  List.filterMap_append

/-- INTERNAL: other events are no calls. -/
theorem callsOf_quiet (i : ℕ) (evs : List (BmEvent Binary64))
    (h : ∀ e ∈ evs, callOf i e = none) : callsOf i evs = [] :=
  List.filterMap_eq_nil_iff.mpr h

variable (host : BmHost Binary64 α) (bm : BindingMap Binary64) (m : HesClmeMsg)

/-- INTERNAL: asking the hook is no call of the app. -/
theorem gateOutput_callsOf (i j : ℕ) (op : BmOperation Binary64) (raw : Option Binary64)
    (s : BmState Binary64 α) :
    callsOf i (gateOutput host bm m j op raw s).1.trace = callsOf i s.trace := by
  have hauth : callsOf i (authEvents host bm m j op) = [] := by
    apply callsOf_quiet
    intro e he
    unfold authEvents at he
    split at he
    · rw [List.mem_singleton.mp he]
      rfl
    · simp at he
  unfold gateOutput
  split
  · rfl
  · split_ifs
    · rfl
    · rfl
    · rw [callsOf_append, hauth, List.append_nil]
    · rw [callsOf_append, hauth, List.append_nil]

/-- INTERNAL: a look at another row calls nothing for this one. -/
theorem decideOutput_callsOf_ne (i j : ℕ) (hne : j ≠ i) (op : BmOperation Binary64)
    (s : BmState Binary64 α) :
    callsOf i (decideOutput host bm m j op s).1.trace = callsOf i s.trace := by
  obtain ⟨calls, hcalls, htrace⟩ := decideOutput_trace host bm m j op s
  rw [htrace, callsOf_append, callsOf_quiet i (lookEvents _ _ _), List.append_nil]
  apply lookEvents_forall host (fun e => callOf i e = none) j calls _ hcalls
  · exact fun vs => rfl
  · exact fun records sent _ => if_neg hne
  · exact fun m addr verdict => rfl

/-- INTERNAL: the app is handed the operands of the row. -/
theorem appOperands_values (cache : ValueCache Binary64) (op : BmOperation Binary64)
    (vs : List Binary64) (h : rowOperands bm cache op = some vs) :
    (appOperands op vs).map BmOperand.value = vs := by
  have hlength : op.inputs.length = vs.length := by
    unfold rowOperands at h
    split at h
    · cases h
    · exact (conditionInputs_forall₂ cache op.inputs vs h).length_eq
  unfold appOperands
  rw [List.map_zipWith]
  rw [← List.map_uncurry_zip_eq_zipWith]
  exact List.map_snd_zip hlength.ge

/-- INTERNAL: **a look at an app's row** calls the app with the operands exactly when they are
no longer the same. -/
theorem decideOutput_callsOf_self
    {call : α → BmOperation Binary64 → List (BmOperand Binary64) →
      α × Option Binary64 × List HesClmeMsg} (hhost : host.appOperation = some call)
    (i : ℕ) (op : BmOperation Binary64) (hap : op.operation = lit "ap")
    (s : BmState Binary64 α) (vs : List Binary64) (hvs : rowOperands bm s.cache op = some vs) :
    callsOf i (decideOutput host bm m i op s).1.trace =
      callsOf i s.trace ++ if inputsChanged (s.mem i) vs then [vs] else [] := by
  have hread : callsOf i (s.readOperands i vs).trace = callsOf i s.trace := by
    unfold BmState.readOperands
    rw [callsOf_append]
    exact List.append_nil _
  unfold decideOutput
  rw [hvs]
  dsimp only
  by_cases hchanged : inputsChanged (s.mem i) vs = true
  · rw [if_pos hchanged, if_pos hchanged, gateOutput_callsOf]
    unfold computeResult
    rw [if_pos hap, hhost]
    dsimp only
    rw [callsOf_append, hread]
    have hcall : ∀ sent, callsOf i [BmEvent.appCall i (appOperands op vs) sent] = [vs] := by
      intro sent
      simp [callsOf, callOf, appOperands_values bm s.cache op vs hvs]
    rw [hcall]
  · rw [if_neg hchanged, if_neg hchanged, List.append_nil]
    exact hread

/-! ## The invariant -/

/-- No call for row `i` has the numbers of the one before, and the row's history holds those of
the last call. -/
structure Heard (i : ℕ) (s : BmState Binary64 α) : Prop where
  once : List.IsChain (fun vs ws => ¬ SameNumbers vs ws) (callsOf i s.trace)
  silent : (s.mem i).lastOperands = none → callsOf i s.trace = []
  last : ∀ us, (s.mem i).lastOperands = some us →
    ∃ vs, (callsOf i s.trace).getLast? = some vs ∧ (vs = us ∨ SameNumbers vs us)

variable {host bm m}

/-- INTERNAL: what leaves the row's calls and history alone. -/
theorem Heard.of_eq {i : ℕ} {s t : BmState Binary64 α} (h : Heard i s)
    (hcalls : callsOf i t.trace = callsOf i s.trace)
    (hmem : (t.mem i).lastOperands = (s.mem i).lastOperands) : Heard i t where
  once := by rw [hcalls]; exact h.once
  silent := by rw [hcalls, hmem]; exact h.silent
  last := by rw [hcalls, hmem]; exact h.last

/-- INTERNAL: **a look keeps it**. -/
theorem Heard.look {call : α → BmOperation Binary64 → List (BmOperand Binary64) →
      α × Option Binary64 × List HesClmeMsg} (hhost : host.appOperation = some call)
    {i j : ℕ} {op op' : BmOperation Binary64} (hrow : IsRow bm i op) (hrow' : IsRow bm j op')
    (hap : op.operation = lit "ap") {s : BmState Binary64 α} (h : Heard i s) :
    Heard i (decideOutput host bm m j op' s).1 := by
  by_cases hne : j = i
  · subst hne
    obtain rfl := hrow.unique hrow'
    cases hvs : rowOperands bm s.cache op with
    | none =>
      rw [decideOutput_no_operands host bm m j op s hvs]
      exact h
    | some vs =>
      have hcalls := decideOutput_callsOf_self host bm m hhost j op hap s vs hvs
      have hmem : ((decideOutput host bm m j op s).1.mem j).lastOperands = some vs := by
        rw [decideOutput_mem, hvs]
        simp [lookedMem]
      by_cases hchanged : inputsChanged (s.mem j) vs = true
      · rw [if_pos hchanged] at hcalls
        refine ⟨?_, ?_, ?_⟩
        · rw [hcalls, List.isChain_append]
          refine ⟨h.once, List.isChain_singleton vs, ?_⟩
          -- the call before has the numbers of the history, these are not the same
          intro ws hws us hus
          obtain rfl : vs = us := by simpa using hus
          cases hold : (s.mem j).lastOperands with
          | none => simp [h.silent hold] at hws
          | some old =>
            obtain ⟨ws', hlast, heq⟩ := h.last old hold
            obtain rfl := Option.some_inj.mp (hlast.symm.trans hws)
            intro hsame
            have hnot : ¬ SameNumbers old vs := by
              rw [← inputsChanged_iff (s.mem j) old vs hold, hchanged]
              exact Bool.noConfusion
            rcases heq with rfl | heq
            · exact hnot hsame
            · exact hnot (heq.symm.trans hsame)
        · rw [hmem]
          intro hnone
          cases hnone
        · intro us hus
          obtain rfl := Option.some_inj.mp (hmem.symm.trans hus)
          exact ⟨vs, by rw [hcalls]; simp, .inl rfl⟩
      · rw [if_neg hchanged, List.append_nil] at hcalls
        have hunchanged : inputsChanged (s.mem j) vs = false := by simpa using hchanged
        refine ⟨by rw [hcalls]; exact h.once, ?_, ?_⟩
        · rw [hmem]
          intro hnone
          cases hnone
        · intro us hus
          obtain rfl := Option.some_inj.mp (hmem.symm.trans hus)
          cases hold : (s.mem j).lastOperands with
          | none => simp [inputsChanged, hold] at hunchanged
          | some old =>
            obtain ⟨ws, hlast, heq⟩ := h.last old hold
            have hsame := (inputsChanged_iff (s.mem j) old vs hold).mp hunchanged
            refine ⟨ws, by rw [hcalls]; exact hlast, .inr ?_⟩
            rcases heq with rfl | heq
            · exact hsame
            · exact heq.trans hsame
  · apply h.of_eq
    · exact decideOutput_callsOf_ne host bm m i j hne op' s
    · rw [decideOutput_mem_ne host bm m j i op' s (Ne.symm hne)]

/-- INTERNAL: **an evaluation of the table keeps it**. -/
theorem Heard.evaluate {call : α → BmOperation Binary64 → List (BmOperand Binary64) →
      α × Option Binary64 × List HesClmeMsg} (hhost : host.appOperation = some call)
    {i : ℕ} {op : BmOperation Binary64} (hrow : IsRow bm i op) (hap : op.operation = lit "ap")
    (depth : ℕ) (s : BmState Binary64 α) (h : Heard i s) :
    Heard i (bmEvaluateAll host bm m depth s).state := by
  revert h
  refine bmEvaluateAll_rel host bm m (fun s t => Heard i s → Heard i t) (fun s h => h)
    (fun s t u hst htu h => htu (hst h)) ?_ ?_ ?_ depth s
  · intro j op' s t hrow' hdec h
    have hlook := Heard.look (m := m) hhost hrow hrow' hap h
    rwa [hdec] at hlook
  · intro j op' s t v hrow' hdec h
    have hlook := Heard.look (m := m) hhost hrow hrow' hap h
    rw [hdec] at hlook
    apply hlook.of_eq
    · unfold commitOutput
      rw [callsOf_append]
      exact List.append_nil _
    · by_cases hij : i = j
      · subst hij
        rw [commitOutput_mem_self]
      · rw [commitOutput_mem_ne j i op' v t hij]
  · intro j op' s t v u _ _ _ hsend h
    apply (hsend h).of_eq
    · unfold sendPut
      split
      · rfl
      · unfold BmState.log
        rw [callsOf_append]
        exact List.append_nil _
    · rw [(sendPut_frame j op' v u).2.1]

/-- INTERNAL: a reading that is stored calls no app. -/
theorem Heard.take (bm : BindingMap Binary64) (m : HesClmeMsg) {i : ℕ} {s : BmState Binary64 α}
    (h : Heard i s) :
    Heard i (takeReading bm m s) := by
  apply h.of_eq
  · unfold takeReading
    rw [callsOf_append]
    exact List.append_nil _
  · rfl

/-- INTERNAL: **every state of a run keeps it**. -/
theorem Reachable.heard {call : α → BmOperation Binary64 → List (BmOperand Binary64) →
      α × Option Binary64 × List HesClmeMsg} (hhost : host.appOperation = some call)
    {bm : BindingMap Binary64} {s : BmState Binary64 α} (hs : Reachable host bm s) {i : ℕ}
    {op : BmOperation Binary64} (hrow : IsRow bm i op) (hap : op.operation = lit "ap") :
    Heard i s := by
  induction hs generalizing op with
  | init bm app =>
    refine ⟨List.isChain_nil, fun _ => rfl, ?_⟩
    intro us hus
    cases hus
  | @handle bm s s' m depth _ _ hm ih =>
    have hbefore := ih hrow hap
    rcases bmProcessorHandle_returned host bm m depth s s' hm with
      rfl | ⟨-, ⟨rfl, -⟩ | hrun⟩
    · exact hbefore
    · exact hbefore.take bm m
    · have hafter := Heard.evaluate (m := m) hhost hrow hap depth _ (hbefore.take bm m)
      rwa [hrun] at hafter
  | @setAt bm bm' s atAddress value _ hset ih =>
    obtain ⟨op₀, hrow₀, heq⟩ := row_of_erased (bmSetAt_erased hset).2 hrow
    have hop : (eraseAuthorType op).operation = (eraseAuthorType op₀).operation := by rw [heq]
    exact ih hrow₀ (hop.symm.trans hap)

/-- **An app hears of every change once.** In whatever state a run of messages leaves a map, for
a row whose operation is the app's: of the calls that were made for it no two in a row had the
same numbers, and if the row is ready and its inputs are not blocked, the last call had the
conditioned operands of now, as long as these hold no NaN.
SRCLINE: bm/bm.c:624-697 -/
theorem app_hears_each_change (host : BmHost Binary64 α) (bm : BindingMap Binary64)
    {s : BmState Binary64 α} {i : ℕ} {op : BmOperation Binary64}
    {call : α → BmOperation Binary64 → List (BmOperand Binary64) →
      α × Option Binary64 × List HesClmeMsg} (hhost : host.appOperation = some call)
    (hs : Reachable host bm s) (hrow : IsRow bm i op) (hap : op.operation = lit "ap") :
    List.IsChain (fun vs ws => ¬ SameNumbers vs ws) (callsOf i s.trace) ∧
      ∀ vs, op.enabled = true → opReady bm s.cache op = true →
        conditionInputs s.cache op.inputs = some vs → (∀ v ∈ vs, Binary64.isNaN v = false) →
        ∃ last, (callsOf i s.trace).getLast? = some last ∧ SameNumbers last vs := by
  have hheard := Reachable.heard hhost hs hrow hap
  refine ⟨hheard.once, ?_⟩
  intro vs henabled hready hvs hnan
  have hoperands : rowOperands bm s.cache op = some vs := by
    unfold rowOperands
    rw [henabled, hready]
    exact hvs
  obtain ⟨last, hlast, rfl | hsame⟩ := hheard.last vs (ReachableBy.settled hs i op hrow vs hoperands)
  · exact ⟨last, hlast, sameNumbers_refl last hnan⟩
  · exact ⟨last, hlast, hsame⟩

/-- A row that gives two readings to the app. -/
def blendRow : BmOperation Binary64 where
  operation := lit "ap"
  inputs := [⟨1, lit "/lx/a", [], [], []⟩, ⟨2, lit "/lx/b", lit "ng", [], []⟩]
  outDeviceIndex := 3

/-- A map with this row. -/
def blendMap : BindingMap Binary64 := { ops := [blendRow] }

/-- An app that counts its calls. -/
def countingHost : BmHost Binary64 ℕ where
  appOperation := some fun n _ _ => (n + 1, some one, [])

/-- A reading. -/
def readingOfPath (path payload : CStr) : HesClmeMsg where
  verb := .event
  path := path
  payload := payload

/-- What a message leaves of a state. -/
def afterReading (path payload : CStr) (s : BmState Binary64 ℕ) : BmState Binary64 ℕ :=
  (bmProcessorHandle countingHost blendMap (readingOfPath path payload) 4 s).state

/-- Both readings have come, and the second one once more. -/
def blended : BmState Binary64 ℕ :=
  afterReading (lit "/lx/b") (lit "5") (afterReading (lit "/lx/b") (lit "5")
    (afterReading (lit "/lx/a") (lit "2") (BmState.initial 0)))

/-- INTERNAL: a run goes on with a reading. -/
theorem afterReading_reachable (path payload : CStr) (s : BmState Binary64 ℕ)
    (hs : Reachable countingHost blendMap s)
    (h : (bmProcessorHandle countingHost blendMap (readingOfPath path payload) 4 s).didReturn =
      true) : Reachable countingHost blendMap (afterReading path payload s) :=
  .handle (readingOfPath path payload) 4 hs trivial (Outcome.eq_returned_state _ h)

/-- The blended row calls its app once in the run, and the call carried what it reads. -/
theorem app_hears_each_change_blend :
    blended.app = 1 ∧
      (List.IsChain (fun vs ws => ¬ SameNumbers vs ws) (callsOf 0 blended.trace) ∧
        ∀ vs, blendRow.enabled = true → opReady blendMap blended.cache blendRow = true →
          conditionInputs blended.cache blendRow.inputs = some vs →
          (∀ v ∈ vs, Binary64.isNaN v = false) →
          ∃ last, (callsOf 0 blended.trace).getLast? = some last ∧ SameNumbers last vs) :=
  ⟨by decide +kernel, app_hears_each_change countingHost blendMap rfl
    (afterReading_reachable _ _ _ (afterReading_reachable _ _ _ (afterReading_reachable _ _ _
      (.init blendMap 0) (by decide +kernel)) (by decide +kernel)) (by decide +kernel)) rfl rfl⟩

end OpenHes.Analysis
