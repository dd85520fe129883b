import OpenHes.Library.Trace
import OpenHes.Analysis.Settling

/-!
# What an operand is

The value cache is keyed by device, so an operand is the last value that was stored for
its device: by a report that some input of that device listens to, or by a row that
writes the device. For a device with one object and no row that writes it, this is the
last report of that object.
-/

set_option autoImplicit false

namespace OpenHes.Analysis

open OpenHes.Library OpenHes.Model
open CDouble

variable {V α : Type} [CDouble V]

/-! ## The attribution loop -/

section Loop

omit [CDouble V]

variable (bm : BindingMap V) (m : HesClmeMsg)

/-- Does some input of device `d` listen to the message? -/
def attributedDevice (d : ℕ) : Bool :=
  hasSlot d && (bm.ops.flatMap (·.inputs)).any fun inp =>
    attributedTo m inp && inp.deviceIndex = d

/-- INTERNAL: the attribution loop, device by device.
SRCLINE: bm.c:1054-1076 -/
theorem storeReading_apply (v : V) (cache : ValueCache V) (d : ℕ) :
    (storeReading bm m v cache).1 d = if attributedDevice bm m d then some v else cache d := by
  have hloop : ∀ (inputs : List BmInput) (acc : ValueCache V × Bool),
      (inputs.foldl (storeInput m v) acc).1 d =
        if hasSlot d && inputs.any (fun inp => attributedTo m inp && inp.deviceIndex = d)
        then some v else acc.1 d := by
    intro inputs
    induction inputs with
    | nil => simp
    | cons inp rest ih =>
      intro acc
      rw [List.foldl_cons, ih, List.any_cons]
      unfold storeInput
      by_cases hatt : (attributedTo m inp && hasSlot inp.deviceIndex) = true
      · rw [if_pos hatt]
        by_cases hdev : inp.deviceIndex = d
        · subst hdev
          have hparts := hatt
          rw [Bool.and_eq_true] at hparts
          simp [hparts.1, hparts.2]
        · simp [hdev, Function.update_of_ne (Ne.symm hdev)]
      · rw [if_neg hatt]
        by_cases hdev : inp.deviceIndex = d
        · subst hdev
          by_cases hslot : hasSlot inp.deviceIndex = true
          · have hno : attributedTo m inp = false := by
              by_contra hyes
              exact hatt (by simp [hslot, hyes])
            simp [hno]
          · simp [hslot]
        · simp [hdev]
  exact hloop _ _

/-- INTERNAL: attribution looks at the inputs of the rows only. -/
theorem attributedDevice_erased {bm bm' : BindingMap V}
    (h : bm'.ops.map eraseAuthorType = bm.ops.map eraseAuthorType) (m : HesClmeMsg) (d : ℕ) :
    attributedDevice bm' m d = attributedDevice bm m d := by
  have hinputs : bm'.ops.flatMap (·.inputs) = bm.ops.flatMap (·.inputs) := by
    have hflat := congrArg (List.flatMap (·.inputs)) h
    rwa [List.flatMap_map, List.flatMap_map] at hflat
  unfold attributedDevice
  rw [hinputs]

end Loop

/-! ## The last value stored for a device -/

section LastWrite

variable (bm : BindingMap V) (d : ℕ)

/-- The value an event stores for device `d`. -/
def writeOf : BmEvent V → Option V
  | .report m => if attributedDevice bm m d then some (readingOf m) else none
  | .commit _ deviceIndex v => if hasSlot d && deviceIndex = d then some v else none
  | _ => none

/-- The last value the events of a trace stored for device `d`. -/
def lastWrite (trace : List (BmEvent V)) : Option V := (trace.filterMap (writeOf bm d)).getLast?

/-- INTERNAL: a further event stores a value or changes nothing. -/
theorem lastWrite_append_one (trace : List (BmEvent V)) (e : BmEvent V) :
    lastWrite bm d (trace ++ [e]) = (writeOf bm d e).or (lastWrite bm d trace) := by
  unfold lastWrite
  rw [List.filterMap_append]
  cases hw : writeOf bm d e with
  | none => simp [hw]
  | some v => simp [hw]

/-- INTERNAL: events that store nothing change nothing. -/
theorem lastWrite_append_none (trace evs : List (BmEvent V))
    (h : ∀ e ∈ evs, writeOf bm d e = none) :
    lastWrite bm d (trace ++ evs) = lastWrite bm d trace := by
  unfold lastWrite
  rw [List.filterMap_append, List.filterMap_eq_nil_iff.mpr h, List.append_nil]

end LastWrite

/-! ## Traces that tell where operands come from -/

/-- An input and the operand read for it, after the events `before`: the conditioned last
value stored for the input's device. -/
def ReadsLastWrite (bm : BindingMap V) (before : List (BmEvent V)) (inp : BmInput) (v : V) :
    Prop :=
  hasSlot inp.deviceIndex = true ∧
    ∃ x, lastWrite bm inp.deviceIndex before = some x ∧ applyCondition inp.condition x = some v

/-- What a trace says about its readings: reports are reports, rows record to their own
device, operands are conditioned last values. -/
def Accountable (bm : BindingMap V) (before : List (BmEvent V)) : BmEvent V → Prop
  | .report m => isReport m = true
  | .operands i vs => ∃ op, IsRow bm i op ∧
      List.Forall₂ (ReadsLastWrite bm before) op.inputs vs
  | .commit i d _ => ∃ op, IsRow bm i op ∧ op.enabled = true ∧ op.outDeviceIndex = d
  | _ => True

/-- The cache and the trace of a state agree. -/
structure CacheTraced (bm : BindingMap V) (s : BmState V α) : Prop where
  cache : ∀ d, s.cache d = lastWrite bm d s.trace
  trace : EveryEvent (Accountable bm) s.trace

variable (host : BmHost V α) (bm : BindingMap V) (m : HesClmeMsg)

/-- INTERNAL: adding events the trace can account for, with the cache following them. -/
theorem CacheTraced.append {bm : BindingMap V} {s t : BmState V α} {evs : List (BmEvent V)}
    (hs : CacheTraced bm s) (htrace : t.trace = s.trace ++ evs)
    (hcache : ∀ d, t.cache d = lastWrite bm d (s.trace ++ evs))
    (hevs : EveryEvent (fun pre => Accountable bm (s.trace ++ pre)) evs) : CacheTraced bm t := by
  refine ⟨fun d => by rw [htrace, hcache], ?_⟩
  rw [htrace, everyEvent_append]
  exact ⟨hs.trace, hevs⟩

/-- INTERNAL: a look reads last values. -/
theorem CacheTraced.look {bm : BindingMap V} {i : ℕ} {op : BmOperation V} {s : BmState V α}
    (hrow : IsRow bm i op) (hs : CacheTraced bm s) :
    CacheTraced bm (decideOutput host bm m i op s).1 := by
  obtain ⟨calls, hcalls, htrace⟩ := decideOutput_trace host bm m i op s
  refine hs.append htrace ?_ ?_
  · intro d
    rw [decideOutput_cache, hs.cache, lastWrite_append_none bm d]
    exact lookEvents_forall host (fun e => writeOf bm d e = none) i calls _ hcalls
      (fun _ => rfl) (fun _ _ _ => rfl) fun _ _ _ => rfl
  · cases hvs : rowOperands bm s.cache op with
    | none => exact everyEvent_nil _
    | some vs =>
      refine (everyEvent_cons _ _ _).mpr ⟨⟨op, hrow, ?_⟩, ?_⟩
      · obtain ⟨-, -, hready⟩ := rowOperands_ready bm op s.cache vs hvs
        have hcond : conditionInputs s.cache op.inputs = some vs := by
          unfold rowOperands at hvs
          split at hvs
          · cases hvs
          · exact hvs
        refine (List.forall₂_iff_get.mpr ?_)
        obtain ⟨hlen, hget⟩ := List.forall₂_iff_get.mp (conditionInputs_forall₂ _ _ _ hcond)
        refine ⟨hlen, fun k hk hk' => ?_⟩
        obtain ⟨-, -, hslot, hvalid⟩ := hready _ (List.get_mem op.inputs ⟨k, hk⟩)
        obtain ⟨x, hx⟩ := Option.isSome_iff_exists.mp hvalid
        refine ⟨hslot, x, ?_, ?_⟩
        · rw [List.append_nil, ← hs.cache]
          exact hx
        · have hv := hget k hk hk'
          rwa [hx] at hv
      · refine everyEvent_of_forall _ _ fun e he pre => ?_
        have hhook := hcalls e he
        cases e with
        | appCall => trivial
        | authCall => trivial
        | _ => exact hhook.elim

/-- INTERNAL: a recorded result is the last value of its device. -/
theorem CacheTraced.record {bm : BindingMap V} {i : ℕ} {op : BmOperation V} {s : BmState V α}
    (hrow : IsRow bm i op) (hen : op.enabled = true) (v : V) (hs : CacheTraced bm s) :
    CacheTraced bm (commitOutput i op v s) := by
  refine hs.append (t := commitOutput i op v s) rfl (fun d => ?_) ?_
  · rw [lastWrite_append_one, ← hs.cache]
    by_cases hslot : hasSlot op.outDeviceIndex = true
    · by_cases hdev : d = op.outDeviceIndex
      · subst hdev
        simp [commitOutput, writeOf, hslot]
      · rw [commitOutput_cache_ne i d op v s fun _ => hdev]
        simp [writeOf, Ne.symm hdev]
    · rw [commitOutput_cache_no_slot i op v s (by simpa using hslot)]
      have hno : ¬ (hasSlot d = true ∧ op.outDeviceIndex = d) := by
        rintro ⟨hd, rfl⟩
        exact hslot hd
      simp [writeOf, hno]
  · exact (everyEvent_cons _ _ _).mpr ⟨⟨op, hrow, hen, rfl⟩, everyEvent_nil _⟩

/-- INTERNAL: an evaluation of the table keeps cache and trace in agreement. -/
theorem CacheTraced.evaluate {bm : BindingMap V} (depth : ℕ) {s : BmState V α}
    (hs : CacheTraced bm s) : CacheTraced bm (bmEvaluateAll host bm m depth s).state := by
  refine bmEvaluateAll_rel host bm m (fun s t => CacheTraced bm s → CacheTraced bm t)
    (fun _ h => h) (fun _ _ _ h₁ h₂ h => h₂ (h₁ h)) ?_ ?_ ?_ depth s hs
  · intro i op s t hrow hdec hs
    have hlook := hs.look host m hrow
    rwa [hdec] at hlook
  · intro i op s t v hrow hdec hs
    have hlook := hs.look host m hrow
    rw [hdec] at hlook
    exact hlook.record hrow (enabled_of_result host bm m hdec) v
  · intro i op s t v u _ _ _ hall hs
    have hu := hall hs
    unfold sendPut
    split
    · exact hu
    · refine hu.append (t := u.log _) rfl (fun d => ?_)
        ((everyEvent_cons _ _ _).mpr ⟨trivial, everyEvent_nil _⟩)
      rw [lastWrite_append_one, ← hu.cache]
      rfl

/-- INTERNAL: taking a reading keeps cache and trace in agreement. -/
theorem CacheTraced.take {bm : BindingMap V} {m : HesClmeMsg} (hrep : isReport m = true)
    {s : BmState V α} (hs : CacheTraced bm s) : CacheTraced bm (takeReading bm m s) := by
  refine hs.append (t := takeReading bm m s) rfl (fun d => ?_)
    ((everyEvent_cons _ _ _).mpr ⟨hrep, everyEvent_nil _⟩)
  rw [lastWrite_append_one, ← hs.cache]
  change (storeReading bm m (readingOf m) s.cache).1 d = _
  rw [storeReading_apply]
  unfold writeOf
  by_cases hatt : attributedDevice bm m d = true
  · simp [hatt]
  · simp [hatt]

/-- INTERNAL: what accounts for a trace does not depend on authorTypes of outputs. -/
theorem CacheTraced.setAt {bm bm' : BindingMap V} {atAddress value : CStr}
    (h : bmSetAt bm atAddress value = some bm') {s : BmState V α} (hs : CacheTraced bm s) :
    CacheTraced bm' s := by
  have hrows := (bmSetAt_erased h).2
  have hwrite : ∀ d trace, lastWrite bm' d trace = lastWrite bm d (trace : List (BmEvent V)) := by
    intro d trace
    unfold lastWrite
    refine congrArg List.getLast? (List.filterMap_congr fun e _ => ?_)
    unfold writeOf
    cases e with
    | report m => simp only [attributedDevice_erased hrows]
    | _ => rfl
  -- a row of the old table is the row of the new one, but for its authorType
  have hrow : ∀ i op, IsRow bm i op → ∃ op', IsRow bm' i op' ∧ op'.inputs = op.inputs ∧
      op'.enabled = op.enabled ∧ op'.outDeviceIndex = op.outDeviceIndex := by
    intro i op hi
    obtain ⟨op', hi', heq⟩ := row_of_erased hrows.symm hi
    have hin : (eraseAuthorType op').inputs = (eraseAuthorType op).inputs := by rw [heq]
    have hen : (eraseAuthorType op').enabled = (eraseAuthorType op).enabled := by rw [heq]
    have hout : (eraseAuthorType op').outDeviceIndex = (eraseAuthorType op).outDeviceIndex := by
      rw [heq]
    exact ⟨op', hi', hin, hen, hout⟩
  refine ⟨fun d => (hs.cache d).trans (hwrite d _).symm, fun pre e post hsplit => ?_⟩
  have hacc := hs.trace pre e post hsplit
  cases e with
  | operands i vs =>
    obtain ⟨op, hi, hread⟩ := hacc
    obtain ⟨op', hi', hin, -, -⟩ := hrow i op hi
    refine ⟨op', hi', ?_⟩
    rw [hin]
    refine hread.imp fun inp v hv => ?_
    unfold ReadsLastWrite
    rw [hwrite]
    exact hv
  | commit i d v =>
    obtain ⟨op, hi, hen, hout⟩ := hacc
    obtain ⟨op', hi', -, hen', hout'⟩ := hrow i op hi
    exact ⟨op', hi', hen'.trans hen, hout'.trans hout⟩
  | _ => exact hacc

/-- INTERNAL: **in every state of a run the cache is what the trace says.** -/
theorem ReachableBy.cacheTraced {host : BmHost V α}
    {ok : BindingMap V → BmState V α → HesClmeMsg → Prop} {bm : BindingMap V} {s : BmState V α}
    (h : ReachableBy host ok bm s) : CacheTraced bm s := by
  induction h with
  | init bm app => exact ⟨fun d => rfl, everyEvent_nil _⟩
  | @handle bm s s' m depth _ _ hm ih =>
    rcases bmProcessorHandle_returned host bm m depth s s' hm with
      rfl | ⟨hrep, ⟨rfl, -⟩ | hrun⟩
    · exact ih
    · exact ih.take hrep
    · have hdone := (ih.take hrep).evaluate host m depth
      rwa [hrun] at hdone
  | setAt atAddress value _ hset ih => exact ih.setAt hset

/-! ## Devices with one object -/

/-- The value an event reports for the object `p` of device `d`. -/
def reportOf (p : CStr) (d : ℕ) : BmEvent V → Option V
  | .report m =>
    if m.path = p && (m.deviceIndex = 0 || m.deviceIndex = d) then some (readingOf m) else none
  | _ => none

/-- The last value a trace reports for the object `p` of device `d`. -/
def lastReport (p : CStr) (d : ℕ) (trace : List (BmEvent V)) : Option V :=
  (trace.filterMap (reportOf p d)).getLast?

/-- Device `d` has the object `p` and no other, and no row writes it. -/
structure OneObject (bm : BindingMap V) (d : ℕ) (p : CStr) : Prop where
  named : p ≠ []
  listened : ∃ op ∈ bm.ops, ∃ inp ∈ op.inputs, inp.deviceIndex = d ∧ inp.sourceObject = p
  only : ∀ op ∈ bm.ops, ∀ inp ∈ op.inputs, inp.deviceIndex = d → inp.sourceObject ≠ [] →
    inp.sourceObject = p
  unwritten : ∀ i, ¬ WritesDevice bm i d

/-- INTERNAL: what is stored for such a device is what its object reports. -/
theorem lastWrite_oneObject {bm : BindingMap V} {d : ℕ} {p : CStr} (h : OneObject bm d p)
    (hslot : hasSlot d = true) (trace : List (BmEvent V))
    (htrace : EveryEvent (Accountable bm) trace) :
    lastWrite bm d trace = lastReport p d trace := by
  refine congrArg List.getLast? (List.filterMap_congr fun e he => ?_)
  obtain ⟨pre, post, hsplit⟩ := List.append_of_mem he
  have hacc := htrace pre e post hsplit
  cases e with
  | report m =>
    have hatt : attributedDevice bm m d =
        (m.path = p && (m.deviceIndex = 0 || m.deviceIndex = d)) := by
      rw [Bool.eq_iff_iff]
      unfold attributedDevice attributedTo
      simp only [hslot, Bool.true_and, List.any_eq_true, List.mem_flatMap, Bool.and_eq_true,
        Bool.or_eq_true, decide_eq_true_eq]
      constructor
      · rintro ⟨inp, ⟨op, hop, hinp⟩, ⟨⟨hsrc, hpath⟩, hdev⟩, rfl⟩
        refine ⟨hpath.symm.trans (h.only op hop inp hinp rfl hsrc), ?_⟩
        exact hdev.imp id Eq.symm
      · rintro ⟨rfl, hdev⟩
        obtain ⟨op, hop, inp, hinp, rfl, hsrc⟩ := h.listened
        exact ⟨inp, ⟨op, hop, hinp⟩, ⟨⟨hsrc ▸ h.named, hsrc⟩, hdev.imp id Eq.symm⟩, rfl⟩
    simp only [writeOf, reportOf, hatt]
  | commit i d' v =>
    obtain ⟨op, hrow, hen, hout⟩ := hacc
    have hne : d' ≠ d := by
      rintro rfl
      exact h.unwritten i ⟨op, hrow, hen, hslot, hout⟩
    simp [writeOf, reportOf, hne]
  | _ => rfl

/-- Whenever a row is evaluated, in any run, each operand is the conditioned value last
stored for the input's device. For a device with one object this is the value of the last
report of that object with the device's index or 0.
SRCLINE: bm.c:633-645, bm.c:1052-1076, bm.h:170-172 -/
theorem operands_attributed (host : BmHost V α) (bm : BindingMap V) (s : BmState V α)
    (hs : Reachable host bm s) :
    ∀ pre i vs post, s.trace = pre ++ .operands i vs :: post → ∃ op, IsRow bm i op ∧
      List.Forall₂ (fun inp v => ∃ x, applyCondition inp.condition x = some v ∧
        lastWrite bm inp.deviceIndex pre = some x ∧
        ∀ p, OneObject bm inp.deviceIndex p → lastReport p inp.deviceIndex pre = some x)
        op.inputs vs := by
  intro pre i vs post hsplit
  have htrace := (ReachableBy.cacheTraced hs).trace
  obtain ⟨op, hrow, hread⟩ := htrace pre _ post hsplit
  have hpre : EveryEvent (Accountable bm) pre := by
    rw [hsplit, everyEvent_append] at htrace
    exact htrace.1
  refine ⟨op, hrow, hread.imp fun inp v hv => ?_⟩
  obtain ⟨hslot, x, hx, hcond⟩ := hv
  refine ⟨x, hcond, hx, fun p hp => ?_⟩
  rw [← lastWrite_oneObject hp hslot pre hpre]
  exact hx

/-! ## A device with two objects -/

/-- The button of a sensor tag. -/
def tagButton : CStr := lit "/lx/ob/uo/ui/ud/da/cv"

/-- Its thermometer. -/
def tagThermometer : CStr := lit "/lx/ob/uo/hv/ts/as/cv"

/-- A row that hands on what one object of the tag reports. -/
def tagRow (object : CStr) : BmOperation Binary64 :=
  { operation := lit "ad", inputs := [{ deviceIndex := 6, sourceObject := object }] }

/-- Two rows, one for each object of the tag. -/
def tagMap : BindingMap Binary64 := { ops := [tagRow tagButton, tagRow tagThermometer] }

/-- A report of an object of the tag. -/
def tagReport (object payload : CStr) : HesClmeMsg :=
  { verb := .event, deviceIndex := 6, path := object, payload := payload }

/-- The state after the button reports 1. -/
def tagPressed : BmState Binary64 Unit :=
  (bmProcessorHandle (BmHost.unwired Binary64) tagMap (tagReport tagButton (lit "1")) 1
    (BmState.initial ())).state

/-- The state after the thermometer then reports 20. -/
def tagWarmed : BmState Binary64 Unit :=
  (bmProcessorHandle (BmHost.unwired Binary64) tagMap (tagReport tagThermometer (lit "20")) 1
    tagPressed).state

/-- INTERNAL: a run gets to the first state. -/
theorem tagPressed_reachable : Reachable (BmHost.unwired Binary64) tagMap tagPressed :=
  ReachableBy.handle (tagReport tagButton (lit "1")) 1 (ReachableBy.init tagMap ()) trivial
    (Outcome.eq_returned_state _ (by decide +kernel))

/-- The row and the operands of an event that reads operands. -/
def operandsOf : BmEvent Binary64 → Option (ℕ × List Binary64)
  | .operands i vs => some (i, vs)
  | _ => none

/-- INTERNAL: where a trace has operands of a row at a position. -/
theorem operands_at (events : List (BmEvent Binary64)) (k i : ℕ) (vs : List Binary64)
    (h : events[k]?.bind operandsOf = some (i, vs)) :
    events = events.take k ++ .operands i vs :: events.drop (k + 1) := by
  obtain ⟨e, he, hread⟩ := Option.bind_eq_some_iff.mp h
  obtain ⟨hk, hget⟩ := List.getElem?_eq_some_iff.mp he
  have heq : e = .operands i vs := by
    cases e with
    | operands i' vs' =>
      obtain ⟨rfl, rfl⟩ := Prod.mk.inj (Option.some.inj hread)
      rfl
    | _ => cases hread
  calc events = events.take k ++ events.drop k := (List.take_append_drop k events).symm
    _ = events.take k ++ .operands i vs :: events.drop (k + 1) := by
        rw [List.drop_eq_getElem_cons hk, hget, heq]

/-- The row of the button is evaluated on the thermometer's 20 while the button's last
report is 1. -/
theorem tagMap_mixes :
    ∃ s : BmState Binary64 Unit, Reachable (BmHost.unwired Binary64) tagMap s ∧
      ∃ pre post, s.trace = pre ++
          .operands 0 [(readingOf (tagReport tagThermometer (lit "20")) : Binary64)] :: post ∧
        IsRow tagMap 0 (tagRow tagButton) ∧
        lastReport tagButton 6 pre =
          some (readingOf (tagReport tagButton (lit "1")) : Binary64) ∧
        (readingOf (tagReport tagThermometer (lit "20")) : Binary64) ≠
          readingOf (tagReport tagButton (lit "1")) := by
  have hrun : Reachable (BmHost.unwired Binary64) tagMap tagWarmed :=
    ReachableBy.handle (tagReport tagThermometer (lit "20")) 1 tagPressed_reachable trivial
      (Outcome.eq_returned_state _ (by decide +kernel))
  have hread : tagWarmed.trace[6]?.bind operandsOf =
      some (0, [readingOf (tagReport tagThermometer (lit "20"))]) := by decide +kernel
  refine ⟨tagWarmed, hrun, tagWarmed.trace.take 6, tagWarmed.trace.drop 7, ?_, rfl, ?_, ?_⟩
  · exact operands_at tagWarmed.trace 6 0 _ hread
  · decide +kernel
  · decide +kernel

/-- The row of the button alone. -/
def buttonMap : BindingMap Binary64 := { ops := [tagRow tagButton] }

/-- INTERNAL: the tag has then one object that is read, and no row writes it. -/
theorem buttonMap_oneObject : OneObject buttonMap 6 tagButton := by
  refine ⟨by decide, ⟨tagRow tagButton, List.mem_singleton_self _, by decide⟩, by decide, ?_⟩
  rintro i ⟨op, hrow, -, -, hout⟩
  obtain rfl := List.mem_singleton.mp (List.mem_of_getElem? hrow)
  exact absurd hout (by decide)

/-- What a report of the tag leaves. -/
def buttonAfter (m : HesClmeMsg) (s : BmState Binary64 Unit) : BmState Binary64 Unit :=
  (bmProcessorHandle (BmHost.unwired Binary64) buttonMap m 1 s).state

/-- INTERNAL: a run goes on with a report. -/
theorem buttonAfter_reachable (m : HesClmeMsg) {s : BmState Binary64 Unit}
    (hs : Reachable (BmHost.unwired Binary64) buttonMap s)
    (hm : (bmProcessorHandle (BmHost.unwired Binary64) buttonMap m 1 s).didReturn = true) :
    Reachable (BmHost.unwired Binary64) buttonMap (buttonAfter m s) :=
  ReachableBy.handle m 1 hs trivial (Outcome.eq_returned_state _ hm)

/-- The state behind a press, a temperature and a second press. -/
def buttonTwice : BmState Binary64 Unit :=
  buttonAfter (tagReport tagButton (lit "2")) (buttonAfter (tagReport tagThermometer (lit "20"))
    (buttonAfter (tagReport tagButton (lit "1")) (BmState.initial ())))

/-- INTERNAL: a run gets there. -/
theorem buttonTwice_reachable : Reachable (BmHost.unwired Binary64) buttonMap buttonTwice := by
  apply buttonAfter_reachable
  · apply buttonAfter_reachable
    · apply buttonAfter_reachable _ (ReachableBy.init buttonMap ())
      decide +kernel
    · decide +kernel
  · decide +kernel

/-- Where the tag has the button only, the row reads what the button has reported last. -/
theorem operands_attributed_tag :
    OneObject buttonMap 6 tagButton ∧
      Reachable (BmHost.unwired Binary64) buttonMap buttonTwice ∧
      ∃ pre post, buttonTwice.trace = pre ++
          .operands 0 [(readingOf (tagReport tagButton (lit "2")) : Binary64)] :: post ∧
        lastReport tagButton 6 pre =
          some (readingOf (tagReport tagButton (lit "2")) : Binary64) := by
  have hread : buttonTwice.trace[5]?.bind operandsOf =
      some (0, [readingOf (tagReport tagButton (lit "2"))]) := by decide +kernel
  have hsplit := operands_at buttonTwice.trace 5 0 _ hread
  obtain ⟨op, hrow, hoperands⟩ := operands_attributed (BmHost.unwired Binary64) buttonMap
    buttonTwice buttonTwice_reachable _ _ _ _ hsplit
  obtain rfl : tagRow tagButton = op := Option.some.inj hrow
  obtain ⟨x, hcond, -, hobject⟩ := (List.forall₂_cons.mp hoperands).1
  refine ⟨buttonMap_oneObject, buttonTwice_reachable, _, _, hsplit, ?_⟩
  rw [hobject tagButton buttonMap_oneObject]
  exact hcond

end OpenHes.Analysis
