import OpenHes.Analysis.DeniedFirst

/-!
# Values that travel inside the table

The output gates are asked of rows with a destination. A row without one hands its result
to the value cache whatever the hook says, and the rows that read its device act on it.
Only a reading that leaves the device's writers idle goes no further.
-/

set_option autoImplicit false

namespace OpenHes.Analysis

open OpenHes.Library OpenHes.Model
open CDouble

variable {V α : Type} [CDouble V]

/-! ## Behind a device -/

section Graph

omit [CDouble V]

variable (bm : BindingMap V)

/-- The rows that write device `d`, and the rows from which they can be reached. -/
def WritersOf (d : ℕ) : Set ℕ :=
  { j | ∃ w, WritesDevice bm w d ∧ Relation.ReflTransGen (Feeds bm) j w }

/-- INTERNAL: what feeds one of them is one of them. -/
theorem writersOf_upClosed (d : ℕ) : UpClosed bm (WritersOf bm d) := by
  rintro j k hfeeds ⟨w, hw, hpath⟩
  exact ⟨w, hw, Relation.ReflTransGen.head hfeeds hpath⟩

/-- The rows of `T` can be reached by the message through device `d` only: each device they
read is `d`, or one the message does not report and only rows of `T` write. -/
def BehindDevice (m : HesClmeMsg) (d : ℕ) (T : Set ℕ) : Prop :=
  ∀ t ∈ T, ∀ e, ReadsDevice bm t e →
    e = d ∨ attributedDevice bm m e = false ∧ ∀ j, WritesDevice bm j e → j ∈ T

/-- INTERNAL: such rows are fed by the writers of the device and by one another. -/
theorem BehindDevice.fed {bm : BindingMap V} {m : HesClmeMsg} {d : ℕ} {T : Set ℕ}
    (h : BehindDevice bm m d T) {j k : ℕ} (hfeeds : Feeds bm j k) (hk : k ∈ T) :
    j ∈ { w | WritesDevice bm w d } ∪ T := by
  obtain ⟨e, hwrites, hreads⟩ := hfeeds
  rcases h k hk e hreads with rfl | ⟨-, hT⟩
  · exact Or.inl hwrites
  · exact Or.inr (hT j hwrites)

/-- INTERNAL: with everything upstream of the device they are closed. -/
theorem BehindDevice.upClosed {bm : BindingMap V} {m : HesClmeMsg} {d : ℕ} {T : Set ℕ}
    (h : BehindDevice bm m d T) : UpClosed bm (WritersOf bm d ∪ T) := by
  rintro j k hfeeds (hk | hk)
  · exact Or.inl (writersOf_upClosed bm d j k hfeeds hk)
  · rcases h.fed hfeeds hk with hwrites | hT
    · exact Or.inl ⟨j, hwrites, Relation.ReflTransGen.refl⟩
    · exact Or.inr hT

end Graph

variable (host : BmHost V α) (bm : BindingMap V)

/-- INTERNAL: a reading changes the devices it is attributed to and no others. -/
theorem takeReading_cache_ne (m : HesClmeMsg) (s : BmState V α) {e : ℕ}
    (h : attributedDevice bm m e = false) : (takeReading bm m s).cache e = s.cache e := by
  change (storeReading bm m (readingOf m) s.cache).1 e = _
  rw [storeReading_apply, h]
  rfl

/-- The writers of device `d` have nothing to record for the reading: once it is stored they
and everything upstream of them are idle, or none of the caches that the rows can make then
gives a writer a new result that may go out. -/
def WritersSilent (m : HesClmeMsg) (d : ℕ) (s : BmState V α) : Prop :=
  AllIdle host bm m (WritersOf bm d) (takeReading bm m s) ∨
    ∀ j, WritesDevice bm j d → ∀ op, IsRow bm j op →
      Barren host bm m { cache | CacheReach host bm m (takeReading bm m s).cache cache } op
        (s.mem j)

/-- The reading stops at the writers of device `d`: it is no report of the device, they have
nothing to record for it, and the rows behind the device have read no NaN, or have nothing to
record for what they have read. -/
structure StopsAt (m : HesClmeMsg) (d : ℕ) (T : Set ℕ) (s : BmState V α) : Prop where
  unreported : attributedDevice bm m d = false
  writers : WritersSilent host bm m d s
  behind : ∀ t ∈ T, ∀ op, IsRow bm t op →
    (∀ vs, rowOperands bm s.cache op = some vs → ∀ x ∈ vs, eq x x = true) ∨
      Idle host bm m op (s.mem t) s.cache

/-- INTERNAL: a reading that stops at the device finds the rows behind it idle. -/
theorem StopsAt.allIdle {m : HesClmeMsg} {d : ℕ} {T : Set ℕ} {s : BmState V α}
    (hs : AllSettled bm s) (hT : BehindDevice bm m d T) (h : StopsAt host bm m d T s) :
    AllIdle host bm m T (takeReading bm m s) := by
  intro t ht op hrow
  by_cases hen : op.enabled = true
  swap
  · exact idle_of_disabled host bm m op _ _ (by simpa using hen)
  have hread : ∀ inp ∈ op.inputs,
      (takeReading bm m s).cache inp.deviceIndex = s.cache inp.deviceIndex := by
    intro inp hinp
    apply takeReading_cache_ne
    rcases hT t ht inp.deviceIndex ⟨op, hrow, hen, inp, hinp, rfl⟩ with hd | ⟨hno, -⟩
    · rw [hd]
      exact h.unreported
    · exact hno
  have hops := rowOperands_congr bm op _ _ hread
  rcases h.behind t ht op hrow with hnum | hidle
  · apply idle_of_settled
    intro vs hvs
    rw [hops] at hvs
    exact ⟨hs t op hrow vs hvs, hnum vs hvs⟩
  · intro vs hvs
    rw [hops] at hvs
    exact hidle vs hvs

/-! ## The device of a row -/

/-- Row `i` owns its output device: no other row writes it, and no message reports it. -/
structure OwnsDevice (i : ℕ) (op : BmOperation V) : Prop where
  slot : hasSlot op.outDeviceIndex = true
  alone : ∀ j, WritesDevice bm j op.outDeviceIndex → j = i
  unreported : ∀ m, attributedDevice bm m op.outDeviceIndex = false

/-- INTERNAL: an evaluation of the table leaves a row's last output in the device it owns. -/
theorem OwnsDevice.evaluate {bm : BindingMap V} {i : ℕ} {op : BmOperation V}
    (h : OwnsDevice bm i op) (hrow : IsRow bm i op) (m : HesClmeMsg) (depth : ℕ)
    (s : BmState V α) (hs : s.cache op.outDeviceIndex = (s.mem i).lastOutput) :
    (bmEvaluateAll host bm m depth s).state.cache op.outDeviceIndex =
      ((bmEvaluateAll host bm m depth s).state.mem i).lastOutput := by
  let Holds : BmState V α → Prop := fun t => t.cache op.outDeviceIndex = (t.mem i).lastOutput
  refine bmEvaluateAll_rel host bm m (fun s t => Holds s → Holds t) (fun _ hs => hs)
    (fun _ _ _ h₁ h₂ hs => h₂ (h₁ hs)) ?_ ?_ ?_ depth s hs
  · intro j op' s t _ hdec hs
    have hcache := decideOutput_cache host bm m j op' s
    have hlast := decideOutput_lastOutput host bm m j i op' s
    rw [hdec] at hcache hlast
    exact (congrFun hcache _).trans (hs.trans hlast.symm)
  · intro j op' s t v hrow' hdec hs
    have hcache := decideOutput_cache host bm m j op' s
    have hlast := decideOutput_lastOutput host bm m j i op' s
    rw [hdec] at hcache hlast
    have ht : t.cache op.outDeviceIndex = (t.mem i).lastOutput :=
      (congrFun hcache _).trans (hs.trans hlast.symm)
    change (commitOutput j op' v t).cache op.outDeviceIndex = _
    by_cases hji : j = i
    · subst hji
      obtain rfl := hrow.unique hrow'
      rw [commitOutput_mem_self]
      simp [commitOutput, h.slot]
    · have hen := enabled_of_result host bm m hdec
      rw [commitOutput_mem_ne j i op' v t (Ne.symm hji), commitOutput_cache_ne j _ op' v t]
      · exact ht
      · intro hslot hdev
        exact hji (h.alone j ⟨op', hrow', hen, h.slot, hdev.symm⟩)
  · intro j op' s t v u _ _ _ hall hs
    obtain ⟨hcache, hmem, -⟩ := sendPut_frame j op' v u
    change (sendPut j op' v u).cache op.outDeviceIndex = _
    rw [hcache, hmem]
    exact hall hs

omit [CDouble V] in
/-- INTERNAL: which devices a row writes does not depend on authorTypes of outputs. -/
theorem writesDevice_erased {bm bm' : BindingMap V}
    (h : bm'.ops.map eraseAuthorType = bm.ops.map eraseAuthorType) {j d : ℕ}
    (hwrites : WritesDevice bm j d) : WritesDevice bm' j d := by
  obtain ⟨op, hrow, hen, hslot, hdev⟩ := hwrites
  obtain ⟨op', hrow', heq⟩ := row_of_erased h.symm hrow
  have henabled : (eraseAuthorType op).enabled = (eraseAuthorType op').enabled := by rw [heq]
  have hout : (eraseAuthorType op).outDeviceIndex = (eraseAuthorType op').outDeviceIndex := by
    rw [heq]
  exact ⟨op', hrow', henabled.symm.trans hen, hslot, hout.symm.trans hdev⟩

/-- INTERNAL: in every state of a run a row's last output is in the device it owns. -/
theorem ReachableBy.ownDevice {host : BmHost V α}
    {ok : BindingMap V → BmState V α → HesClmeMsg → Prop} {bm : BindingMap V} {s : BmState V α}
    (hs : ReachableBy host ok bm s) :
    ∀ i op, IsRow bm i op → OwnsDevice bm i op →
      s.cache op.outDeviceIndex = (s.mem i).lastOutput := by
  induction hs with
  | init bm app => exact fun _ _ _ _ => rfl
  | @handle bm s s' m depth _ _ hm ih =>
    intro i op hrow hown
    have hbefore := ih i op hrow hown
    have htake : (takeReading bm m s).cache op.outDeviceIndex = (s.mem i).lastOutput :=
      (takeReading_cache_ne bm m s (hown.unreported m)).trans hbefore
    rcases bmProcessorHandle_returned host bm m depth s s' hm with
      rfl | ⟨-, ⟨rfl, -⟩ | hrun⟩
    · exact hbefore
    · exact htake
    · have hafter := hown.evaluate host hrow m depth (takeReading bm m s) htake
      rwa [hrun] at hafter
  | @setAt bm bm' s atAddress value _ hset ih =>
    intro i op' hrow' hown
    obtain ⟨-, hrows⟩ := bmSetAt_erased hset
    obtain ⟨op, hrow, heq⟩ := row_of_erased hrows hrow'
    have hout : (eraseAuthorType op').outDeviceIndex = (eraseAuthorType op).outDeviceIndex := by
      rw [heq]
    have hout : op'.outDeviceIndex = op.outDeviceIndex := hout
    rw [hout]
    refine ih i op hrow ⟨?_, ?_, ?_⟩
    · rw [← hout]
      exact hown.slot
    · intro j hj
      refine hown.alone j ?_
      rw [hout]
      exact writesDevice_erased hrows hj
    · intro m
      rw [← hout, ← attributedDevice_erased hrows]
      exact hown.unreported m

/-! ## A refused message and the device of an internal row -/

/-- INTERNAL: the evaluation that follows such a reading touches neither the writers of the
device nor the rows behind it. -/
theorem StopsAt.untouched {m : HesClmeMsg} {d : ℕ} {T : Set ℕ} {s : BmState V α}
    (hs : AllSettled bm s) (hT : BehindDevice bm m d T) (hstop : StopsAt host bm m d T s)
    (depth : ℕ) :
    Untouched bm ({ w | WritesDevice bm w d } ∪ T) (takeReading bm m s)
      (bmEvaluateAll host bm m depth (takeReading bm m s)).state := by
  have hbehind := hstop.allIdle host bm hs hT
  rcases hstop.writers with hidle | hbarren
  · have hall : AllIdle host bm m (WritersOf bm d ∪ T) (takeReading bm m s) := by
      rintro j (hj | hj) op' hrow'
      · exact hidle j hj op' hrow'
      · exact hbehind j hj op' hrow'
    have hrest := bmEvaluateAll_undisturbed host bm m _ hT.upClosed depth _ hall
    refine hrest.toUntouched.mono bm _ ?_
    rintro j (hj | hj)
    · exact Or.inl ⟨j, hj, Relation.ReflTransGen.refl⟩
    · exact Or.inr hj
  · have hclosed := stepClosed_cacheReach host bm m (takeReading bm m s).cache
    exact (bmEvaluateAll_untouched host bm m hclosed (fun _ _ => hT.fed) depth _
      Relation.ReflTransGen.refl hbarren hbehind).2

/-- INTERNAL: a reading that stops at a device leaves the device and the rows behind it as
they were. -/
theorem StopsAt.kept {m : HesClmeMsg} {d depth : ℕ} {T : Set ℕ} {s s' : BmState V α}
    (hs : AllSettled bm s) (hT : BehindDevice bm m d T) (hstop : StopsAt host bm m d T s)
    (h : bmProcessorHandle host bm m depth s = .returned s') :
    s'.cache d = s.cache d ∧ ∀ t ∈ T, putsOf t s'.trace = putsOf t s.trace := by
  rcases bmProcessorHandle_returned host bm m depth s s' h with
    rfl | ⟨-, ⟨rfl, hcache⟩ | hrun⟩
  · exact ⟨rfl, fun _ _ => rfl⟩
  · exact ⟨congrFun hcache _, fun t _ => takeReading_putsOf bm m t s⟩
  · have htouch := hstop.untouched host bm hs hT depth
    rw [hrun] at htouch
    refine ⟨?_, ?_⟩
    · have hkept := htouch.cache d fun j hj => Or.inl hj
      exact hkept.trans (takeReading_cache_ne bm m s hstop.unreported)
    · intro t ht
      exact (htouch.putsOf_eq bm (Or.inr ht)).trans (takeReading_putsOf bm m t s)

/-- INTERNAL: a reading that a source-fed row has an answer to changes the device it owns. -/
theorem OwnsDevice.idle_of_kept {m : HesClmeMsg} {i depth : ℕ} {op : BmOperation V}
    (hrow : IsRow bm i op) (hown : OwnsDevice bm i op) (hfed : SourceFed bm i)
    (hap : op.operation ≠ lit "ap") {s s' : BmState V α} (hs : Reachable host bm s)
    (hnum : ∀ vs, rowOperands bm (takeReading bm m s).cache op = some vs →
      (∀ x ∈ vs, eq x x = true) ∧
        ∀ v, applyCondition op.outAdjustment (builtinResult op vs) = some v → eq v v = true)
    (h : bmProcessorHandle host bm m depth s = .returned s')
    (hkept : s'.cache op.outDeviceIndex = s.cache op.outDeviceIndex) :
    NothingToSend host bm m i op s := by
  intro hrep
  by_cases hflag : (storeReading bm m (readingOf m : V) s.cache).2 = true
  · have hs' : Reachable host bm s' := ReachableBy.handle m depth hs trivial h
    rw [bmProcessorHandle_stored host bm m depth s hrep hflag] at h
    have hdone := bmEvaluateAll_row_done host bm m hrow (computes_builtin host op hap) depth _ s'
      (fun vs hvs => Or.inl (hnum vs hvs).1) (hfed.allIdle host bm m _) h
    cases hdec : decideOutput host bm m i op (takeReading bm m s) with
    | mk t result =>
    have hdecision := decideOutput_decision host bm m (computes_builtin host op hap) i
      (takeReading bm m s)
    rw [hdec] at hdecision
    cases result with
    | none => exact idle_of_no_result host bm m (s := takeReading bm m s) (i := i) hap (by rw [hdec])
    | some v =>
      -- the device would hold the new output, which differs from the old one
      obtain ⟨vs, raw, hvs, -, hraw, hadj, hnew, -⟩ := decideOutput_some host bm m i op _ t v hdec
      rw [computeResult_builtin host i op vs _ hap] at hraw
      obtain rfl := Option.some.inj hraw
      have hlast := hdone.lastOutput
      rw [← hdecision] at hlast
      have hold : (s.mem i).lastOutput = some v := by
        calc (s.mem i).lastOutput = s.cache op.outDeviceIndex :=
              (ReachableBy.ownDevice hs i op hrow hown).symm
          _ = s'.cache op.outDeviceIndex := hkept.symm
          _ = (s'.mem i).lastOutput := ReachableBy.ownDevice hs' i op hrow hown
          _ = some v := hlast
      have hsame : outputUnchanged ((takeReading bm m s).mem i) v = eq v v := by
        change outputUnchanged (s.mem i) v = eq v v
        unfold outputUnchanged
        rw [hold]
      rw [hsame, (hnum vs hvs).2 v hadj] at hnew
      cases hnew
  · have hcache := storeReading_unstored bm m (readingOf m : V) s.cache (by simpa using hflag)
    apply idle_of_settled
    intro vs hvs
    refine ⟨?_, (hnum vs hvs).1⟩
    refine ReachableBy.settled hs i op hrow vs ?_
    rw [← hcache]
    exact hvs

/-- Whatever the hook says of the message: when the reading stops at the device of a row,
the device keeps its value and nothing is sent for the rows behind it. A row that is built
in, owns its device, is fed by sources alone and reads and computes no NaN keeps its
device's value exactly when the reading leaves the row idle.
SRCLINE: bm.c:716-752, bm.c:573-595 -/
theorem device_kept (s : BmState V α) (hs : Reachable host bm s) (i : ℕ) (op : BmOperation V)
    (hrow : IsRow bm i op) (m : HesClmeMsg) (depth : ℕ) (s' : BmState V α)
    (h : bmProcessorHandle host bm m depth s = .returned s') :
    (∀ T, BehindDevice bm m op.outDeviceIndex T → StopsAt host bm m op.outDeviceIndex T s →
      s'.cache op.outDeviceIndex = s.cache op.outDeviceIndex ∧
        ∀ t ∈ T, putsOf t s'.trace = putsOf t s.trace) ∧
    (OwnsDevice bm i op → SourceFed bm i → op.operation ≠ lit "ap" →
      (∀ vs, rowOperands bm (takeReading bm m s).cache op = some vs →
        (∀ x ∈ vs, eq x x = true) ∧
          ∀ v, applyCondition op.outAdjustment (builtinResult op vs) = some v → eq v v = true) →
      (s'.cache op.outDeviceIndex = s.cache op.outDeviceIndex ↔
        NothingToSend host bm m i op s)) := by
  have hsettled := ReachableBy.settled hs
  refine ⟨fun T hT hstop => hstop.kept host bm hsettled hT h, ?_⟩
  intro hown hfed hap hnum
  refine ⟨fun hkept => hown.idle_of_kept host bm hrow hfed hap hs hnum h hkept, ?_⟩
  intro hnothing
  by_cases hrep : isReport m = true
  · have hwriters : AllIdle host bm m (WritersOf bm op.outDeviceIndex) (takeReading bm m s) := by
      rintro j ⟨w, hw, hpath⟩ op' hrow'
      rw [hown.alone w hw] at hpath
      -- nothing is upstream of the row, so it is the row itself
      rcases Relation.reflTransGen_iff_eq_or_transGen.mp hpath with hij | htrans
      · rw [hij] at hrow
        rw [← hrow.unique hrow']
        have hidle := hnothing hrep
        rw [hij] at hidle
        exact hidle
      · have hup : j ∈ Upstream bm i := htrans
        rw [hfed.upstream] at hup
        exact absurd hup (Set.notMem_empty j)
    have hstop : StopsAt host bm m op.outDeviceIndex ∅ s :=
      { unreported := hown.unreported m
        writers := Or.inl hwriters
        behind := fun t ht => absurd ht (Set.notMem_empty t) }
    exact (hstop.kept host bm hsettled (fun t ht => absurd ht (Set.notMem_empty t)) h).1
  · rcases bmProcessorHandle_returned host bm m depth s s' h with rfl | ⟨hyes, -⟩
    · rfl
    · exact absurd hyes hrep

/-! ## A lamp behind an internal value -/

/-- The lamp's row without its destination: the result is an internal value. -/
def hiddenRow : BmOperation Binary64 := { lampRow with outDestObject := [] }

/-- A row that acts on the internal value. -/
def chainedRow : BmOperation Binary64 where
  operation := lit "gt"
  tableCode := lit "ot1"
  outCode := lit "op2"
  inputs := [{ deviceIndex := 2 }]
  inputParams := [.live, .preset (Binary64.pack false 0)]
  outDeviceIndex := 3
  outDestObject := lit "/lx/ob/uo/li/ll/da/cv"

/-- The two of them. -/
def chainMap : BindingMap Binary64 := { ops := [hiddenRow, chainedRow] }

/-- INTERNAL: the rows of the map. -/
theorem chainMap_row {i : ℕ} {op : BmOperation Binary64} (h : IsRow chainMap i op) :
    i = 0 ∧ op = hiddenRow ∨ i = 1 ∧ op = chainedRow := by
  match i, h with
  | 0, h => exact Or.inl ⟨rfl, (Option.some.inj h).symm⟩
  | 1, h => exact Or.inr ⟨rfl, (Option.some.inj h).symm⟩
  | i + 2, h => simp [IsRow, chainMap] at h

/-- INTERNAL: the second row is behind the first row's device. -/
theorem chainMap_behind (m : HesClmeMsg) : BehindDevice chainMap m 2 {1} := by
  rintro t rfl e ⟨op, hrow, -, inp, hinp, rfl⟩
  obtain ⟨hone, -⟩ | ⟨-, rfl⟩ := chainMap_row hrow
  · omega
  · obtain rfl := List.mem_singleton.mp hinp
    exact Or.inl rfl

/-- The state after a denied press. -/
def chainReached : BmState Binary64 Unit :=
  (bmProcessorHandle lampHost chainMap (press (lit "un=b") (lit "1")) 3 (BmState.initial ())).state

/-- A denied press switches the lamp on through the internal value. -/
theorem chain_reaches_lamp :
    chainMap.authzDisabled = false ∧ Reachable lampHost chainMap (BmState.initial ()) ∧
      IsRow chainMap 0 hiddenRow ∧ (∃ inp ∈ hiddenRow.inputs, inp.accompanyOp = lit "au") ∧
      hiddenRow.outDestObject = [] ∧ hiddenRow.outDeviceIndex = 2 ∧
      hookAccepts lampHost (press (lit "un=b") (lit "1")) hiddenRow = false ∧
      BehindDevice chainMap (press (lit "un=b") (lit "1")) 2 {1} ∧
      bmProcessorHandle lampHost chainMap (press (lit "un=b") (lit "1")) 3 (BmState.initial ()) =
        .returned chainReached ∧
      (BmState.initial (V := Binary64) ()).cache 2 = none ∧ chainReached.cache 2 = some one ∧
      putsOf 1 chainReached.trace = [putMessage chainedRow one] :=
  ⟨rfl, ReachableBy.init chainMap (), rfl, ⟨_, List.mem_singleton.mpr rfl, rfl⟩, rfl, rfl,
    by decide, chainMap_behind _, Outcome.eq_returned_state _ (by decide +kernel), rfl,
    by decide +kernel, by decide +kernel⟩

/-- INTERNAL: nothing feeds the first row. -/
theorem chainMap_sourceFed : SourceFed chainMap 0 := by
  rintro d ⟨op, hrow, -, inp, hinp, rfl⟩ j ⟨op', hrow', -, -, hout⟩
  obtain ⟨-, rfl⟩ | ⟨habs, -⟩ := chainMap_row hrow
  swap
  · omega
  obtain rfl := List.mem_singleton.mp hinp
  rcases chainMap_row hrow' with ⟨-, rfl⟩ | ⟨-, rfl⟩
  · exact absurd hout (by decide)
  · exact absurd hout (by decide)

/-- The same press once more changes nothing any more. -/
theorem device_kept_chain :
    StopsAt lampHost chainMap (press (lit "un=b") (lit "1")) 2 {1} chainReached ∧
      (bmProcessorHandle lampHost chainMap (press (lit "un=b") (lit "1")) 3
          chainReached).state.cache 2 = chainReached.cache 2 ∧
        ∀ t ∈ ({1} : Set ℕ), putsOf t (bmProcessorHandle lampHost chainMap
          (press (lit "un=b") (lit "1")) 3 chainReached).state.trace =
            putsOf t chainReached.trace := by
  have hreached : Reachable lampHost chainMap chainReached :=
    ReachableBy.handle (press (lit "un=b") (lit "1")) 3 (ReachableBy.init chainMap ()) trivial
      (Outcome.eq_returned_state _ (by decide +kernel))
  have hwriter : ∀ j ∈ WritersOf chainMap 2, j = 0 := by
    rintro j ⟨w, ⟨op, hrow, -, -, hout⟩, hpath⟩
    obtain ⟨rfl, -⟩ | ⟨-, rfl⟩ := chainMap_row hrow
    · rcases Relation.reflTransGen_iff_eq_or_transGen.mp hpath with hj | htrans
      · exact hj.symm
      · have hup : j ∈ Upstream chainMap 0 := htrans
        rw [chainMap_sourceFed.upstream] at hup
        exact absurd hup (Set.notMem_empty j)
    · exact absurd hout (by decide)
  have hstop : StopsAt lampHost chainMap (press (lit "un=b") (lit "1")) 2 {1} chainReached := by
    refine ⟨by decide, Or.inl ?_, ?_⟩
    · intro j hj op hrow vs hvs hch
      obtain rfl := hwriter j hj
      obtain ⟨-, rfl⟩ | ⟨habs, -⟩ := chainMap_row hrow
      · have hoperands : vs = [readingOf (press (lit "un=b") (lit "1"))] :=
          Option.some.inj (hvs.symm.trans rfl)
        rw [hoperands] at hch
        exact absurd hch (by decide +kernel)
      · omega
    · rintro t rfl op hrow
      refine Or.inl fun vs hvs x hx => ?_
      obtain ⟨habs, -⟩ | ⟨-, rfl⟩ := chainMap_row hrow
      · omega
      · have hone : rowOperands chainMap chainReached.cache chainedRow = some [one] := by
          decide +kernel
        rw [Option.some.inj (hvs.symm.trans hone)] at hx
        obtain rfl := List.mem_singleton.mp hx
        decide
  exact ⟨hstop, (device_kept lampHost chainMap chainReached hreached 0 hiddenRow rfl
    (press (lit "un=b") (lit "1")) 3 _ (Outcome.eq_returned_state _ (by decide +kernel))).1 {1}
    (chainMap_behind _) hstop⟩

end OpenHes.Analysis
