import OpenHes.Analysis.DeniedFirst
import OpenHes.Analysis.Termination

/-!
# What denied readings can do to a row

A denied reading is stored like any other: the value cache is what the devices reported,
whoever asked. What a row that reads sources finds in the cache, and what it has noted of it, is
decided by the reports alone, whatever other rows do; and so is what it sends. So of two runs that
differ in denied payloads it can be told from the messages where the row sends something else. It
does not where the readings that differ were overwritten before the row is recomputed.
-/

set_option autoImplicit false

namespace OpenHes.Analysis

open OpenHes.Library OpenHes.Model
open CDouble

variable {V α : Type} [CDouble V] (host : BmHost V α) (bm : BindingMap V)

/-- The row reads sources only, and each input asks for authorization: every input names a
source object, is marked 'au', and reads a device that no enabled row writes. -/
structure ExternallyFed (i : ℕ) (op : BmOperation V) : Prop where
  external : ∀ inp ∈ op.inputs, inp.sourceObject ≠ [] ∧ inp.accompanyOp = lit "au"
  sourceFed : SourceFed bm i

/-! ## What a row has seen -/

/-- What the reports of a run leave for a row: the readings, the operands it has noted last, and
the result it has recorded last. -/
structure Seen (V : Type) where
  cache : ValueCache V
  noted : Option (List V)
  recorded : Option V

/-- The readings with those of a report, if it is one that some input takes. -/
def Seen.store (m : HesClmeMsg) (x : Seen V) : Option (ValueCache V) :=
  if isReport m && (storeReading bm m (readingOf m) x.cache).2 then
    some (storeReading bm m (readingOf m) x.cache).1
  else none

/-- The operands the row is recomputed from for the message, if it is: those it has then, where
they are not the ones it has noted. -/
def Seen.renewed (op : BmOperation V) (m : HesClmeMsg) (x : Seen V) : Option (List V) :=
  (x.store bm m).bind fun cache =>
    (rowOperands bm cache op).filter fun vs => inputsChanged { lastOperands := x.noted } vs

/-- The result the row records for the message, if it does: computed from the operands it is
recomputed from, let through by the gates, and not the one it has recorded. -/
def Seen.result (op : BmOperation V) (f : List V → Option V) (m : HesClmeMsg) (x : Seen V) :
    Option V :=
  gatedResult host bm m op { lastOutput := x.recorded } ((x.renewed bm op m).bind f)

/-- What the row has seen when the message was taken. -/
def Seen.take (op : BmOperation V) (f : List V → Option V) (m : HesClmeMsg) (x : Seen V) : Seen V :=
  (x.store bm m).elim x fun cache => ⟨cache, (rowOperands bm cache op).or x.noted,
    (x.result host bm op f m).or x.recorded⟩

/-- The PUTs the row sends for the messages. -/
def Seen.sends (op : BmOperation V) (f : List V → Option V) :
    List HesClmeMsg → Seen V → List HesClmeMsg
  | [], _ => []
  | m :: ms, x => sentFor op (x.result host bm op f m) ++ sends op f ms (x.take host bm op f m)

/-- With each message whose output may go out the row rests on the operands it is recomputed
from. -/
def Seen.RestsOver (op : BmOperation V) (f : List V → Option V) : List HesClmeMsg → Seen V → Prop
  | [], _ => True
  | m :: ms, x =>
    (outputAuthorized host bm m op = true → ∀ vs ∈ x.renewed bm op m, RestsOn op vs) ∧
      RestsOver op f ms (x.take host bm op f m)

/-- What row `i` has seen in a state. -/
def seenIn (i : ℕ) (s : BmState V α) : Seen V :=
  ⟨s.cache, (s.mem i).lastOperands, (s.mem i).lastOutput⟩

/-! ## Two message sequences -/

/-- A message of both sequences, or one that differs in the payload. -/
inductive TwinStep
  | shared (m : HesClmeMsg)
  | denied (m : HesClmeMsg) (payload : CStr)

/-- The message of the first sequence. -/
def TwinStep.left : TwinStep → HesClmeMsg
  | .shared m => m
  | .denied m _ => m

/-- The message of the second sequence. -/
def TwinStep.right : TwinStep → HesClmeMsg
  | .shared m => m
  | .denied m payload => { m with payload := payload }

/-- Where the sequences differ the hook denies both messages for the row. -/
def TwinStep.DeniedFor (op : BmOperation V) : TwinStep → Prop
  | .shared _ => True
  | .denied m payload =>
    hookAccepts host m op = false ∧ hookAccepts host { m with payload := payload } op = false

/-- In any two runs on the sequences the row has sent the same PUTs after each of the messages. -/
def SamePuts (i : ℕ) (steps : List TwinStep) (start : BmState V α) : Prop :=
  ∀ k s t, RunMessages host bm ((steps.take k).map TwinStep.left) start s →
    RunMessages host bm ((steps.take k).map TwinStep.right) start t →
      putsOf i t.trace = putsOf i s.trace

/-- With each message of both sequences the row sends the same in both. Nothing is asked of the
others. -/
def SendsAlike (op : BmOperation V) (f : List V → Option V) :
    List TwinStep → Seen V → Seen V → Prop
  | [], _, _ => True
  | .shared m :: rest, x, y =>
    sentFor op (y.result host bm op f m) = sentFor op (x.result host bm op f m) ∧
      SendsAlike op f rest (x.take host bm op f m) (y.take host bm op f m)
  | .denied m payload :: rest, x, y =>
    SendsAlike op f rest (x.take host bm op f m)
      (y.take host bm op f { m with payload := payload })

/-- The devices whose readings may differ after a message, of those that may before it: a message
that differs may leave any reading of its own, one of both sequences overwrites it. -/
def TwinStep.unlike (devices : Set ℕ) : TwinStep → Set ℕ
  | .shared m => { d ∈ devices | isReport m = true → attributedDevice bm m d = false }
  | .denied m _ => devices ∪ { d | attributedDevice bm m d = true }

/-- The message recomputes the row in both sequences or in neither; and if it does, no device that
the row reads may differ. -/
structure Overwrites (op : BmOperation V) (m : HesClmeMsg) (devices : Set ℕ) (x y : Seen V) :
    Prop where
  both : (y.renewed bm op m).isSome = (x.renewed bm op m).isSome
  alike : (x.renewed bm op m).isSome = true → ∀ inp ∈ op.inputs, inp.deviceIndex ∉ devices

/-- So does each message of both sequences whose output may go out. -/
def Overwritten (op : BmOperation V) (f : List V → Option V) :
    List TwinStep → Set ℕ → Seen V → Seen V → Prop
  | [], _, _, _ => True
  | .shared m :: rest, devices, x, y =>
    (outputAuthorized host bm m op = true →
        Overwrites bm op m (TwinStep.unlike bm devices (.shared m)) x y) ∧
      Overwritten op f rest (TwinStep.unlike bm devices (.shared m)) (x.take host bm op f m)
        (y.take host bm op f m)
  | .denied m payload :: rest, devices, x, y =>
    Overwritten op f rest (TwinStep.unlike bm devices (.denied m payload))
      (x.take host bm op f m) (y.take host bm op f { m with payload := payload })

variable {i : ℕ} {op : BmOperation V} {f : List V → Option V}

/-! ## The evaluator sees what the reports leave -/

/-- The row finds in the state what it has seen. -/
structure Finds (i : ℕ) (op : BmOperation V) (s : BmState V α) (x : Seen V) : Prop where
  cache : op.enabled = true → ∀ inp ∈ op.inputs, s.cache inp.deviceIndex = x.cache inp.deviceIndex
  noted : (s.mem i).lastOperands = x.noted
  recorded : (s.mem i).lastOutput = x.recorded

/-- INTERNAL: caches that agree on what a row reads, if it is enabled, give it the same
operands. -/
theorem rowOperands_agree (cache cache' : ValueCache V) (h : op.enabled = true →
    ∀ inp ∈ op.inputs, cache' inp.deviceIndex = cache inp.deviceIndex) :
    rowOperands bm cache' op = rowOperands bm cache op := by
  by_cases hen : op.enabled = true
  · exact rowOperands_congr bm op cache cache' (h hen)
  · have hdis : op.enabled = false := by simpa using hen
    rw [rowOperands_disabled bm op cache' hdis, rowOperands_disabled bm op cache hdis]

/-- INTERNAL: recording another row's result leaves the operands of a row that reads sources. -/
theorem rowOperands_commit_other (hrow : IsRow bm i op) (hfed : SourceFed bm i) {j : ℕ}
    {op' : BmOperation V} (hrow' : IsRow bm j op') (hen' : op'.enabled = true) (v : V)
    (t : BmState V α) :
    rowOperands bm (commitOutput j op' v t).cache op = rowOperands bm t.cache op := by
  apply rowOperands_agree
  intro hen inp hinp
  refine commitOutput_cache_ne j _ op' v t fun hslot hdev => ?_
  exact hfed inp.deviceIndex ⟨op, hrow, hen, inp, hinp, rfl⟩ j
    ⟨op', hrow', hen', hdev ▸ hslot, hdev.symm⟩

/-- INTERNAL: a row that reads sources and has no operands notes none. -/
theorem bmEvaluateAll_unread (hrow : IsRow bm i op) (hfed : SourceFed bm i) (m : HesClmeMsg)
    (depth : ℕ) (s : BmState V α) (hnone : rowOperands bm s.cache op = none) :
    ((bmEvaluateAll host bm m depth s).state.mem i).lastOperands = (s.mem i).lastOperands := by
  let R : BmState V α → BmState V α → Prop := fun u w => rowOperands bm u.cache op = none →
    rowOperands bm w.cache op = none ∧ (w.mem i).lastOperands = (u.mem i).lastOperands
  have hlook : ∀ (j : ℕ) (op' : BmOperation V) (u w : BmState V α) (v : Option V),
      IsRow bm j op' → decideOutput host bm m j op' u = (w, v) → R u w := by
    intro j op' u w v hrow' hdec hu
    have hcache := decideOutput_cache host bm m j op' u
    have hmem := decideOutput_mem host bm m j op' u
    rw [hdec] at hcache hmem
    refine ⟨hcache ▸ hu, ?_⟩
    by_cases hji : i = j
    · subst hji
      obtain rfl := hrow.unique hrow'
      rw [hmem, hu]
      rfl
    · have hne := decideOutput_mem_ne host bm m j i op' u hji
      rw [hdec] at hne
      rw [hne]
  have hrel : R s (bmEvaluateAll host bm m depth s).state := by
    refine bmEvaluateAll_rel host bm m R (fun u hu => ⟨hu, rfl⟩) ?_ ?_ ?_ ?_ depth s
    · intro u w z huw hwz hu
      obtain ⟨hw, hmem⟩ := huw hu
      obtain ⟨hz, hmem'⟩ := hwz hw
      exact ⟨hz, hmem'.trans hmem⟩
    · exact fun j op' u w hrow' hdec => hlook j op' u w none hrow' hdec
    · intro j op' u w v hrow' hdec hu
      obtain ⟨hw, hmem⟩ := hlook j op' u w (some v) hrow' hdec hu
      have hji : i ≠ j := by
        rintro rfl
        obtain rfl := hrow.unique hrow'
        obtain ⟨vs, _, hvs, -⟩ := decideOutput_some host bm m i op u w v hdec
        rw [hu] at hvs
        cases hvs
      refine ⟨?_, ?_⟩
      · rw [rowOperands_commit_other bm hrow hfed hrow' (enabled_of_result host bm m hdec), hw]
      · rw [commitOutput_mem_ne j i op' v w hji, hmem]
    · intro j op' u w v z hrow' hdec _ huz hu
      obtain ⟨hcache, hmem, -⟩ := sendPut_frame j op' v z
      rw [hcache, hmem]
      exact huz hu
  exact (hrel hnone).2

/-- INTERNAL: what is stored is decided by the reports, where the row finds what it has seen. -/
theorem Finds.stored {s : BmState V α} {x : Seen V} (h : Finds i op s x) (m : HesClmeMsg) :
    (x.store bm m = none ∧
        (isReport m = false ∨ (storeReading bm m (readingOf m : V) s.cache).2 = false)) ∨
      ∃ cache, x.store bm m = some cache ∧ isReport m = true ∧
        (storeReading bm m (readingOf m : V) s.cache).2 = true ∧
        rowOperands bm (takeReading bm m s).cache op = rowOperands bm cache op ∧
        (op.enabled = true → ∀ inp ∈ op.inputs,
          (takeReading bm m s).cache inp.deviceIndex = cache inp.deviceIndex) := by
  have hflag := storeReading_flag bm m (readingOf m : V) (readingOf m) x.cache s.cache
  unfold Seen.store
  rcases stored_or_not bm m (readingOf m : V) s.cache with ⟨hrep, hstored⟩ | hno
  · right
    have hcache : op.enabled = true → ∀ inp ∈ op.inputs,
        (takeReading bm m s).cache inp.deviceIndex =
          (storeReading bm m (readingOf m : V) x.cache).1 inp.deviceIndex := by
      intro hen inp hinp
      show (storeReading bm m (readingOf m : V) s.cache).1 _ = _
      rw [storeReading_apply, storeReading_apply, h.cache hen inp hinp]
    refine ⟨_, if_pos ?_, hrep, hstored, rowOperands_agree bm _ _ hcache, hcache⟩
    rw [hrep, hflag, hstored]
    rfl
  · refine Or.inl ⟨if_neg ?_, hno⟩
    rw [hflag, Bool.and_eq_true]
    rintro ⟨hrep, hstored⟩
    rcases hno with hno | hno
    · rw [hrep] at hno
      cases hno
    · rw [hstored] at hno
      cases hno

/-- INTERNAL: **a message** leaves in the state the readings that the row sees of it, and the
operands it notes, whatever other rows do.
SRCLINE: bm.c:660-680, bm.c:992-1081 -/
theorem Finds.looked (hrow : IsRow bm i op) (hfed : SourceFed bm i) {s s' : BmState V α}
    {x : Seen V} (h : Finds i op s x) (m : HesClmeMsg) (depth : ℕ)
    (hs : bmProcessorHandle host bm m depth s = .returned s') :
    (op.enabled = true → ∀ inp ∈ op.inputs,
        s'.cache inp.deviceIndex = (x.take host bm op f m).cache inp.deviceIndex) ∧
      (s'.mem i).lastOperands = (x.take host bm op f m).noted := by
  unfold Seen.take
  rcases h.stored bm m with ⟨hstore, hno⟩ | ⟨cache, hstore, hrep, hflag, hops, hcache⟩
  · obtain ⟨hcache, hmem, -⟩ := bmProcessorHandle_unstored host bm m depth s s' i hno hs
    rw [hstore]
    refine ⟨fun hen inp hinp => ?_, ?_⟩
    · rw [hcache]
      exact h.cache hen inp hinp
    · rw [hmem]
      exact h.noted
  · rw [bmProcessorHandle_stored host bm m depth s hrep hflag] at hs
    rw [hstore]
    have hrest := bmEvaluateAll_undisturbed host bm m _ (upstream_upClosed bm i) depth _
      (hfed.allIdle host bm m (takeReading bm m s))
    rw [hs] at hrest
    have hkept := Undisturbed.rowOperands host bm m hrow hrest
    refine ⟨fun hen inp hinp => ?_, ?_⟩
    · show s'.cache inp.deviceIndex = cache inp.deviceIndex
      rw [← hcache hen inp hinp]
      exact hrest.cache _ fun k hk =>
        absurd hk (hfed inp.deviceIndex ⟨op, hrow, hen, inp, hinp, rfl⟩ k)
    · show (s'.mem i).lastOperands = (rowOperands bm cache op).or x.noted
      cases hvs : rowOperands bm cache op with
      | some vs =>
        exact bmEvaluateAll_settles host bm m depth _ s' hs i op hrow vs
          (hkept.trans (hops.trans hvs))
      | none =>
        have hunread := bmEvaluateAll_unread host bm hrow hfed m depth _ (hops.trans hvs)
        rw [hs] at hunread
        exact hunread.trans h.noted

/-! ## The row's outputs -/

/-- INTERNAL: without a raw result there is none to record. -/
theorem gatedResult_none (m : HesClmeMsg) (op : BmOperation V) (mem : OpMemory V) :
    gatedResult host bm m op mem none = none := rfl

/-- The row has recorded the result, if there is one, and sent it. -/
structure Comes (i : ℕ) (op : BmOperation V) (result : Option V) (s s' : BmState V α) : Prop where
  recorded : (s'.mem i).lastOutput = result.or (s.mem i).lastOutput
  sent : putsOf i s'.trace = putsOf i s.trace ++ sentFor op result

/-- INTERNAL: a row comes to nothing when its output and its PUTs stay. -/
theorem comes_none {s s' : BmState V α}
    (hlast : (s'.mem i).lastOutput = (s.mem i).lastOutput)
    (hputs : putsOf i s'.trace = putsOf i s.trace) : Comes i op none s s' :=
  ⟨hlast, hputs.trans (List.append_nil _).symm⟩

/-- INTERNAL: a message that is not stored makes no row record anything. -/
theorem comes_unstored (m : HesClmeMsg) (depth : ℕ) {s s' : BmState V α}
    (hno : isReport m = false ∨ (storeReading bm m (readingOf m : V) s.cache).2 = false)
    (h : bmProcessorHandle host bm m depth s = .returned s') : Comes i op none s s' := by
  obtain ⟨-, hmem, hputs⟩ := bmProcessorHandle_unstored host bm m depth s s' i hno h
  exact comes_none (by rw [hmem]) hputs

/-- INTERNAL: **a message whose output is refused** makes the row record nothing, whatever it
shows the row.
SRCLINE: bm.c:573-595, bm.c:736-739 -/
theorem comes_refused (hrow : IsRow bm i op) (hdest : op.outDestObject ≠ [])
    (m : HesClmeMsg) (depth : ℕ) {s s' : BmState V α}
    (hrefused : outputAuthorized host bm m op = false)
    (h : bmProcessorHandle host bm m depth s = .returned s') : Comes i op none s s' := by
  rcases stored_or_not bm m (readingOf m : V) s.cache with ⟨hrep, hflag⟩ | hno
  · rw [bmProcessorHandle_stored host bm m depth s hrep hflag] at h
    have hbarren : Barren host bm m Set.univ op (s.mem i) :=
      fun _ _ _ raw _ _ => gatedResult_refused host bm m op _ (some raw) hdest hrefused
    obtain ⟨-, hlast, hputs⟩ := putsOf_of_barren host bm m (fun _ _ _ _ => Set.mem_univ _) hrow
      depth (Set.mem_univ _) hbarren h
    exact comes_none hlast hputs
  · exact comes_unstored host bm m depth hno h

/-- INTERNAL: **a message by which the row is not recomputed** makes it record nothing. -/
theorem comes_kept (hrow : IsRow bm i op) (hfed : SourceFed bm i) {s s' : BmState V α}
    {x : Seen V} (hfinds : Finds i op s x) (m : HesClmeMsg) (depth : ℕ)
    (hnone : x.renewed bm op m = none)
    (h : bmProcessorHandle host bm m depth s = .returned s') : Comes i op none s s' := by
  rcases hfinds.stored bm m with ⟨-, hno⟩ | ⟨cache, hstore, hrep, hflag, hops, -⟩
  · exact comes_unstored host bm m depth hno h
  · rw [bmProcessorHandle_stored host bm m depth s hrep hflag] at h
    have hidle : Idle host bm m op (s.mem i) (takeReading bm m s).cache := by
      intro vs hvs hch
      have hrenewed : x.renewed bm op m = some vs := by
        unfold Seen.renewed
        rw [hstore, Option.bind_some, ← hops, hvs, Option.filter_some, if_pos]
        rw [← hfinds.noted]
        exact hch
      rw [hnone] at hrenewed
      cases hrenewed
    have hall := allIdle_insert host bm m (s := takeReading bm m s) hrow hidle
      (hfed.allIdle host bm m _)
    have hU := insert_upstream_upClosed bm i
    have hrest := bmEvaluateAll_undisturbed host bm m _ hU depth _ hall
    rw [h] at hrest
    exact comes_none (hrest.lastOutput i (Or.inl rfl))
      (putsOf_of_idle host bm hU m depth (Or.inl rfl) hall h)

/-- INTERNAL: **a message by which it is recomputed** makes it record and send the result, if that
may go out and is new. -/
theorem comes_renewed (hrow : IsRow bm i op) (hfed : SourceFed bm i) (hf : Computes host op f)
    {s s' : BmState V α} {x : Seen V} (hfinds : Finds i op s x) (m : HesClmeMsg) (depth : ℕ)
    {vs : List V} (hvs : x.renewed bm op m = some vs) (hrest : RestsOn op vs)
    (h : bmProcessorHandle host bm m depth s = .returned s') :
    Comes i op (gatedResult host bm m op (s.mem i) (f vs)) s s' := by
  unfold Seen.renewed at hvs
  rcases hfinds.stored bm m with ⟨hstore, -⟩ | ⟨cache, hstore, hrep, hflag, hops, -⟩
  · rw [hstore] at hvs
    cases hvs
  · rw [hstore, Option.bind_some, Option.filter_eq_some_iff, ← hops] at hvs
    obtain ⟨hvs, hch⟩ := hvs
    have hchanged : inputsChanged (s.mem i) vs = true := by
      rw [← hfinds.noted] at hch
      exact hch
    rw [bmProcessorHandle_stored host bm m depth s hrep hflag] at h
    have hdone := bmEvaluateAll_row_done host bm m hrow hf depth _ s'
      (fun us hus => Option.some.inj (hvs.symm.trans hus) ▸ hrest) (hfed.allIdle host bm m _) h
    have hdecision : decision host bm m op f ((takeReading bm m s).mem i)
        (rowOperands bm (takeReading bm m s).cache op) =
        gatedResult host bm m op (s.mem i) (f vs) := by
      rw [hvs]
      exact if_pos hchanged
    rw [hdecision] at hdone
    exact ⟨hdone.lastOutput, hdone.sent.trans (by rw [takeReading_putsOf])⟩

/-- INTERNAL: what a message shows the row is recorded where it is stored only. -/
theorem Seen.recorded_take (m : HesClmeMsg) (x : Seen V) :
    (x.take host bm op f m).recorded = (x.result host bm op f m).or x.recorded := by
  cases hstore : x.store bm m with
  | some cache => rw [Seen.take, hstore, Option.elim_some]
  | none =>
    have hrenewed : x.renewed bm op m = none := by rw [Seen.renewed, hstore, Option.bind_none]
    have hresult : x.result host bm op f m = none := by
      rw [Seen.result, hrenewed]
      exact gatedResult_none host bm m op _
    rw [Seen.take, hstore, Option.elim_none, hresult, Option.none_or]

/-- INTERNAL: **a message** makes the row record and send what it comes to by the reports. -/
theorem Finds.handle (hrow : IsRow bm i op) (hdest : op.outDestObject ≠ []) (hfed : SourceFed bm i)
    (hf : Computes host op f) {s s' : BmState V α} {x : Seen V} (hfinds : Finds i op s x)
    (m : HesClmeMsg) (hrests : outputAuthorized host bm m op = true →
      ∀ vs ∈ x.renewed bm op m, RestsOn op vs) (depth : ℕ)
    (h : bmProcessorHandle host bm m depth s = .returned s') :
    Finds i op s' (x.take host bm op f m) ∧
      putsOf i s'.trace = putsOf i s.trace ++ sentFor op (x.result host bm op f m) := by
  have hcomes : Comes i op (x.result host bm op f m) s s' := by
    unfold Seen.result
    by_cases hgo : outputAuthorized host bm m op = true
    swap
    · have hrefused : outputAuthorized host bm m op = false := by simpa using hgo
      rw [gatedResult_refused host bm m op _ _ hdest hrefused]
      exact comes_refused host bm hrow hdest m depth hrefused h
    cases hvs : x.renewed bm op m with
    | none =>
      rw [Option.bind_none, gatedResult_none host bm m op]
      exact comes_kept host bm hrow hfed hfinds m depth hvs h
    | some vs =>
      rw [Option.bind_some, gatedResult_congr host bm m op (s.mem i) { lastOutput := x.recorded }
        (f vs) hfinds.recorded.symm]
      exact comes_renewed host bm hrow hfed hf hfinds m depth hvs (hrests hgo vs hvs) h
  obtain ⟨hcache, hnoted⟩ := hfinds.looked host bm (f := f) hrow hfed m depth h
  refine ⟨⟨hcache, hnoted, ?_⟩, hcomes.sent⟩
  rw [hcomes.recorded, hfinds.recorded, Seen.recorded_take]

/-- INTERNAL: **a run** makes the row send what the reports make of it. -/
theorem Finds.run (hrow : IsRow bm i op) (hdest : op.outDestObject ≠ []) (hfed : SourceFed bm i)
    (hf : Computes host op f) {ms : List HesClmeMsg} {s s' : BmState V α} {x : Seen V}
    (hfinds : Finds i op s x) (hrests : x.RestsOver host bm op f ms)
    (h : RunMessages host bm ms s s') :
    putsOf i s'.trace = putsOf i s.trace ++ x.sends host bm op f ms := by
  induction h generalizing x with
  | nil s => exact (List.append_nil _).symm
  | cons depth hm _ ih =>
    obtain ⟨hfirst, hrest⟩ := hrests
    obtain ⟨hafter, hsent⟩ := hfinds.handle host bm hrow hdest hfed hf _ hfirst depth hm
    rw [ih hafter hrest, hsent, Seen.sends, List.append_assoc]

/-! ## The two sequences, message by message -/

/-- INTERNAL: a row whose inputs ask for authorization comes to nothing with a denied message. -/
theorem Seen.result_denied (hauthz : bm.authzDisabled = false) (hdest : op.outDestObject ≠ [])
    (hfed : ExternallyFed bm i op) (m : HesClmeMsg) (hdeny : hookAccepts host m op = false)
    (x : Seen V) : x.result host bm op f m = none := by
  unfold Seen.result
  cases hvs : x.renewed bm op m with
  | none => exact gatedResult_none host bm m op _
  | some vs =>
    obtain ⟨cache, -, hops⟩ := Option.bind_eq_some_iff.mp hvs
    obtain ⟨-, hne, -⟩ := rowOperands_ready bm op cache vs (Option.filter_eq_some_iff.mp hops).1
    obtain ⟨inp, hinp⟩ := List.exists_mem_of_ne_nil _ hne
    exact gatedResult_refused host bm m op _ _ hdest
      (outputAuthorized_denied host bm m op hauthz ⟨inp, hinp, (hfed.external inp hinp).2⟩ hdeny)

/-- INTERNAL: rests over a run, so over its start. -/
theorem Seen.RestsOver.take {ms : List HesClmeMsg} {x : Seen V} (h : x.RestsOver host bm op f ms)
    (k : ℕ) : x.RestsOver host bm op f (ms.take k) := by
  induction ms generalizing k x with
  | nil => rwa [List.take_nil]
  | cons m ms ih =>
    cases k with
    | zero => trivial
    | succ k => exact ⟨h.1, ih h.2 k⟩

/-- INTERNAL: a run stops at each of its messages. -/
theorem runMessages_take {ms : List HesClmeMsg} {s s' : BmState V α}
    (h : RunMessages host bm ms s s') (k : ℕ) : ∃ t, RunMessages host bm (ms.take k) s t := by
  induction h generalizing k with
  | nil s => exact ⟨s, by rw [List.take_nil]; exact RunMessages.nil s⟩
  | cons depth hm _ ih =>
    cases k with
    | zero => exact ⟨_, RunMessages.nil _⟩
    | succ k =>
      obtain ⟨t, ht⟩ := ih k
      exact ⟨t, RunMessages.cons depth hm ht⟩

/-- INTERNAL: the starts of two sequences send the same if the first messages do, and the starts
of what follows them. -/
theorem sends_starts_cons (step : TwinStep) (rest : List TwinStep) (x y : Seen V) :
    (∀ k, y.sends host bm op f (((step :: rest).take k).map TwinStep.right) =
        x.sends host bm op f (((step :: rest).take k).map TwinStep.left)) ↔
      sentFor op (y.result host bm op f step.right) =
          sentFor op (x.result host bm op f step.left) ∧
        ∀ k, (y.take host bm op f step.right).sends host bm op f
            ((rest.take k).map TwinStep.right) =
          (x.take host bm op f step.left).sends host bm op f ((rest.take k).map TwinStep.left) := by
  constructor
  · intro h
    have hfirst : sentFor op (y.result host bm op f step.right) =
        sentFor op (x.result host bm op f step.left) := by
      simpa [Seen.sends] using h 1
    refine ⟨hfirst, fun k => ?_⟩
    have hmore := h (k + 1)
    rw [List.take_succ_cons, List.map_cons, List.map_cons, Seen.sends, Seen.sends, hfirst] at hmore
    exact List.append_cancel_left hmore
  · rintro ⟨hfirst, hrest⟩ k
    cases k with
    | zero => rfl
    | succ k =>
      rw [List.take_succ_cons, List.map_cons, List.map_cons, Seen.sends, Seen.sends, hfirst, hrest]

/-- INTERNAL: **each message of both sequences** sends alike when each of their starts does. -/
theorem sendsAlike_iff (hauthz : bm.authzDisabled = false) (hdest : op.outDestObject ≠ [])
    (hfed : ExternallyFed bm i op) (steps : List TwinStep)
    (hdenied : ∀ step ∈ steps, step.DeniedFor host op) (x y : Seen V) :
    SendsAlike host bm op f steps x y ↔
      ∀ k, y.sends host bm op f ((steps.take k).map TwinStep.right) =
        x.sends host bm op f ((steps.take k).map TwinStep.left) := by
  induction steps generalizing x y with
  | nil => simp [SendsAlike, Seen.sends]
  | cons step rest ih =>
    have ih := ih fun step hstep => hdenied step (List.mem_cons_of_mem _ hstep)
    rw [sends_starts_cons, ← ih]
    cases step with
    | shared m => exact Iff.rfl
    | denied m payload =>
      obtain ⟨hdeny, hdeny'⟩ := hdenied _ List.mem_cons_self
      have hx := Seen.result_denied host bm (f := f) hauthz hdest hfed m hdeny x
      have hy := Seen.result_denied host bm (f := f) hauthz hdest hfed _ hdeny' y
      have hfirst : sentFor op (y.result host bm op f (TwinStep.denied m payload).right) =
          sentFor op (x.result host bm op f (TwinStep.denied m payload).left) :=
        congrArg (sentFor op) (hy.trans hx.symm)
      exact (and_iff_right hfirst).symm

/-! ## Readings that were overwritten -/

omit [CDouble V] in
/-- INTERNAL: a reading that is not stored is attributed to no device. -/
theorem attributedDevice_unstored (m : HesClmeMsg) (v : V) (cache : ValueCache V)
    (hno : (storeReading bm m v cache).2 = false) (d : ℕ) : attributedDevice bm m d = false := by
  by_contra hatt
  rw [storeReading_flag bm m v v cache fun _ => none] at hno
  have hsame := congrFun (storeReading_unstored bm m v (fun _ => none) hno) d
  rw [storeReading_apply, if_pos (Bool.eq_true_of_not_eq_false hatt)] at hsame
  cases hsame

/-- What the row has seen in the two sequences differs in the readings of the devices, and in the
operands it has noted, at most. -/
structure LikeBut (devices : Set ℕ) (x y : Seen V) : Prop where
  cache : ∀ d, d ∉ devices → y.cache d = x.cache d
  recorded : y.recorded = x.recorded

/-- INTERNAL: **a message of both sequences** is stored in both or in neither, and overwrites. -/
theorem LikeBut.store {devices : Set ℕ} {x y : Seen V} (h : LikeBut devices x y) (m : HesClmeMsg) :
    (x.store bm m = none ∧ y.store bm m = none ∧
        ∀ d, d ∉ TwinStep.unlike bm devices (.shared m) → y.cache d = x.cache d) ∨
      ∃ cache cache', x.store bm m = some cache ∧ y.store bm m = some cache' ∧
        ∀ d, d ∉ TwinStep.unlike bm devices (.shared m) → cache' d = cache d := by
  have hflag := storeReading_flag bm m (readingOf m : V) (readingOf m) y.cache x.cache
  unfold Seen.store
  rw [hflag]
  by_cases hstored : (isReport m && (storeReading bm m (readingOf m : V) x.cache).2) = true
  · rw [if_pos hstored, if_pos hstored]
    refine Or.inr ⟨_, _, rfl, rfl, fun d hd => ?_⟩
    rw [storeReading_apply, storeReading_apply]
    by_cases hatt : attributedDevice bm m d = true
    · rw [if_pos hatt, if_pos hatt]
    · rw [if_neg hatt, if_neg hatt]
      exact h.cache d fun hmem => hd ⟨hmem, fun _ => Bool.eq_false_of_not_eq_true hatt⟩
  · rw [if_neg hstored, if_neg hstored]
    refine Or.inl ⟨rfl, rfl, fun d hd => h.cache d fun hmem => hd ⟨hmem, fun hrep => ?_⟩⟩
    have hno : (storeReading bm m (readingOf m : V) x.cache).2 = false := by
      simpa [hrep] using hstored
    exact attributedDevice_unstored bm m _ _ hno d

/-- INTERNAL: **a message of both sequences** leaves the row with one result, if it overwrites. -/
theorem LikeBut.shared (hdest : op.outDestObject ≠ []) {devices : Set ℕ} {x y : Seen V}
    (h : LikeBut devices x y) (m : HesClmeMsg)
    (hover : outputAuthorized host bm m op = true →
      Overwrites bm op m (TwinStep.unlike bm devices (.shared m)) x y) :
    y.result host bm op f m = x.result host bm op f m ∧
      LikeBut (TwinStep.unlike bm devices (.shared m)) (x.take host bm op f m)
        (y.take host bm op f m) := by
  have hresult : y.result host bm op f m = x.result host bm op f m := by
    unfold Seen.result
    by_cases hgo : outputAuthorized host bm m op = true
    swap
    · have hrefused : outputAuthorized host bm m op = false := by simpa using hgo
      rw [gatedResult_refused host bm m op _ _ hdest hrefused,
        gatedResult_refused host bm m op _ _ hdest hrefused]
    obtain ⟨hboth, halike⟩ := hover hgo
    have hrenewed : y.renewed bm op m = x.renewed bm op m := by
      cases hx : x.renewed bm op m with
      | none =>
        rw [hx] at hboth
        exact Option.not_isSome_iff_eq_none.mp (by simp [hboth])
      | some vs =>
        rw [hx] at hboth halike
        obtain ⟨vs', hy⟩ := Option.isSome_iff_exists.mp hboth
        rw [hy]
        unfold Seen.renewed at hx hy
        rcases h.store bm m with ⟨hstore, -⟩ | ⟨cache, cache', hstore, hstore', hcache⟩
        · rw [hstore] at hx
          cases hx
        · rw [hstore, Option.bind_some, Option.filter_eq_some_iff] at hx
          rw [hstore', Option.bind_some, Option.filter_eq_some_iff,
            rowOperands_congr bm op cache cache' fun inp hinp => hcache _ (halike rfl inp hinp)] at hy
          exact hy.1.symm.trans hx.1
    rw [hrenewed, h.recorded]
  refine ⟨hresult, ?_, by rw [Seen.recorded_take, Seen.recorded_take, hresult, h.recorded]⟩
  unfold Seen.take
  rcases h.store bm m with ⟨hstore, hstore', hcache⟩ | ⟨cache, cache', hstore, hstore', hcache⟩
  · rw [hstore, hstore']
    exact hcache
  · rw [hstore, hstore']
    exact hcache

/-- INTERNAL: a message leaves the readings of the devices that it is not attributed to. -/
theorem Seen.cache_take (m : HesClmeMsg) (x : Seen V) {d : ℕ}
    (hd : attributedDevice bm m d = false) : (x.take host bm op f m).cache d = x.cache d := by
  unfold Seen.take Seen.store
  split
  · show (storeReading bm m (readingOf m) x.cache).1 d = x.cache d
    rw [storeReading_apply, hd]
    rfl
  · rfl

/-- INTERNAL: a message that differs leaves the row with its recorded result. -/
theorem LikeBut.denied {devices : Set ℕ} {x y : Seen V} (h : LikeBut devices x y) (m : HesClmeMsg)
    (payload : CStr) (hx : x.result host bm op f m = none)
    (hy : y.result host bm op f { m with payload := payload } = none) :
    LikeBut (TwinStep.unlike bm devices (.denied m payload)) (x.take host bm op f m)
      (y.take host bm op f { m with payload := payload }) := by
  refine ⟨fun d hd => ?_, ?_⟩
  · obtain ⟨hout, hatt⟩ := not_or.mp hd
    have hatt : attributedDevice bm m d = false := Bool.eq_false_of_not_eq_true hatt
    rw [Seen.cache_take host bm m x hatt,
      Seen.cache_take host bm { m with payload := payload } y hatt, h.cache d hout]
  · rw [Seen.recorded_take, Seen.recorded_take, hx, hy, h.recorded]

/-- INTERNAL: **where each message of both sequences overwrites**, the row sends alike. -/
theorem sendsAlike_of_overwritten (hauthz : bm.authzDisabled = false)
    (hdest : op.outDestObject ≠ []) (hfed : ExternallyFed bm i op) (steps : List TwinStep)
    (hdenied : ∀ step ∈ steps, step.DeniedFor host op) (devices : Set ℕ) (x y : Seen V)
    (h : LikeBut devices x y) (hover : Overwritten host bm op f steps devices x y) :
    SendsAlike host bm op f steps x y := by
  induction steps generalizing devices x y with
  | nil => trivial
  | cons step rest ih =>
    have ih := ih fun step hstep => hdenied step (List.mem_cons_of_mem _ hstep)
    cases step with
    | shared m =>
      obtain ⟨hfirst, hrest⟩ := hover
      obtain ⟨hresult, hafter⟩ := h.shared host bm hdest m hfirst
      exact ⟨by rw [hresult], ih _ _ _ hafter hrest⟩
    | denied m payload =>
      obtain ⟨hdeny, hdeny'⟩ := hdenied _ List.mem_cons_self
      exact ih _ _ _ (h.denied host bm m payload
        (Seen.result_denied host bm hauthz hdest hfed m hdeny x)
        (Seen.result_denied host bm hauthz hdest hfed _ hdeny' y)) hover

/-! ## Two runs -/

/-- **Denied payloads are unseen**, for a row that reads authorized sources and answers from its
operands, in any two runs from one state whose messages differ in the payloads of messages denied
for it only: after each message the row has sent the same PUTs in both if, and only if, it sends
the same with each message of both, by the reports alone. It does wherever a message of both that
recomputes the row in one run, and whose output may go out, does so in the other, and every device
the row reads has been reported by a message of both since one that differs reported it.
SRCLINE: bm.c:543-595, bm.c:624-769, bm.c:992-1081 -/
theorem denied_payloads_unseen (hauthz : bm.authzDisabled = false) (hrow : IsRow bm i op)
    (hdest : op.outDestObject ≠ []) (hfed : ExternallyFed bm i op) (hf : Computes host op f)
    (steps : List TwinStep) (hdenied : ∀ step ∈ steps, step.DeniedFor host op)
    (start s t : BmState V α)
    (hleft : (seenIn i start).RestsOver host bm op f (steps.map TwinStep.left))
    (hright : (seenIn i start).RestsOver host bm op f (steps.map TwinStep.right))
    (hs : RunMessages host bm (steps.map TwinStep.left) start s)
    (ht : RunMessages host bm (steps.map TwinStep.right) start t) :
    (SamePuts host bm i steps start ↔
        SendsAlike host bm op f steps (seenIn i start) (seenIn i start)) ∧
      (Overwritten host bm op f steps ∅ (seenIn i start) (seenIn i start) →
        SamePuts host bm i steps start) := by
  have hfinds : Finds i op start (seenIn i start) := ⟨fun _ _ _ => rfl, rfl, rfl⟩
  have hruns : ∀ (side : TwinStep → HesClmeMsg) (k : ℕ) (u : BmState V α),
      (seenIn i start).RestsOver host bm op f (steps.map side) →
      RunMessages host bm ((steps.take k).map side) start u →
        putsOf i u.trace = putsOf i start.trace ++
          (seenIn i start).sends host bm op f ((steps.take k).map side) := by
    intro side k u hrests hu
    have htake := hrests.take host bm k
    rw [← List.map_take] at htake
    exact hfinds.run host bm hrow hdest hfed.sourceFed hf htake hu
  have hsame : SamePuts host bm i steps start ↔
      ∀ k, (seenIn i start).sends host bm op f ((steps.take k).map TwinStep.right) =
        (seenIn i start).sends host bm op f ((steps.take k).map TwinStep.left) := by
    constructor
    · intro h k
      obtain ⟨u, hu⟩ := runMessages_take host bm hs k
      obtain ⟨w, hw⟩ := runMessages_take host bm ht k
      rw [← List.map_take] at hu hw
      have hputs := h k u w hu hw
      rw [hruns _ k u hleft hu, hruns _ k w hright hw] at hputs
      exact List.append_cancel_left hputs
    · intro h k u w hu hw
      rw [hruns _ k u hleft hu, hruns _ k w hright hw, h k]
  have halike := sendsAlike_iff host bm (f := f) hauthz hdest hfed steps hdenied
    (seenIn i start) (seenIn i start)
  refine ⟨hsame.trans halike.symm, fun hover => hsame.mpr (halike.mp ?_)⟩
  exact sendsAlike_of_overwritten host bm hauthz hdest hfed steps hdenied ∅ _ _
    ⟨fun _ _ => rfl, rfl⟩ hover

/-! ## One button -/

/-- A granted press of the lamp's button. -/
def grantedPress : HesClmeMsg := press (lit "un=a") (lit "3")

/-- A reading of a device that no row reads. -/
def otherReading : HesClmeMsg := { press (lit "un=a") (lit "7") with deviceIndex := 9 }

/-- A denied press of the lamp's button, a reading of a device that no row reads, and a granted
press. -/
def lampTwins : List TwinStep :=
  [.denied (press (lit "un=b") (lit "1")) (lit "2"), .shared otherReading, .shared grantedPress]

/-- The lamp's state after the messages. -/
def lampAfter (ms : List HesClmeMsg) : BmState Binary64 Unit :=
  ms.foldl (fun s m => (bmProcessorHandle lampHost lampMap m 2 s).state) (BmState.initial ())

/-- What the lamp's row computes. -/
def lampResult (vs : List Binary64) : Option Binary64 := some (builtinResult lampRow vs)

/-- What the lamp's row has seen after the denied press. -/
def lampSeen (payload : CStr) : Seen Binary64 :=
  (seenIn 0 (BmState.initial () : BmState Binary64 Unit)).take lampHost lampMap lampRow lampResult
    (press (lit "un=b") payload)

/-- INTERNAL: the other reading is not stored, so it recomputes nothing. -/
theorem lampSeen_other (payload : CStr) :
    (lampSeen payload).renewed lampMap lampRow otherReading = none := rfl

/-- INTERNAL: whichever press was denied, the granted one is what the row is recomputed from. -/
theorem lampSeen_granted (payload : CStr) (h : payload = lit "1" ∨ payload = lit "2") :
    ((lampSeen payload).take lampHost lampMap lampRow lampResult otherReading).renewed lampMap lampRow
      grantedPress = some [readingOf grantedPress] := by
  rcases h with rfl | rfl
  · decide +kernel
  · decide +kernel

/-- INTERNAL: so the messages of both sequences overwrite what was denied. -/
theorem lampTwins_overwritten :
    Overwritten lampHost lampMap lampRow lampResult lampTwins ∅
      (seenIn 0 (BmState.initial () : BmState Binary64 Unit)) (seenIn 0 (BmState.initial ())) := by
  have hone := lampSeen_granted (lit "1") (Or.inl rfl)
  have htwo := lampSeen_granted (lit "2") (Or.inr rfl)
  refine ⟨fun _ => ⟨?_, fun h => ?_⟩, fun _ => ⟨?_, fun _ inp hinp => ?_⟩, trivial⟩
  · exact congrArg Option.isSome ((lampSeen_other (lit "2")).trans (lampSeen_other (lit "1")).symm)
  · have hnone := congrArg Option.isSome (lampSeen_other (lit "1"))
    exact absurd (hnone.symm.trans h) Bool.false_ne_true
  · exact congrArg Option.isSome (htwo.trans hone.symm)
  · rintro ⟨-, hkept⟩
    obtain rfl := List.mem_singleton.mp hinp
    exact absurd (hkept (by decide)) (by decide)

/-- INTERNAL: and the row rests on the granted press, the one reading it answers to. -/
theorem lampTwins_rests (payload : CStr) (h : payload = lit "1" ∨ payload = lit "2") :
    (seenIn 0 (BmState.initial () : BmState Binary64 Unit)).RestsOver lampHost lampMap lampRow
      lampResult [press (lit "un=b") payload, otherReading, grantedPress] := by
  refine ⟨fun hgo => ?_, fun _ vs hvs => ?_, fun _ vs hvs => Or.inl fun v hv => ?_, trivial⟩
  · rcases h with rfl | rfl <;>
    exact absurd hgo (by decide)
  · cases (lampSeen_other payload).symm.trans hvs
  · obtain rfl := Option.some.inj ((lampSeen_granted payload h).symm.trans hvs)
    obtain rfl := List.mem_singleton.mp hv
    decide

/-- With a single button the granted press overwrites the denied reading: a denied 1 and a
denied 2 lead to the same PUT. -/
theorem denied_payloads_unseen_lamp :
    putsOf 0 (lampAfter (lampTwins.map TwinStep.left)).trace = [putMessage lampRow one] ∧
      putsOf 0 (lampAfter (lampTwins.map TwinStep.right)).trace =
        putsOf 0 (lampAfter (lampTwins.map TwinStep.left)).trace := by
  have hdenied : ∀ step ∈ lampTwins, step.DeniedFor lampHost lampRow := by
    intro step hstep
    simp only [lampTwins, List.mem_cons, List.not_mem_nil, or_false] at hstep
    rcases hstep with rfl | rfl | rfl
    · exact ⟨by decide, by decide⟩
    · trivial
    · trivial
  have hruns : ∀ ms, ms = lampTwins.map TwinStep.left ∨ ms = lampTwins.map TwinStep.right →
      RunMessages lampHost lampMap ms (BmState.initial ()) (lampAfter ms) := by
    rintro ms (rfl | rfl) <;>
    exact RunMessages.cons 2 (Outcome.eq_returned_state _ (by decide +kernel))
      (RunMessages.cons 2 (Outcome.eq_returned_state _ (by decide +kernel))
        (RunMessages.cons 2 (Outcome.eq_returned_state _ (by decide +kernel))
          (RunMessages.nil _)))
  have hlamp : IsRow lampMap 0 lampRow := rfl
  have hsame := (denied_payloads_unseen lampHost lampMap rfl hlamp (by decide)
    ⟨by decide, lampMap_sourceFed⟩ (computes_builtin lampHost lampRow (by decide)) lampTwins hdenied
    (BmState.initial ()) _ _ (lampTwins_rests (lit "1") (Or.inl rfl))
    (lampTwins_rests (lit "2") (Or.inr rfl)) (hruns _ (Or.inl rfl)) (hruns _ (Or.inr rfl))).2
    lampTwins_overwritten
  exact ⟨by decide +kernel, hsame 3 _ _ (hruns _ (Or.inl rfl)) (hruns _ (Or.inr rfl))⟩

/-! ## Two buttons -/

/-- A row that adds two buttons, for authorized senders. -/
def blindRow : BmOperation Binary64 where
  operation := lit "ad"
  inputs := [{ deviceIndex := 1, sourceObject := lit "/lx/ob/uo/ui/ud/da/cv"
               accompanyOp := lit "au" },
    { deviceIndex := 2, sourceObject := lit "/lx/ob/uo/ui/ue/da/cv", accompanyOp := lit "au" }]
  outDeviceIndex := 3
  outDestObject := lit "/lx/ob/uo/bl/bd/da/cv"

/-- A map with that row only. -/
def blindMap : BindingMap Binary64 := { ops := [blindRow] }

/-- INTERNAL: the only row is the only row. -/
theorem blindMap_row {i : ℕ} {op : BmOperation Binary64} (h : IsRow blindMap i op) :
    i = 0 ∧ op = blindRow := by
  cases i with
  | zero => exact ⟨rfl, (Option.some.inj h).symm⟩
  | succ i => simp [IsRow, blindMap] at h

/-- INTERNAL: it reads authorized sources. -/
theorem blindMap_externallyFed : ExternallyFed blindMap 0 blindRow := by
  refine ⟨by decide, ?_⟩
  rintro d ⟨op, hrow, -, inp, hinp, rfl⟩ j ⟨op', hrow', -, -, hout⟩
  obtain ⟨-, rfl⟩ := blindMap_row hrow
  obtain ⟨-, rfl⟩ := blindMap_row hrow'
  have hne : ∀ inp ∈ blindRow.inputs, blindRow.outDeviceIndex ≠ inp.deviceIndex := by decide
  exact hne inp hinp hout

/-- A report of the second button. -/
def turn (credential payload : CStr) : HesClmeMsg :=
  { press credential payload with deviceIndex := 2, path := lit "/lx/ob/uo/ui/ue/da/cv" }

/-- The state after a denied press of the first button. -/
def blindDenied (payload : CStr) : BmState Binary64 Unit :=
  (bmProcessorHandle lampHost blindMap (press (lit "un=b") payload) 2 (BmState.initial ())).state

/-- The granted 5 of the second button is added to the denied 1, or 2, of the first. -/
theorem blind_adds_denied :
    blindMap.authzDisabled = false ∧ IsRow blindMap 0 blindRow ∧ blindRow.outDestObject ≠ [] ∧
      ExternallyFed blindMap 0 blindRow ∧
      hookAccepts lampHost (press (lit "un=b") (lit "1")) blindRow = false ∧
      hookAccepts lampHost (press (lit "un=b") (lit "2")) blindRow = false ∧
      hookAccepts lampHost (turn (lit "un=a") (lit "5")) blindRow = true ∧
      ∃ s t, RunMessages lampHost blindMap
          [press (lit "un=b") (lit "1"), turn (lit "un=a") (lit "5")] (BmState.initial ()) s ∧
        RunMessages lampHost blindMap
          [press (lit "un=b") (lit "2"), turn (lit "un=a") (lit "5")] (BmState.initial ()) t ∧
        putsOf 0 s.trace = [putMessage blindRow (readingOf (sensed (lit "6")) : Binary64)] ∧
        putsOf 0 t.trace = [putMessage blindRow (readingOf (sensed (lit "7")) : Binary64)] ∧
        putsOf 0 s.trace ≠ putsOf 0 t.trace := by
  have hrun : ∀ payload, (bmProcessorHandle lampHost blindMap (press (lit "un=b") payload) 2
      (BmState.initial ())).didReturn = true →
      (bmProcessorHandle lampHost blindMap (turn (lit "un=a") (lit "5")) 2
        (blindDenied payload)).didReturn = true →
      RunMessages lampHost blindMap [press (lit "un=b") payload, turn (lit "un=a") (lit "5")]
        (BmState.initial ()) (bmProcessorHandle lampHost blindMap (turn (lit "un=a") (lit "5")) 2
          (blindDenied payload)).state := by
    intro payload hfirst hsecond
    exact RunMessages.cons 2 (Outcome.eq_returned_state _ hfirst)
      (RunMessages.cons 2 (Outcome.eq_returned_state _ hsecond) (RunMessages.nil _))
  have hsix : putsOf 0 (bmProcessorHandle lampHost blindMap (turn (lit "un=a") (lit "5")) 2
      (blindDenied (lit "1"))).state.trace =
        [putMessage blindRow (readingOf (sensed (lit "6")) : Binary64)] := by
    decide +kernel
  have hseven : putsOf 0 (bmProcessorHandle lampHost blindMap (turn (lit "un=a") (lit "5")) 2
      (blindDenied (lit "2"))).state.trace =
        [putMessage blindRow (readingOf (sensed (lit "7")) : Binary64)] := by
    decide +kernel
  refine ⟨rfl, rfl, by decide, blindMap_externallyFed, by decide, by decide, by decide, _, _,
    hrun (lit "1") (by decide +kernel) (by decide +kernel),
    hrun (lit "2") (by decide +kernel) (by decide +kernel), hsix, hseven, ?_⟩
  rw [hsix, hseven]
  intro heq
  have hsame := congrArg (List.map HesClmeMsg.payload) heq
  exact absurd hsame (by decide +kernel)

end OpenHes.Analysis
