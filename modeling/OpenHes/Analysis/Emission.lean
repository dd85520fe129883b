import OpenHes.Library.Trace
import OpenHes.Analysis.Dataflow

/-!
# What it takes to send a PUT

A row sends after the evaluation its result started, which may have evaluated and sent
for every other row. The decision to send still belongs to the row: what the gates
asked for holds of the same row, for the message being processed, and its hook call is
among the events of the same call.
-/

set_option autoImplicit false

namespace OpenHes.Analysis

open OpenHes.Library OpenHes.Model
open CDouble

variable {V α : Type} [CDouble V]

/-- What holds of a row that sends a PUT while `m` is processed: `valueValid` as it stood
then, and the events of the call before it. -/
structure RowAdmitted (host : BmHost V α) (bm : BindingMap V) (m : HesClmeMsg) (i : ℕ)
    (op : BmOperation V) (valueValid : ℕ → Bool) (before : List (BmEvent V)) : Prop where
  enabled : op.enabled = true
  hasInput : op.inputs ≠ []
  inputsValid : ∀ inp ∈ op.inputs, hasSlot inp.deviceIndex = true ∧
    valueValid inp.deviceIndex = true
  inputsOpen : ∀ inp ∈ op.inputs, inp.authorType ≠ lit "bk" ∧ inp.condition ≠ lit "bk"
  adjustmentOpen : op.outAdjustment ≠ lit "bk"
  outputOpen : op.outAuthorType ≠ lit "bk" ∧ op.outAuthorType ≠ lit "pa"
  authorized : (∃ inp ∈ op.inputs, inp.accompanyOp = lit "au") →
    hookAccepts host m op = true ∧ .authCall i m (bmAtAddress op) true ∈ before

/-- An event that is a PUT is the PUT of an admitted row. -/
def PutAdmitted (host : BmHost V α) (bm : BindingMap V) (m : HesClmeMsg)
    (before : List (BmEvent V)) : BmEvent V → Prop
  | .put i msg valueValid => ∃ op v, IsRow bm i op ∧ msg = putMessage op v ∧
      op.outDestObject ≠ [] ∧ RowAdmitted host bm m i op valueValid before
  | _ => True

variable (host : BmHost V α) (bm : BindingMap V) (m : HesClmeMsg)

/-- INTERNAL: earlier events do not take an admission back. -/
theorem PutAdmitted.append (more before : List (BmEvent V)) (e : BmEvent V)
    (h : PutAdmitted host bm m before e) : PutAdmitted host bm m (more ++ before) e := by
  cases e with
  | put i msg valueValid =>
    obtain ⟨op, v, hrow, hmsg, hdest, hadm⟩ := h
    refine ⟨op, v, hrow, hmsg, hdest, { hadm with authorized := ?_ }⟩
    intro hau
    obtain ⟨hacc, hmem⟩ := hadm.authorized hau
    exact ⟨hacc, List.mem_append_right _ hmem⟩
  | _ => trivial

/-- INTERNAL: a gated row is let through only after the hook was asked, about the message
being processed and the row's own address.
SRCLINE: bm.c:573-595, bm.c:736-739 -/
theorem decideOutput_asked (i : ℕ) (op : BmOperation V) (s t : BmState V α) (v : V)
    (hauthz : bm.authzDisabled = false) (hdest : op.outDestObject ≠ [])
    (h : decideOutput host bm m i op s = (t, some v)) :
    authorTypeOpen op = true ∧
      (opRequiresAuthorization op = true → hookAccepts host m op = true ∧
        ∃ evs, t.trace = s.trace ++ evs ∧ .authCall i m (bmAtAddress op) true ∈ evs) := by
  obtain ⟨vs, raw, hvs, hch, hraw, hadj, hnew, hgate⟩ := decideOutput_some host bm m i op s t v h
  have hauth : outputAuthorized host bm m op = true := by
    rcases hgate with hgate | hgate
    · exact absurd hgate hdest
    · exact hgate
  have hparts := hauth
  unfold outputAuthorized at hparts
  simp only [hauthz, Bool.false_or, Bool.and_eq_true, Bool.or_eq_true, Bool.not_eq_true'] at hparts
  refine ⟨hparts.1, ?_⟩
  intro hreq
  have hacc : hookAccepts host m op = true := by
    rcases hparts.2 with hno | hacc
    · rw [hreq] at hno
      exact absurd hno (by decide)
    · exact hacc
  refine ⟨hacc, ?_⟩
  -- the trace of the look ends with the hook's answer
  have hhook : host.authAuthorize.isSome = true := by
    unfold hookAccepts at hacc
    cases hh : host.authAuthorize with
    | none => simp [hh] at hacc
    | some _ => rfl
  have hasked : authEvents host bm m i op = [.authCall i m (bmAtAddress op) true] := by
    unfold authEvents
    rw [hacc, hauthz, hparts.1, hreq, hhook]
    rfl
  obtain ⟨evs, hevs, -⟩ := computeResult_trace host i op vs (s.readOperands i vs)
  unfold decideOutput at h
  rw [hvs] at h
  simp only [hch, if_true] at h
  unfold gateOutput at h
  rw [hraw] at h
  simp only [Option.bind_some, hadj, hdest, hauth, if_true, if_false, hasked] at h
  split at h
  · simp at h
  · have ht := (Prod.mk.inj h).1
    refine ⟨[.operands i vs] ++ evs ++ [.authCall i m (bmAtAddress op) true], ?_, by simp⟩
    rw [← ht]
    simp only [hevs]
    simp [BmState.readOperands]

/-- What an evaluation of the table does to the state, as far as admissions go: valid
entries stay valid, and every PUT it adds to the trace is admitted. -/
def AdmittedStep (s t : BmState V α) : Prop :=
  (∀ d, (s.cache d).isSome = true → (t.cache d).isSome = true) ∧
    ∃ evs, t.trace = s.trace ++ evs ∧ EveryEvent (PutAdmitted host bm m) evs

/-- INTERNAL: admitted steps follow one another. -/
theorem AdmittedStep.trans (s t u : BmState V α) (h₁ : AdmittedStep host bm m s t)
    (h₂ : AdmittedStep host bm m t u) : AdmittedStep host bm m s u := by
  obtain ⟨hvalid₁, evs₁, htrace₁, hadm₁⟩ := h₁
  obtain ⟨hvalid₂, evs₂, htrace₂, hadm₂⟩ := h₂
  refine ⟨fun d hd => hvalid₂ d (hvalid₁ d hd), evs₁ ++ evs₂, ?_, ?_⟩
  · rw [htrace₂, htrace₁, List.append_assoc]
  · exact hadm₁.append _ (PutAdmitted.append host bm m) _ _ hadm₂

/-- INTERNAL: a look notes no PUT. -/
theorem lookEvents_admitted (i : ℕ) (calls : List (BmEvent V)) (operands : Option (List V))
    (hcalls : ∀ e ∈ calls, IsHookCall host i e) :
    EveryEvent (PutAdmitted host bm m) (lookEvents i calls operands) :=
  everyEvent_of_forall _ _ (lookEvents_forall host
    (fun e => ∀ pre, PutAdmitted host bm m pre e) i calls operands hcalls (fun _ _ => trivial)
    (fun _ _ _ _ => trivial) fun _ _ _ _ => trivial)

/-- INTERNAL: recording a result adds no PUT and invalidates no entry. -/
theorem commitOutput_admitted (i : ℕ) (op : BmOperation V) (s t : BmState V α)
    (h : (decideOutput host bm m i op s).1 = t) (v : V) :
    AdmittedStep host bm m s (commitOutput i op v t) := by
  obtain ⟨calls, hcalls, htrace⟩ := decideOutput_trace host bm m i op s
  rw [h] at htrace
  refine ⟨?_, lookEvents i calls (rowOperands bm s.cache op) ++
    [.commit i op.outDeviceIndex v], ?_, ?_⟩
  · intro d hd
    rw [← decideOutput_cache host bm m i op s, h] at hd
    by_cases hslot : hasSlot op.outDeviceIndex = true
    · by_cases hdev : d = op.outDeviceIndex
      · simp [commitOutput, hslot, hdev]
      · rw [commitOutput_cache_ne i d op v t fun _ => hdev]
        exact hd
    · rw [commitOutput_cache_no_slot i op v t (by simpa using hslot)]
      exact hd
  · simp [commitOutput, htrace]
  · refine (lookEvents_admitted host bm m i calls _ hcalls).append _
      (PutAdmitted.append host bm m) _ _ ?_
    refine everyEvent_of_forall _ _ fun e he pre => ?_
    rw [List.mem_singleton.mp he]
    trivial

/-- INTERNAL: **every PUT of an evaluation is admitted**, at whatever depth it is sent.
SRCLINE: bm.c:624-788 -/
theorem bmEvaluateAll_admitted (hauthz : bm.authzDisabled = false) (depth : ℕ)
    (s : BmState V α) : AdmittedStep host bm m s (bmEvaluateAll host bm m depth s).state := by
  refine bmEvaluateAll_rel host bm m (AdmittedStep host bm m) ?_
    (AdmittedStep.trans host bm m) ?_ ?_ ?_ depth s
  · intro s
    exact ⟨fun d hd => hd, [], by simp, everyEvent_nil _⟩
  · intro i op s t _ hdec
    obtain ⟨calls, hcalls, htrace⟩ := decideOutput_trace host bm m i op s
    have hcache := decideOutput_cache host bm m i op s
    rw [hdec] at htrace hcache
    refine ⟨fun d hd => ?_, _, htrace, lookEvents_admitted host bm m i calls _ hcalls⟩
    rw [hcache]
    exact hd
  · intro i op s t v _ hdec
    exact commitOutput_admitted host bm m i op s t (by rw [hdec]) v
  · intro i op s t v u hrow hdec hin hall
    unfold sendPut
    split
    · exact hall
    next hdest =>
      obtain ⟨vs, raw, hvs, -, -, hadj, -, -⟩ := decideOutput_some host bm m i op s t v hdec
      obtain ⟨henabled, hne, hready⟩ := rowOperands_ready bm op s.cache vs hvs
      obtain ⟨hopen, hasked⟩ := decideOutput_asked host bm m i op s t v hauthz hdest hdec
      obtain ⟨hvalid, evs, htrace, hadm⟩ := hall
      refine ⟨hvalid, evs ++ [.put i (putMessage op v) fun di => (u.cache di).isSome], ?_, ?_⟩
      · simp [BmState.log, htrace]
      · refine (everyEvent_append _ _ _).mpr ⟨hadm, ?_⟩
        refine (everyEvent_cons _ _ _).mpr ⟨?_, everyEvent_nil _⟩
        refine ⟨op, v, hrow, rfl, hdest, ?_⟩
        exact
          { enabled := henabled
            hasInput := hne
            inputsValid := fun inp hinp =>
              ⟨(hready inp hinp).2.2.1, hvalid _ (hready inp hinp).2.2.2⟩
            inputsOpen := fun inp hinp => ⟨(hready inp hinp).1 hauthz, (hready inp hinp).2.1⟩
            adjustmentOpen := by
              intro hbk
              rw [hbk] at hadj
              exact absurd hadj (by simp [applyCondition, lit])
            outputOpen := by simpa [authorTypeOpen] using hopen
            authorized := by
              intro hau
              have hreq : opRequiresAuthorization op = true := by
                simpa [opRequiresAuthorization] using hau
              obtain ⟨hacc, looked, hlooked, hcall⟩ := hasked hreq
              refine ⟨hacc, ?_⟩
              -- the look comes first among the events of this row's evaluation
              obtain ⟨-, nested, hnested, -⟩ := hin
              have hall : s.trace ++ evs =
                  s.trace ++ (looked ++ [.commit i op.outDeviceIndex v] ++ nested) := by
                rw [← htrace, hnested]
                simp [commitOutput, hlooked]
              rw [List.append_cancel_left hall]
              simp [hcall] }

/-- A handled message adds only admitted PUTs to the trace, whatever the state it finds
and whether its evaluation returns or not.
SRCLINE: bm.c:992-1081 -/
theorem bmProcessorHandle_puts_admitted (hauthz : bm.authzDisabled = false) (depth : ℕ)
    (s : BmState V α) :
    ∃ evs, (bmProcessorHandle host bm m depth s).state.trace = s.trace ++ evs ∧
      EveryEvent (PutAdmitted host bm m) evs := by
  have htake : EveryEvent (PutAdmitted (V := V) host bm m) [.report m] := by
    refine everyEvent_of_forall _ _ fun e he pre => ?_
    rw [List.mem_singleton.mp he]
    trivial
  unfold bmProcessorHandle
  split
  · exact ⟨[], by simp, everyEvent_nil _⟩
  · split
    · obtain ⟨-, evs, htrace, hadm⟩ :=
        bmEvaluateAll_admitted host bm m hauthz depth (takeReading bm m s)
      refine ⟨[.report m] ++ evs, ?_, ?_⟩
      · rw [htrace]
        simp [takeReading]
      · exact htake.append _ (PutAdmitted.append host bm m) _ _ hadm
    · exact ⟨[.report m], by simp [takeReading], htake⟩

/-! ## A button and a lamp behind one gated row -/

/-- The row of the lamp: on when the button reads more than 0, for authorized senders. -/
def lampRow : BmOperation Binary64 where
  operation := lit "gt"
  tableCode := lit "ot1"
  outCode := lit "op1"
  inputs := [{ deviceIndex := 1, sourceObject := lit "/lx/ob/uo/ui/ud/da/cv"
               accompanyOp := lit "au" }]
  inputParams := [.live, .preset (Binary64.pack false 0)]
  outDeviceIndex := 2
  outDestObject := lit "/lx/ob/uo/li/ll/da/cv"

/-- A map with the lamp's row only. -/
def lampMap : BindingMap Binary64 := { ops := [lampRow] }

/-- INTERNAL: it has no other row. -/
theorem lampMap_row {i : ℕ} {op : BmOperation Binary64} (h : IsRow lampMap i op) :
    i = 0 ∧ op = lampRow := by
  cases i with
  | zero => exact ⟨rfl, (Option.some.inj h).symm⟩
  | succ i => simp [IsRow, lampMap] at h

/-- A host whose policy grants one credential. -/
def lampHost : BmHost Binary64 Unit where
  authAuthorize := some fun m _ => m.credInfo = lit "un=a"

/-- A report of the button. -/
def press (credential payload : CStr) : HesClmeMsg :=
  { verb := .event, deviceIndex := 1, path := lit "/lx/ob/uo/ui/ud/da/cv"
    payload := payload, credInfo := credential }

/-- A granted press sends the lamp's PUT, and the PUT is admitted. -/
theorem bmProcessorHandle_puts_admitted_lamp :
    putsOf 0 (bmProcessorHandle lampHost lampMap (press (lit "un=a") (lit "1")) 2
        (BmState.initial ())).state.trace = [putMessage lampRow CDouble.one] ∧
      ∃ evs, (bmProcessorHandle lampHost lampMap (press (lit "un=a") (lit "1")) 2
          (BmState.initial ())).state.trace = [] ++ evs ∧
        EveryEvent (PutAdmitted lampHost lampMap (press (lit "un=a") (lit "1"))) evs :=
  ⟨by decide, bmProcessorHandle_puts_admitted lampHost lampMap (press (lit "un=a") (lit "1"))
    rfl 2 (BmState.initial ())⟩

end OpenHes.Analysis
