import OpenHes.Library.ReentrantLoop
import OpenHes.Model.BindingMap
import Mathlib.Logic.Function.Basic

/-!
# The binding-map processor

`evaluate_op`, `bm_evaluate_all` and `bm_processor_handle` of `bm/bm.c`. A row that
commits a result into the value cache starts the evaluation of the whole table again
before it sends its PUT, so the evaluator is a re-entrant loop; `depth` is the room the
call stack has for nested calls of `bm_evaluate_all`.

The state keeps what the C structs keep between calls (value cache, change detectors,
the app behind the `app_operation` hook) and a trace of what was done: readings taken,
operands read, hook calls, results committed and PUTs handed to the bus.
-/

set_option autoImplicit false

namespace OpenHes.Model

open OpenHes.Library

/-- The change detectors of a row: `has_last_output` with `last_output_value`, and
`has_last_inputs` with `last_operands[]`. -/
structure OpMemory (V : Type) where
  lastOutput : Option V := none
  lastOperands : Option (List V) := none

/-- What the processor does, in the order it does it. A PUT comes with `value_valid[]` as
it stood when the message was handed to the bus. -/
inductive BmEvent (V : Type)
  | report (m : HesClmeMsg)
  | operands (row : ℕ) (vs : List V)
  | appCall (row : ℕ) (operands : List (BmOperand V)) (sent : List HesClmeMsg)
  | authCall (row : ℕ) (m : HesClmeMsg) (atAddress : CStr) (verdict : Bool)
  | commit (row : ℕ) (deviceIndex : ℕ) (v : V)
  | put (row : ℕ) (m : HesClmeMsg) (valueValid : ℕ → Bool)

/-- The hooks a host wires in. The app keeps state, may fail, and may put messages on the
bus itself; the authorization hook answers from a policy that is read once. -/
structure BmHost (V α : Type) where
  appOperation : Option (α → BmOperation V → List (BmOperand V) →
    α × Option V × List HesClmeMsg) := none
  authAuthorize : Option (HesClmeMsg → CStr → Bool) := none

/-- The host that wires in nothing, as `bm_init` leaves the hooks. -/
def BmHost.unwired (V : Type) : BmHost V Unit := {}

/-- The part of `binding_map_t` that changes while messages are processed. -/
structure BmState (V α : Type) where
  cache : ValueCache V
  mem : ℕ → OpMemory V
  app : α
  trace : List (BmEvent V)

namespace BmState

variable {V α : Type}

/-- `bm_init`, with the app the host brings. -/
def initial (app : α) : BmState V α :=
  { cache := fun _ => none, mem := fun _ => {}, app := app, trace := [] }

/-- Notes an event. -/
def log (s : BmState V α) (e : BmEvent V) : BmState V α :=
  { s with trace := s.trace ++ [e] }

/-- The operands of a row are noted and overwrite its history. -/
def readOperands (s : BmState V α) (i : ℕ) (vs : List V) : BmState V α :=
  { s with
    mem := Function.update s.mem i { s.mem i with lastOperands := some vs }
    trace := s.trace ++ [.operands i vs] }

end BmState

section Gates

variable {V α : Type} (host : BmHost V α) (bm : BindingMap V) (m : HesClmeMsg)

/-- The answer of the `auth_authorize` hook for the message being processed; no hook
denies. -/
def hookAccepts (op : BmOperation V) : Bool :=
  match host.authAuthorize with
  | none => false
  | some authorize => authorize m (bmAtAddress op)

/-- The authorType gate of an output: neither 'bk' nor 'pa'. -/
def authorTypeOpen (op : BmOperation V) : Bool :=
  op.outAuthorType ≠ lit "bk" && op.outAuthorType ≠ lit "pa"

/-- `output_authorized`. -/
def outputAuthorized (op : BmOperation V) : Bool :=
  bm.authzDisabled ||
    (authorTypeOpen op && (!opRequiresAuthorization op || hookAccepts host m op))

/-- The hook call `output_authorized` makes, if it gets that far. -/
def authEvents (i : ℕ) (op : BmOperation V) : List (BmEvent V) :=
  if !bm.authzDisabled && authorTypeOpen op && opRequiresAuthorization op &&
      host.authAuthorize.isSome then
    [.authCall i m (bmAtAddress op) (hookAccepts host m op)]
  else []

end Gates

section Evaluator

variable {V α : Type} [CDouble V]

open CDouble

/-- Change detection over the operands of a row. -/
def inputsChanged (mem : OpMemory V) (vs : List V) : Bool :=
  match mem.lastOperands with
  | none => true
  | some old => old.length ≠ vs.length || (old.zip vs).any fun p => !eq p.1 p.2

/-- Change detection over the result of a row. -/
def outputUnchanged (mem : OpMemory V) (result : V) : Bool :=
  match mem.lastOutput with
  | none => false
  | some old => eq result old

omit [CDouble V] in
/-- The operand records handed to the app. -/
def appOperands (op : BmOperation V) (vs : List V) : List (BmOperand V) :=
  List.zipWith (fun inp v => ⟨inp.deviceIndex, hesStrlcpy hesPathMax inp.sourceObject, v⟩)
    op.inputs vs

variable (host : BmHost V α) (bm : BindingMap V) (m : HesClmeMsg)

/-- The operation of a row: the app's for `ap`, a built-in one otherwise. -/
def computeResult (i : ℕ) (op : BmOperation V) (vs : List V) (s : BmState V α) :
    BmState V α × Option V :=
  if op.operation = lit "ap" then
    match host.appOperation with
    | none => (s, none)
    | some call =>
      let operands := appOperands op vs
      let (app, result, sent) := call s.app op operands
      ({ s with app := app, trace := s.trace ++ [.appCall i operands sent] }, result)
  else (s, some (applyOperation op.operation (operandA vs) (operandB op vs)))

/-- `evaluate_op` from the computed result to "the output is going to happen": the
adjustment, the change detection over the result, the output gates. -/
def gateOutput (i : ℕ) (op : BmOperation V) (raw : Option V) (s : BmState V α) :
    BmState V α × Option V :=
  match raw.bind (applyCondition op.outAdjustment) with
  | none => (s, none)
  | some result =>
    if outputUnchanged (s.mem i) result then (s, none)
    else if op.outDestObject = [] then (s, some result)
    else
      let s := { s with trace := s.trace ++ authEvents host bm m i op }
      if outputAuthorized host bm m op then (s, some result) else (s, none)

/-- `evaluate_op` up to "the output is going to happen". The second component is the
result to record and send, if there is one. -/
def decideOutput (i : ℕ) (op : BmOperation V) (s : BmState V α) : BmState V α × Option V :=
  match rowOperands bm s.cache op with
  | none => (s, none)
  | some vs =>
    -- the operand history is overwritten before anything is decided
    if inputsChanged (s.mem i) vs then
      let (t, raw) := computeResult host i op vs (s.readOperands i vs)
      gateOutput host bm m i op raw t
    else (s.readOperands i vs, none)

omit [CDouble V] in
/-- "The output is going to happen, so now record it": the change detector and, for a
device with a slot, the value cache. -/
def commitOutput (i : ℕ) (op : BmOperation V) (result : V) (s : BmState V α) : BmState V α :=
  { s with
    mem := Function.update s.mem i { s.mem i with lastOutput := some result }
    cache :=
      if hasSlot op.outDeviceIndex then Function.update s.cache op.outDeviceIndex (some result)
      else s.cache
    trace := s.trace ++ [.commit i op.outDeviceIndex result] }

/-- The PUT a row sends for a result. -/
def putMessage (op : BmOperation V) (result : V) : HesClmeMsg :=
  hesMsgSetPayloadStr
    (hesMsgSetPath { verb := .put, deviceIndex := op.outDeviceIndex } op.outDestObject)
    (boundedCopy 32 (fmtG result))

/-- The last step of `evaluate_op`: the PUT, when the row has a destination. -/
def sendPut (i : ℕ) (op : BmOperation V) (result : V) (s : BmState V α) : BmState V α :=
  if op.outDestObject = [] then s
  else s.log (.put i (putMessage op result) fun di => (s.cache di).isSome)

/-- `evaluate_op`; `evaluateAll` is the `bm_evaluate_all` it calls. -/
def evaluateOp (evaluateAll : BmState V α → Outcome (BmState V α)) (row : BmOperation V × ℕ)
    (s : BmState V α) : Outcome (BmState V α) :=
  match decideOutput host bm m row.2 row.1 s with
  | (s, none) => .returned s
  | (s, some result) =>
    let s := commitOutput row.2 row.1 result s
    let after := if hasSlot row.1.outDeviceIndex then evaluateAll s else .returned s
    after.andThen fun s => .returned (sendPut row.2 row.1 result s)

/-- `bm_evaluate_all`: every row in table order. -/
def bmEvaluateAll (depth : ℕ) (s : BmState V α) : Outcome (BmState V α) :=
  ReentrantLoop.run (evaluateOp host bm m) bm.ops.zipIdx depth s

end Evaluator

section Processor

variable {V α : Type} [CDouble V]

/-- The attribution test of `bm_processor_handle`: (path, deviceIndex), 0 being the legacy
wildcard. -/
def attributedTo (m : HesClmeMsg) (inp : BmInput) : Bool :=
  inp.sourceObject ≠ [] && inp.sourceObject = m.path &&
    (m.deviceIndex = 0 || inp.deviceIndex = m.deviceIndex)

omit [CDouble V] in
/-- One step of the attribution loop. -/
def storeInput (m : HesClmeMsg) (v : V) (acc : ValueCache V × Bool) (inp : BmInput) :
    ValueCache V × Bool :=
  if attributedTo m inp && hasSlot inp.deviceIndex then
    (Function.update acc.1 inp.deviceIndex (some v), true)
  else acc

omit [CDouble V] in
/-- The attribution loop over every input of every row: the cache, and `updated_any`. -/
def storeReading (bm : BindingMap V) (m : HesClmeMsg) (v : V) (cache : ValueCache V) :
    ValueCache V × Bool :=
  (bm.ops.flatMap (·.inputs)).foldl (storeInput m v) (cache, false)

/-- Does `bm_processor_handle` take the message as a report? -/
def isReport (m : HesClmeMsg) : Bool :=
  (m.verb = .event || m.verb = .get) && m.payload ≠ []

/-- The value a report carries. -/
def readingOf (m : HesClmeMsg) : V := bmDatumValue m.payload bmLiveInputParam

/-- The state in which the evaluation a report starts begins. -/
def takeReading (bm : BindingMap V) (m : HesClmeMsg) (s : BmState V α) : BmState V α :=
  { s with
    cache := (storeReading bm m (readingOf m) s.cache).1
    trace := s.trace ++ [.report m] }

/-- `bm_processor_handle`. -/
def bmProcessorHandle (host : BmHost V α) (bm : BindingMap V) (m : HesClmeMsg) (depth : ℕ)
    (s : BmState V α) : Outcome (BmState V α) :=
  if !isReport m then .returned s
  else if (storeReading bm m (readingOf m : V) s.cache).2 then
    bmEvaluateAll host bm m depth (takeReading bm m s)
  else .returned (takeReading bm m s)

end Processor

/-! ## Runs -/

section Runs

variable {V α : Type} [CDouble V]

/-- The states a map gets into: messages processed one after the other, each of them with
`ok` holding before it, and authorTypes written in between. -/
inductive ReachableBy (host : BmHost V α) (ok : BindingMap V → BmState V α → HesClmeMsg → Prop) :
    BindingMap V → BmState V α → Prop
  | init (bm : BindingMap V) (app : α) : ReachableBy host ok bm (BmState.initial app)
  | handle {bm : BindingMap V} {s s' : BmState V α} (m : HesClmeMsg) (depth : ℕ)
      (hs : ReachableBy host ok bm s) (hok : ok bm s m)
      (hm : bmProcessorHandle host bm m depth s = .returned s') : ReachableBy host ok bm s'
  | setAt {bm bm' : BindingMap V} {s : BmState V α} (atAddress value : CStr)
      (hs : ReachableBy host ok bm s) (hset : bmSetAt bm atAddress value = some bm') :
      ReachableBy host ok bm' s

/-- The states some run gets into. -/
abbrev Reachable (host : BmHost V α) : BindingMap V → BmState V α → Prop :=
  ReachableBy host fun _ _ _ => True

/-- The messages of a list, processed one after the other. -/
inductive RunMessages (host : BmHost V α) (bm : BindingMap V) :
    List HesClmeMsg → BmState V α → BmState V α → Prop
  | nil (s : BmState V α) : RunMessages host bm [] s s
  | cons {m : HesClmeMsg} {ms : List HesClmeMsg} {s t u : BmState V α} (depth : ℕ)
      (hm : bmProcessorHandle host bm m depth s = .returned t)
      (hms : RunMessages host bm ms t u) : RunMessages host bm (m :: ms) s u

end Runs

/-! ## Reading a trace -/

section Traces

variable {V : Type}

/-- The message of a PUT of row `i`. -/
def putOf (i : ℕ) : BmEvent V → Option HesClmeMsg
  | .put row m _ => if row = i then some m else none
  | _ => none

/-- The PUTs row `i` sent, in order. -/
def putsOf (i : ℕ) (trace : List (BmEvent V)) : List HesClmeMsg := trace.filterMap (putOf i)

end Traces

end OpenHes.Model
