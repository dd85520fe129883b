import OpenHes.Model.Dispatch
import OpenHes.Model.Evaluator

/-!
# The core loop

The loop of `core_main` in `modules/core/core.c`. A turn takes at most one message from
the bus: the router, the relay of PUTs and the binding map's processor see it in this
order. Then the service objects tick, the time is fed to the processor once a second, and
the app's tick runs. The trace holds the messages taken, what the evaluator did, and what
was handed to `hes_bus_send`, which stamps the time and changes nothing else.
-/

set_option autoImplicit false

namespace OpenHes.Model

open OpenHes.Library

/-- What the loop is run with: the local service objects, the realTime object among them, the
entry points of the app (each gives the arguments of the `hes.put` calls the script made),
and `core_authorize`. -/
structure CoreHost (V α : Type) where
  objs : List (ServiceObject α)
  timeRealtime : ServiceObject α
  callOp : α → ℕ → List (BmOperand V) → α × Option V × List (CStr × CStr)
  onTick : α → α × List (CStr × CStr)
  authorize : HesClmeMsg → CStr → Bool

/-- The message of `hes.put`: a PUT without a device index. -/
def hesPut (path value : CStr) : HesClmeMsg :=
  hesMsgSetPayloadStr (hesMsgSetPath { verb := .put } path) value

section Loop

variable {V α : Type}

/-- The hooks the core wires into its binding map: `app_service_op` and `core_authorize`. -/
def CoreHost.bmHost (host : CoreHost V α) : BmHost V α where
  appOperation := some fun a op operands =>
    let (a, result, puts) := host.callOp a op.refId operands
    (a, result, puts.map fun p => hesPut p.1 p.2)
  authAuthorize := some host.authorize

/-- What happens in the loop: a message is taken, or fed by the core to itself; the
evaluator does something; a message is sent. -/
inductive CoreEvent (V : Type)
  | message (m : HesClmeMsg)
  | eval (e : BmEvent V)
  | answer (m : HesClmeMsg)
  | relay (m : HesClmeMsg)
  | publish (m : HesClmeMsg)
  | appPut (m : HesClmeMsg)

/-- The messages an event of the evaluator puts on the bus. -/
def evalSends : BmEvent V → List HesClmeMsg
  | .put _ m _ => [m]
  | .appCall _ _ sent => sent
  | _ => []

/-- The messages an event puts on the bus. -/
def sends : CoreEvent V → List HesClmeMsg
  | .message _ => []
  | .eval e => evalSends e
  | .answer m => [m]
  | .relay m => [m]
  | .publish m => [m]
  | .appPut m => [m]

/-- The binding map's state, with the services' and the app's in it, and the trace. -/
structure CoreState (V α : Type) where
  bm : BmState V α
  trace : List (CoreEvent V)

/-- Notes events. -/
def CoreState.log (s : CoreState V α) (es : List (CoreEvent V)) : CoreState V α :=
  { s with trace := s.trace ++ es }

/-- Changes the state of the services and the app. -/
def CoreState.setApp (s : CoreState V α) (a : α) : CoreState V α :=
  { s with bm := { s.bm with app := a } }

variable (host : CoreHost V α) (bm : BindingMap V)

/-- The relay of an external module's PUT: to a declared device destination, and only when
no local object owns the address. -/
def relayPut (m : HesClmeMsg) (handled : Bool) (s : CoreState V α) : CoreState V α :=
  if !handled && m.verb = .put && bmIsDeclaredDestination bm m.path m.deviceIndex then
    s.log [.relay m]
  else s

/-- The router and the relay. -/
def routeMessage (m : HesClmeMsg) (s : CoreState V α) : CoreState V α :=
  let (a, handled, answers) := dispatchToLocalObjects host.objs m s.bm.app
  relayPut bm m handled ((s.setApp a).log (answers.map .answer))

/-- The service objects' ticks. -/
def tickObjects (s : CoreState V α) : CoreState V α :=
  host.objs.foldl (fun s so =>
    match so.tick with
    | none => s
    | some tick =>
      let (a, reports) := tick s.bm.app
      (s.setApp a).log (reports.map fun r => .publish (publishEvent r.1 r.2))) s

/-- `app_lua_tick`. -/
def appTick (s : CoreState V α) : CoreState V α :=
  let (a, puts) := host.onTick s.bm.app
  (s.setApp a).log (puts.map fun p => .appPut (hesPut p.1 p.2))

/-- The event the core feeds to its own binding map, and the state after it was made. -/
def selfEvent (a : α) : α × HesClmeMsg :=
  let m := hesMsgSetPath { verb := .event } host.timeRealtime.path
  match host.timeRealtime.onGet with
  | none => (a, m)
  | some onGet =>
    let (a, text) := onGet a m
    (a, hesMsgSetPayloadStr m text)

variable [CDouble V]

/-- The call of `bm_processor_handle`. -/
def processMessage (m : HesClmeMsg) (depth : ℕ) (s : CoreState V α) : Outcome (CoreState V α) :=
  (bmProcessorHandle host.bmHost bm m depth { s.bm with trace := [] }).map fun t =>
    { bm := { t with trace := [] }, trace := s.trace ++ t.trace.map .eval }

/-- A turn of the loop: the message `hes_bus_recv` gave, if it gave one in time, and whether
a new second has begun. -/
structure CoreTurn where
  frame : Option HesClmeMsg
  newSecond : Bool

/-- What is done with a message from the bus. -/
def takeFrame (depth : ℕ) (m : HesClmeMsg) (s : CoreState V α) : Outcome (CoreState V α) :=
  processMessage host bm m depth (routeMessage host bm m (s.log [.message m]))

/-- The feed of the time. -/
def feedTime (depth : ℕ) (s : CoreState V α) : Outcome (CoreState V α) :=
  let (a, m) := selfEvent host s.bm.app
  processMessage host bm m depth ((s.setApp a).log [.message m])

/-- One turn of the loop. -/
def coreTurn (depth : ℕ) (turn : CoreTurn) (s : CoreState V α) : Outcome (CoreState V α) :=
  let taken := turn.frame.elim (.returned s) fun m => takeFrame host bm depth m s
  taken.andThen fun s =>
    let s := tickObjects host s
    let fed := if turn.newSecond then feedTime host bm depth s else .returned s
    fed.andThen fun s => .returned (appTick host s)

/-- The loop over the turns of a run. -/
def coreLoop (depth : ℕ) : List CoreTurn → CoreState V α → Outcome (CoreState V α)
  | [], s => .returned s
  | turn :: turns, s => (coreTurn host bm depth turn s).andThen (coreLoop depth turns)

/-- The state in which the loop starts. -/
def CoreState.start (app : α) : CoreState V α := { bm := BmState.initial app, trace := [] }

end Loop

end OpenHes.Model
