import OpenHes.Model.Auth
import OpenHes.Model.Bus
import OpenHes.Model.Core
import OpenHes.Model.Crypto

/-!
# The gateway's core

What `core_main` wires together: the service objects it hosts, the authorizer that asks the
policy and then for a proof, and the loop at the bus, where one message struct receives
every frame. The readings of the clock and of the inventory are a parameter, as is the app.
-/

set_option autoImplicit false

namespace OpenHes.Model

open OpenHes.Library

/-! ## The authorizer -/

/-- `core_authorize`: the policy first, then the proof where the policy wants one. -/
def coreAuthorize (psa : Psa) (auth : AuthServiceState) (msg : HesClmeMsg)
    (atAddress : CStr) : Bool :=
  if !authServiceAuthorize auth msg.credInfo msg.userName atAddress then false
  else
    match authServiceRequiredProofPi auth atAddress with
    | none => true
    | some expectedPi =>
      cryptoVerifyProof psa msg.credInfo expectedPi
        (cryptoProofMessage msg.path msg.payload (hesPathMax + hesPayloadMax + 2))

/-! ## The service objects -/

/-- `auth_on_get`: the class list, as far as it fits. -/
def authOnGet (st : AuthServiceState) : CStr :=
  let rows := st.classes.map fun cls =>
    lit "ci=" ++ fmtD cls.classId ++ lit ",fn=" ++ cls.name ++ lit ",st=" ++ cls.status
  if rows = [] then lit "no-auth-policy"
  else boundedCopy hesPayloadMax ((rows.intersperse (lit ";")).flatten)

/-- The states behind the service objects, and the answers that depend on the clock, the time
source, or the inventory. -/
structure CoreServices (α : Type) where
  auth : AuthServiceState
  crypto : CryptoServiceState
  idStatusOnGet : α → HesClmeMsg → α × CStr
  idDiscoveryOnGet : α → HesClmeMsg → α × CStr
  realtimeOnGet : α → HesClmeMsg → α × CStr
  localtzOnGet : α → HesClmeMsg → α × CStr
  sourceOnGet : α → HesClmeMsg → α × CStr
  realtimeTick : α → α × List (CStr × CStr)

section Objects

variable {α : Type}

/-- `id_on_put`, `time_on_put`, `auth_on_put`, `crypto_on_put`: each ignores the PUT. -/
def ignorePut (a : α) (_ : HesClmeMsg) : α := a

/-- An object of the core. -/
def coreObject (path : String) (onGet : α → HesClmeMsg → α × CStr) : ServiceObject α where
  path := lit path
  onGet := some onGet
  onPut := some ignorePut

/-- The object at `HES_LX_TIME_REALTIME_CV`, the one that ticks. -/
def realtimeObject (services : CoreServices α) : ServiceObject α :=
  { coreObject "/lx/ob/so/ti/rt/st/cv" services.realtimeOnGet with
    tick := some services.realtimeTick }

/-- The objects of `core_main`, in the order in which they are created. -/
def coreObjects (psa : Psa) (services : CoreServices α) : List (ServiceObject α) :=
  [coreObject "/lx/ob/so/id" fun a _ => (a, lit "rq=ma;si=ye"),
    coreObject "/lx/ob/so/id/co/st/cv" services.idStatusOnGet,
    coreObject "/lx/ac/so/id/dc/bm/cv" services.idDiscoveryOnGet,
    realtimeObject services,
    coreObject "/lx/ob/so/ti/tz/st/cv" services.localtzOnGet,
    coreObject "/lx/ob/so/ti/st/mp/cv" services.sourceOnGet,
    coreObject "/lx/ob/so/aa/ac/cv" fun a _ => (a, authOnGet services.auth),
    coreObject "/lx/ob/so/cr" fun a _ => (a, cryptoConfigOnGet),
    coreObject "/lx/ob/so/cr/ci" fun a out => (a, cryptoOnGet psa services.crypto out)]

/-- The app's entry points: `app_service_op` and `app_lua_tick`. -/
structure CoreApp (V α : Type) where
  callOp : α → ℕ → List (BmOperand V) → α × Option V × List (CStr × CStr)
  onTick : α → α × List (CStr × CStr)

/-- What `core_main` runs its loop with. -/
def coreMainHost {V : Type} (psa : Psa) (services : CoreServices α) (app : CoreApp V α) :
    CoreHost V α where
  objs := coreObjects psa services
  timeRealtime := realtimeObject services
  callOp := app.callOp
  onTick := app.onTick
  authorize := coreAuthorize psa services.auth

end Objects

/-! ## The loop at the bus -/

section BusLoop

variable {V α : Type}

/-- A turn as the bus sees it: the bytes of the frame that came in time, if one did. -/
structure BusTurn where
  frame : Option (List UInt8)
  newSecond : Bool

/-- The loop's state with `in`, the struct that receives. It is not cleared, so a turn finds
in it what the turn before has left. -/
structure BusState (V α : Type) where
  buffer : MsgMemory
  core : CoreState V α

variable [CDouble V] (host : CoreHost V α) (bm : BindingMap V) (depth : ℕ)

/-- One turn: the frame is received into the struct, and the struct is what is handled. -/
def busTurn (turn : BusTurn) (s : BusState V α) : Outcome (BusState V α) :=
  let buffer := turn.frame.elim s.buffer (hesBusRecv s.buffer)
  let taken : CoreTurn := ⟨turn.frame.map fun _ => buffer.message, turn.newSecond⟩
  (coreTurn host bm depth taken s.core).map fun core => ⟨buffer, core⟩

/-- The loop over the turns of a run. -/
def busLoop : List BusTurn → BusState V α → Outcome (BusState V α)
  | [], s => .returned s
  | turn :: turns, s => (busTurn host bm depth turn s).andThen (busLoop turns)

end BusLoop

end OpenHes.Model
