import OpenHes.Library.CInt
import OpenHes.Model.HanBle

/-!
# The BlueZ connection manager

`han/ble/hes_ble_bluez.c`: the devices that the manager keeps online, and one pass of
`hes_ble_mgr_poll` over them. What D-Bus and the devices answer is a parameter of each pass. The
button of a device does not touch its connection and is left out.
-/

set_option autoImplicit false

namespace OpenHes.Model

open OpenHes.Library

/-- `SCAN_RETRY_S`. -/
def scanRetryS : ℤ := 3
/-- `RETRY_BASE_S`. -/
def retryBaseS : ℤ := 1
/-- `RETRY_MAX_S`. -/
def retryMaxS : ℤ := 10
/-- `HES_BLE_MAX_DEVS`. -/
def hesBleMaxDevs : ℕ := 16

/-- `hes_ble_state_t`. -/
inductive HesBleState
  | off
  | connecting
  | online
  deriving DecidableEq

/-- A device of the manager: its `hes_ble_conn_t` and its `bluez_dev_t`, which `hes_ble_mgr_add`
puts at the same place of their arrays; `dev` tells whether there is a proxy. `delays` is what
`connect_failed` has waited after each failure since `attempt` was zero. -/
structure BluezDev where
  deviceIndex : ℕ
  mac : CStr
  state : HesBleState := .off
  stateEntered : ℤ
  path : CStr := []
  connected : Bool := false
  dev : Bool := false
  nextTry : ℤ
  attempt : ℕ := 0
  scanning : Bool := false
  delays : List ℤ := []
  deriving DecidableEq

/-- What a pass gets to hear about a device: its object path, its Connected property when it is
read again, whether a proxy can be made, whether Connect succeeds, whether the services are
resolved in time, and the Connected property after that. -/
structure BluezAnswer where
  objectPath : Option CStr := none
  cached : Option Bool := none
  proxy : Bool := false
  connect : Bool := false
  resolved : Bool := false
  connected : Option Bool := none
  deriving DecidableEq

/-- The manager: whether there is a system bus, and the devices. -/
structure BluezMgr where
  conn : Bool
  devs : List BluezDev := []
  deriving DecidableEq

/-- `hes_ble_mgr_init`, where the system bus is available or not. -/
def hesBleMgrInit (bus : Bool) : BluezMgr := { conn := bus }

/-- `hes_ble_mgr_add`. -/
def hesBleMgrAdd (m : BluezMgr) (now : ℤ) (deviceIndex : ℕ) (address : Option CStr) : BluezMgr :=
  if m.devs.any fun d => d.deviceIndex = deviceIndex then m
  else if hesBleMaxDevs ≤ m.devs.length then m
  else
    { m with
      devs := m.devs ++ [{
        deviceIndex := deviceIndex
        mac := boundedCopy 64 (address.getD [])
        stateEntered := now
        nextTry := now }] }

/-- `on_device_props`, for a change that carries Connected. -/
def onDeviceProps (m : BluezMgr) (objectPath : CStr) (connected : Bool) : BluezMgr :=
  { m with
    devs := updateFirst (fun d => d.path ≠ [] && d.path = objectPath)
      (fun d => { d with connected := connected }) m.devs }

/-- The search for the path of a device. -/
def discoverPath (now : ℤ) (answer : BluezAnswer) (d : BluezDev) : BluezDev :=
  if d.path = [] ∧ d.nextTry ≤ now then
    match answer.objectPath with
    | some path =>
      { d with path := boundedCopy 256 path, scanning := false, nextTry := now + scanRetryS }
    | none => { d with scanning := true, nextTry := now + scanRetryS }
  else d

/-- `connect_failed`; none where its shift is undefined. -/
def connectFailed (now : ℤ) (d : BluezDev) : Option BluezDev :=
  let attempt := d.attempt + 1
  (shiftLeftInt retryBaseS attempt).map fun shifted =>
    let delay := if retryMaxS < shifted then retryMaxS else shifted
    { d with
      state := .off
      stateEntered := now
      attempt := attempt
      nextTry := now + delay
      delays := d.delays ++ [delay] }

/-- The Connected property, read again where there is a proxy. -/
def readConnected (answer : BluezAnswer) (d : BluezDev) : BluezDev :=
  { d with connected := if d.dev then answer.cached.getD d.connected else d.connected }

/-- The watch over the link of a device that is online; the event, if there is one. -/
def watchLink (now : ℤ) (answer : BluezAnswer) (d : BluezDev) : BluezDev × Option HesBleEvent :=
  let d := readConnected answer d
  if d.dev && !d.connected then
    ({ d with
      state := .off
      stateEntered := now
      attempt := 0
      nextTry := now + retryBaseS
      delays := [] }, some ⟨d.deviceIndex, false⟩)
  else (d, none)

/-- Is a device answered to the end: does it have a proxy, connect, and resolve its services? -/
def isAnswered (answer : BluezAnswer) (d : BluezDev) : Bool :=
  (d.dev || answer.proxy) && answer.connect && answer.resolved

/-- A device whose proxy is made, if there is none, and which is connecting if there is one. -/
def startConnecting (now : ℤ) (answer : BluezAnswer) (d : BluezDev) : BluezDev :=
  { d with
    dev := d.dev || answer.proxy
    state := if d.dev || answer.proxy then .connecting else d.state
    stateEntered := if d.dev || answer.proxy then now else d.stateEntered }

/-- The attempt to connect a device; none where it is undefined. -/
def tryConnect (now : ℤ) (answer : BluezAnswer) (d : BluezDev) :
    Option (BluezDev × Option HesBleEvent) :=
  let tried := startConnecting now answer d
  if !isAnswered answer d then (connectFailed now tried).map fun failed => (failed, none)
  else
    some ({ tried with
      connected := answer.connected.getD true
      state := .online
      stateEntered := now
      attempt := 0
      nextTry := 0
      delays := [] }, some ⟨d.deviceIndex, true⟩)

/-- The turn of `hes_ble_mgr_poll` for a device. -/
def pollDev (now : ℤ) (answer : BluezAnswer) (d : BluezDev) :
    Option (BluezDev × Option HesBleEvent) :=
  let d := discoverPath now answer d
  if d.state = .online then some (watchLink now answer d)
  else if d.path = [] || now < d.nextTry then some (d, none)
  else tryConnect now answer d

/-- The loop of `hes_ble_mgr_poll` from the device at a place on. -/
def pollDevs (now : ℤ) (answers : ℕ → BluezAnswer) :
    ℕ → List BluezDev → Option (List BluezDev × List HesBleEvent)
  | _, [] => some ([], [])
  | i, d :: rest => do
    let turn ← pollDev now (answers i) d
    let more ← pollDevs now answers (i + 1) rest
    some (turn.1 :: more.1, turn.2.toList ++ more.2)

/-- `hes_ble_mgr_poll`: the manager and the events that are written; none where it is undefined. -/
def hesBleMgrPoll (m : BluezMgr) (now : ℤ) (answers : ℕ → BluezAnswer) (max : ℕ) :
    Option (BluezMgr × List HesBleEvent) :=
  if !m.conn then some (m, [])
  else
    (pollDevs now answers 0 m.devs).map fun polled =>
      ({ m with devs := polled.1 }, polled.2.take max)

/-- What happens to the manager: a device is added, a property changes, or it is polled. -/
inductive BluezStep
  | add (now : ℤ) (deviceIndex : ℕ) (address : Option CStr)
  | properties (objectPath : CStr) (connected : Bool)
  | poll (now : ℤ) (answers : ℕ → BluezAnswer) (max : ℕ)

/-- One step; none where it is undefined. -/
def BluezMgr.step (m : BluezMgr) : BluezStep → Option BluezMgr
  | .add now deviceIndex address => some (hesBleMgrAdd m now deviceIndex address)
  | .properties objectPath connected => some (onDeviceProps m objectPath connected)
  | .poll now answers max => (hesBleMgrPoll m now answers max).map (·.1)

/-- The steps of a run. -/
def BluezMgr.run (m : BluezMgr) : List BluezStep → Option BluezMgr
  | [] => some m
  | step :: steps => (m.step step).bind fun next => next.run steps

end OpenHes.Model
