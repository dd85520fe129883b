import OpenHes.Model.BluezManager

/-!
# The backends of the BLE connection manager

`han/ble/hes_ble.h` is what the module knows of its connection manager; which backend is behind it
is chosen when the gateway is built. Here are both: the simulated radio of `hes_ble.c`, and BlueZ
(`hes_ble_bluez.c`) with the button of each device beside the connection that `BluezManager` has.
-/

set_option autoImplicit false

namespace OpenHes.Model

open OpenHes.Library

/-- `hes_ble.h`: a manager of type `M`, whose polls hear the answers `A` of the outside. `states`
is what the array of the manager shows of its devices. -/
structure BleBackend (M A : Type) where
  init : M
  add : M → ℤ → ℕ → CStr → M
  poll : M → ℤ → A → ℕ → Option (M × List HesBleEvent)
  button : M → ℕ → Option Bool
  states : M → List (ℕ × HesBleState)

/-! ## The simulated radio -/

/-- `HES_BLE_SIM_CONNECT_S`. -/
def hesBleSimConnectS : ℤ := 1
/-- `HES_BLE_SIM_POWER_ON_S`. -/
def hesBleSimPowerOnS : ℤ := 20
/-- `HES_BLE_SIM_POWER_OFF_S`. -/
def hesBleSimPowerOffS : ℤ := 8

/-- `hes_ble_conn_t`, as the simulated radio uses it. -/
structure SimConn where
  deviceIndex : ℕ
  state : HesBleState
  stateEntered : ℤ
  simPowered : Bool
  nextPowerFlip : ℤ
  deriving DecidableEq

/-- `hes_ble_mgr_t`. -/
structure SimMgr where
  devs : List SimConn := []
  simConnectS : ℤ := hesBleSimConnectS
  simPowerOnS : ℤ := hesBleSimPowerOnS
  simPowerOffS : ℤ := hesBleSimPowerOffS
  deriving DecidableEq

/-- `hes_ble_mgr_add`. -/
def simMgrAdd (m : SimMgr) (now : ℤ) (deviceIndex : ℕ) : SimMgr :=
  if m.devs.any fun d => d.deviceIndex = deviceIndex then m
  else if hesBleMaxDevs ≤ m.devs.length then m
  else
    { m with
      devs := m.devs ++ [{
        deviceIndex := deviceIndex
        state := .connecting
        stateEntered := now
        simPowered := true
        nextPowerFlip := now + m.simPowerOnS }] }

/-- Does the power of the tag change now? A link that is lost with it is told. -/
def powerFlip (m : SimMgr) (now : ℤ) (d : SimConn) : SimConn × Option HesBleEvent :=
  if now < d.nextPowerFlip then (d, none)
  else if d.simPowered then
    ({ d with
      simPowered := false
      nextPowerFlip := now + m.simPowerOffS
      state := .off
      stateEntered := now },
      if d.state = .online then some ⟨d.deviceIndex, false⟩ else none)
  else
    ({ d with
      simPowered := true
      nextPowerFlip := now + m.simPowerOnS
      state := .connecting
      stateEntered := now }, none)

/-- Connecting becomes online once the connect is over. -/
def connectOver (m : SimMgr) (now : ℤ) (d : SimConn) : SimConn × Option HesBleEvent :=
  if d.simPowered && d.state = .connecting && m.simConnectS ≤ now - d.stateEntered then
    ({ d with state := .online, stateEntered := now }, some ⟨d.deviceIndex, true⟩)
  else (d, none)

/-- The turn of `hes_ble_mgr_poll` for a device. -/
def simPollDev (m : SimMgr) (now : ℤ) (d : SimConn) : SimConn × List HesBleEvent :=
  let flipped := powerFlip m now d
  let connected := connectOver m now flipped.1
  (connected.1, flipped.2.toList ++ connected.2.toList)

/-- `hes_ble_mgr_poll`: the manager and the events that are written. -/
def simMgrPoll (m : SimMgr) (now : ℤ) (max : ℕ) : SimMgr × List HesBleEvent :=
  ({ m with devs := m.devs.map fun d => (simPollDev m now d).1 },
    (m.devs.flatMap fun d => (simPollDev m now d).2).take max)

/-- The backend of `hes_ble.c`: no address is looked at, and there is no live button. -/
def simBackend : BleBackend SimMgr Unit where
  init := {}
  add := fun m now deviceIndex _ => simMgrAdd m now deviceIndex
  poll := fun m now _ max => some (simMgrPoll m now max)
  button := fun _ _ => none
  states := fun m => m.devs.map fun d => (d.deviceIndex, d.state)

/-! ## BlueZ -/

/-- The button of a `bluez_dev_t`: whether there is a proxy of its characteristic, and what it
has notified. -/
structure BluezButton where
  btn : Bool := false
  haveButton : Bool := false
  buttonState : Bool := false
  deriving DecidableEq

/-- The manager, with the button of the device at each place. -/
structure BluezHost where
  mgr : BluezMgr
  buttons : List BluezButton := []
  deriving DecidableEq

/-- A signal of D-Bus: the properties of a device change with Connected among them, or the
characteristic that was subscribed for the device at a place has a new value. -/
inductive BluezSignal
  | props (objectPath : CStr) (connected : Bool)
  | value (place : ℕ) (bytes : List UInt8)
  deriving DecidableEq

/-- What a poll hears: the signals that have arrived, what it gets to hear about the device at each
place, and whether a proxy of its characteristic can be made. -/
structure BluezAnswers where
  signals : List BluezSignal := []
  device : ℕ → BluezAnswer := fun _ => {}
  char : ℕ → Bool := fun _ => false

/-- `on_btn_value`, which is connected as long as there is a proxy. -/
def onBtnValue (bytes : List UInt8) (b : BluezButton) : BluezButton :=
  match bytes with
  | [] => b
  | byte :: _ =>
    if b.btn then { b with haveButton := true, buttonState := byte ≠ 0 } else b

/-- `subscribe_button`. -/
def subscribeButton (char : Bool) (b : BluezButton) : BluezButton :=
  if b.btn then b else { b with btn := char }

/-- `unsubscribe_button`. -/
def unsubscribeButton (_ : BluezButton) : BluezButton :=
  { btn := false, haveButton := false, buttonState := false }

/-- A signal is dispatched. -/
def BluezHost.dispatch (h : BluezHost) : BluezSignal → BluezHost
  | .props objectPath connected => { h with mgr := onDeviceProps h.mgr objectPath connected }
  | .value place bytes => { h with buttons := h.buttons.modify place (onBtnValue bytes) }

/-- What the turn of a device does to its button: the link that is lost takes the subscription
with it, the link that is up subscribes again. -/
def turnButton (turn : Option HesBleEvent) (char : Bool) (b : BluezButton) : BluezButton :=
  match turn with
  | none => b
  | some ev => if ev.isOnline then subscribeButton char b else unsubscribeButton b

/-- The event of a device's turn. -/
def turnEvent (now : ℤ) (answers : BluezAnswers) (devs : List BluezDev) (i : ℕ) :
    Option HesBleEvent :=
  (devs[i]?).bind fun d => (pollDev now (answers.device i) d).bind (·.2)

/-- `hes_ble_mgr_add`. -/
def BluezHost.add (h : BluezHost) (now : ℤ) (deviceIndex : ℕ) (address : CStr) : BluezHost :=
  let mgr := hesBleMgrAdd h.mgr now deviceIndex (some address)
  if mgr.devs.length = h.mgr.devs.length then h
  else { mgr := mgr, buttons := h.buttons ++ [{}] }

/-- `hes_ble_mgr_poll`; none where it is undefined. -/
def BluezHost.poll (h : BluezHost) (now : ℤ) (answers : BluezAnswers) (max : ℕ) :
    Option (BluezHost × List HesBleEvent) :=
  if !h.mgr.conn then some (h, [])
  else
    let heard := answers.signals.foldl BluezHost.dispatch h
    (hesBleMgrPoll heard.mgr now answers.device max).map fun polled =>
      ({ mgr := polled.1
         buttons := heard.buttons.mapIdx fun i b =>
           turnButton (turnEvent now answers heard.mgr.devs i) (answers.char i) b }, polled.2)

/-- `hes_ble_mgr_button`. -/
def BluezHost.button (h : BluezHost) (deviceIndex : ℕ) : Option Bool :=
  (h.buttons[h.mgr.devs.findIdx fun d => d.deviceIndex = deviceIndex]?).bind fun b =>
    if b.haveButton then some b.buttonState else none

/-- The backend of `hes_ble_bluez.c`, where the system bus is available or not. -/
def bluezBackend (bus : Bool) : BleBackend BluezHost BluezAnswers where
  init := { mgr := hesBleMgrInit bus }
  add := BluezHost.add
  poll := BluezHost.poll
  button := BluezHost.button
  states := fun h => h.mgr.devs.map fun d => (d.deviceIndex, d.state)

/-! ## Runs of a manager -/

/-- What the module does with a manager. -/
inductive BleMgrStep (A : Type)
  | add (now : ℤ) (deviceIndex : ℕ) (address : CStr)
  | poll (now : ℤ) (answers : A) (max : ℕ)

variable {M A : Type}

/-- One step, with the events that have been told and the times of their polls. -/
def BleBackend.step (b : BleBackend M A) (s : M × List (ℤ × HesBleEvent)) :
    BleMgrStep A → Option (M × List (ℤ × HesBleEvent))
  | .add now deviceIndex address => some (b.add s.1 now deviceIndex address, s.2)
  | .poll now answers max => (b.poll s.1 now answers max).map fun polled =>
    (polled.1, s.2 ++ polled.2.map fun ev => (now, ev))

/-- The steps of a run. -/
def BleBackend.run (b : BleBackend M A) (s : M × List (ℤ × HesBleEvent)) :
    List (BleMgrStep A) → Option (M × List (ℤ × HesBleEvent))
  | [] => some s
  | step :: steps => (b.step s step).bind fun next => b.run next steps

end OpenHes.Model
