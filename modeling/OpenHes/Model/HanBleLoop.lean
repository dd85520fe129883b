import OpenHes.Model.BleBackends
import OpenHes.Model.HanWifi

/-!
# The loop of the BLE module

`han/ble/ble.c`: the five tasks of a pass, over the connection manager that a backend stands for,
with the simulated button of `devices/ti_cc2650/sensortag.c`. The registries and the notifications
are those of a `BleSystem`, whose steps `HanBle` has. The temperature, a random walk of the
simulation, is a text that is a parameter of a run.
-/

set_option autoImplicit false

namespace OpenHes.Model

open OpenHes.Library

/-- `PUBLISH_PERIOD_SEC`. -/
def publishPeriodSec : ℤ := 5

/-- `HES_LX_BTN_CV`. -/
def hesLxBtnCv : CStr := lit "/lx/ob/uo/ui/ud/da/cv"

/-- `HES_LX_TEMP_CV`. -/
def hesLxTempCv : CStr := lit "/lx/ob/uo/hv/ts/as/cv"

/-! ## The simulated button -/

/-- The button of a `sensortag_t`, as `sensortag_init` leaves it. -/
structure SensorTag where
  buttonState : Bool := false
  buttonPeriodS : ℤ := 0
  nextButtonFlip : ℤ := 0
  deriving DecidableEq

/-- `sensortag_set_button_period`. -/
def sensortagSetButtonPeriod (now periodS : ℤ) (st : SensorTag) : SensorTag :=
  let st := { st with buttonPeriodS := periodS }
  if periodS ≤ 0 then { st with nextButtonFlip := 0 }
  else if st.nextButtonFlip = 0 then { st with nextButtonFlip := now + periodS }
  else st

/-- `sensortag_read_button`. -/
def sensortagReadButton (now : ℤ) (st : SensorTag) : SensorTag × Bool :=
  if 0 < st.buttonPeriodS ∧ st.nextButtonFlip ≠ 0 ∧ st.nextButtonFlip ≤ now then
    ({ st with buttonState := !st.buttonState, nextButtonFlip := now + st.buttonPeriodS },
      !st.buttonState)
  else (st, st.buttonState)

/-! ## The state -/

/-- `ble_dev_t`. -/
structure BleDev where
  tag : SensorTag := {}
  btnSet : Bool := false
  lastBtn : Bool := false
  deriving DecidableEq

/-- What happens in the module: a message is taken from the bus, a GET is answered, the link of
the device at a place comes up, and a value of the device at a place is published. -/
inductive BleEvent
  | frame (m : HesClmeMsg)
  | answer (m : HesClmeMsg)
  | linkUp (i : ℕ)
  | publish (i : ℕ) (m : HesClmeMsg)
  deriving DecidableEq

/-- The registries, the manager, the contexts of the devices and the time of the last publication,
with what has happened. -/
structure BleLoop (M : Type) where
  sys : BleSystem
  mgr : M
  devs : List BleDev
  lastPublish : ℤ := 0
  trace : List BleEvent := []

variable {M A : Type}

/-- Notes an event. -/
def BleLoop.log (s : BleLoop M) (e : BleEvent) : BleLoop M := { s with trace := s.trace ++ [e] }

/-- The text of a button. -/
def btnText (pressed : Bool) : CStr := lit (if pressed then "1" else "0")

section Backend

variable (b : BleBackend M A)

/-- `read_button_any`: the live value of the manager, or the simulated one. -/
def readButtonAny (mgr : M) (now : ℤ) (di : ℕ) (st : SensorTag) : SensorTag × Bool :=
  match b.button mgr di with
  | some pressed => (st, pressed)
  | none => sensortagReadButton now st

/-- `read_object` into 32 bytes: the tag behind it and the value, if there is one. -/
def bleReadObject (mgr : M) (now : ℤ) (temp : CStr) (di : ℕ) (path : CStr) (st : SensorTag) :
    SensorTag × Option CStr :=
  if path = hesLxBtnCv then
    let read := readButtonAny b mgr now di st
    (read.1, some (btnText read.2))
  else if path = hesLxTempCv then (st, some (boundedCopy 32 temp))
  else (st, none)

/-! ## The start -/

/-- The context of a device; the simulated button is armed in a build with the simulated radio. -/
def bootTag (armed : Bool) (now : ℤ) (d : HesDevice) : BleDev :=
  if armed && (hesDevObjectFind d hesLxBtnCv).isSome then
    { tag := sensortagSetButtonPeriod now (6 + ((d.deviceIndex % 5 : ℕ) : ℤ) * 3) {} }
  else {}

/-- The start of `han_ble_main` up to its loop: the registration, the manager and the contexts. -/
def hanBleStart (armed : Bool) (pf : MsProfile) (moduleRef : ℕ) (macOverride : Option CStr)
    (t : Exchange) (now : ℤ) : Option (BleLoop M) :=
  (hanBleBoot pf moduleRef macOverride t).map fun sys =>
    { sys := sys
      mgr := sys.reg.devices.foldl (fun m d => b.add m now d.deviceIndex d.address) b.init
      devs := sys.reg.devices.map (bootTag armed now) }

/-! ## A pass of the loop -/

/-- What a pass gets: the message that `hes_bus_recv` gave, if it gave one, whether the next
notification has come, the times that are asked for on the way, the answers for the poll of the
manager, and what becomes of each report. -/
structure BleTurn (A : Type) where
  frame : Option HesClmeMsg
  notified : Bool
  getAt : ℤ
  pollAt : ℤ
  answers : A
  exchange : ℕ → Exchange
  buttonAt : ℕ → ℤ
  publishAt : ℤ

variable (temp : ℕ → CStr)

/-- A GET. -/
def bleGet (now : ℤ) (m : HesClmeMsg) (s : BleLoop M) : BleLoop M :=
  match (do
    let i ← resolveIndex s.sys.reg m.path m.deviceIndex
    let dev ← s.sys.reg.devices[i]?
    let obj ← hesDevObjectFind dev m.path
    let bd ← s.devs[i]?
    some (i, dev, obj, bd)) with
  | none => s
  | some (i, dev, obj, bd) =>
    if obj.isRead then
      let read := bleReadObject b s.mgr now (temp s.trace.length) dev.deviceIndex obj.path bd.tag
      let s := { s with devs := s.devs.set i { bd with tag := read.1 } }
      match read.2 with
      | some val => s.log (.answer (getAnswer dev m.path val))
      | none => s
    else s

/-- What is done with a message from the bus: a GET is answered, a SUBSCRIBE is logged only, and a
PUT is ignored. -/
def bleTakeFrame (now : ℤ) (m : HesClmeMsg) (s : BleLoop M) : BleLoop M :=
  let s := s.log (.frame m)
  if m.verb = .get then bleGet b temp now m s else s

/-- A link event of the poll; a link that comes up sets the button anew. -/
def takeLink (exchange : ℕ → Exchange) (s : BleLoop M) (ev : HesBleEvent × ℕ) : BleLoop M :=
  match s.sys.reg.indexByDi ev.1.deviceIndex with
  | none => s
  | some i =>
    let comesUp := ev.1.isOnline && !(s.sys.reg.devices[i]?).any (·.online)
    let s := { s with sys := s.sys.takeLinkEvent ev.1 (exchange ev.2) }
    if comesUp then
      { s with devs := s.devs.modify i fun bd => { bd with btnSet := false } }.log (.linkUp i)
    else s

/-- The turn of the button of the device at a place: a value that was not published last is. -/
def publishButton (now : ℕ → ℤ) (s : BleLoop M) (p : HesDevice × ℕ) : BleLoop M :=
  if onlineWith hesLxBtnCv p.1 then
    match s.devs[p.2]? with
    | none => s
    | some bd =>
      let read := readButtonAny b s.mgr (now p.2) p.1.deviceIndex bd.tag
      if !bd.btnSet || read.2 != bd.lastBtn then
        { s with devs := s.devs.set p.2 ⟨read.1, true, read.2⟩ }.log
          (.publish p.2 (pollEvent p.1 hesLxBtnCv (btnText read.2)))
      else { s with devs := s.devs.set p.2 { bd with tag := read.1 } }
  else s

/-- The publication of an object of the device at a place, on the timer; the button has its own. -/
def publishObject (now : ℤ) (p : HesDevice × ℕ) (s : BleLoop M) (obj : HesDevObject) :
    BleLoop M :=
  if !obj.isRead || obj.path = hesLxBtnCv then s
  else
    match s.devs[p.2]? with
    | none => s
    | some bd =>
      let read := bleReadObject b s.mgr now (temp s.trace.length) p.1.deviceIndex obj.path bd.tag
      let s := { s with devs := s.devs.set p.2 { bd with tag := read.1 } }
      match read.2 with
      | some val => s.log (.publish p.2 (pollEvent p.1 obj.path val))
      | none => s

/-- The publications of the timer. -/
def publishPeriodic (now : ℤ) (s : BleLoop M) : BleLoop M :=
  s.sys.reg.devices.zipIdx.foldl
    (fun s p => if p.1.online then p.1.objects.foldl (publishObject b temp now p) s else s) s

/-- The buttons of all devices. -/
def publishButtons (now : ℕ → ℤ) (s : BleLoop M) : BleLoop M :=
  s.sys.reg.devices.zipIdx.foldl (publishButton b now) s

/-- A pass up to its poll. -/
def bleListen (turn : BleTurn A) (s : BleLoop M) : BleLoop M :=
  let s := turn.frame.elim s fun m => bleTakeFrame b temp turn.getAt m s
  if turn.notified then { s with sys := s.sys.takeNotification } else s

/-- A pass of the loop; none where the poll is undefined. -/
def bleTurn (s : BleLoop M) (turn : BleTurn A) : Option (BleLoop M) :=
  let s := bleListen b temp turn s
  (b.poll s.mgr turn.pollAt turn.answers hesDevregMaxDevices).map fun polled =>
    let s := polled.2.zipIdx.foldl (takeLink turn.exchange) { s with mgr := polled.1 }
    let s := publishButtons b turn.buttonAt s
    if publishPeriodSec ≤ turn.publishAt - s.lastPublish then
      publishPeriodic b temp turn.publishAt { s with lastPublish := turn.publishAt }
    else s

/-- The passes of a run. -/
def bleLoop (s : BleLoop M) (turns : List (BleTurn A)) : Option (BleLoop M) :=
  turns.foldlM (bleTurn b temp) s

end Backend

end OpenHes.Model
