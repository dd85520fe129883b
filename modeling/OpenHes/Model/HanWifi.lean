import OpenHes.Model.DeviceAddressing
import OpenHes.Model.WizClient

/-!
# The WiFi module

`han/wifi/wifi.c`: the start, up to the clients that are opened for the lamps, and the passes of
the loop. The registry of the module, that of the manifest service and the notifications on their
way are those of a `BleSystem`: `merge_slice` and the reports are the same code in both modules.
What the lamps answer and what becomes of the reports are parameters of a run.
-/

set_option autoImplicit false

namespace OpenHes.Model

open OpenHes.Library

/-- `POLL_PERIOD_SEC`. -/
def pollPeriodSec : ℤ := 10

/-- `HES_LX_LIGHT_CV`. -/
def hesLxLightCv : CStr := lit "/lx/ob/uo/li/ll/da/cv"

/-- `HES_LX_LIGHT_BRIGHTNESS_CV`. -/
def hesLxLightBrightnessCv : CStr := lit "/lx/ob/uo/li/ll/aa/cv"

/-- `wifi_dev_t`, with the address and the port of its client. -/
structure WifiDev where
  regIdx : ℕ
  ip : CStr
  port : ℤ
  deriving DecidableEq

/-- What happens in the module: a message is taken from the bus, a call of a client is answered or
not, a message is handed to `hes_bus_send`, the registry is reported. A message is noted with the
registry that it meets. -/
inductive WifiEvent
  | frame (m : HesClmeMsg) (reg : HesDevreg)
  | request (w : WifiDev) (req : WizRequest) (reply : Option CStr)
  | send (m : HesClmeMsg)
  | report (reg : HesDevreg) (t : Exchange)
  deriving DecidableEq

/-- The registries, the opened clients and the time of the last poll, with what has happened. -/
structure WifiState where
  sys : BleSystem
  devs : List WifiDev
  lastPoll : ℤ := 0
  trace : List WifiEvent := []

/-- Notes an event. -/
def WifiState.log (s : WifiState) (e : WifiEvent) : WifiState :=
  { s with trace := s.trace ++ [e] }

/-- `payload_to_bool`. -/
def payloadToBool (payload : CStr) : Bool :=
  payload = lit "1" || payload = lit "on" || payload = lit "true"

/-- `find_open`; the client stands for its place in the table. -/
def findOpen (devs : List WifiDev) (regIdx : ℕ) : Option WifiDev :=
  devs.find? fun w => w.regIdx = regIdx

/-- Is there an 'r' in the access mode? -/
def HesDevObject.isRead (obj : HesDevObject) : Bool := obj.access.contains 114

/-- Is there a 'w' in the access mode? -/
def HesDevObject.isWritten (obj : HesDevObject) : Bool := obj.access.contains 119

/-! ## The start -/

/-- A device with a light, before it is registered. -/
def bootBulb (bulbIp : CStr) (d : HesDevice) : HesDevice :=
  if (hesDevObjectFind d hesLxLightCv).isSome then
    { d with
      address := if d.address = [] then boundedCopy 64 bulbIp else d.address
      udpPort := if d.udpPort ≤ 0 then 38899 else d.udpPort
      online := true }
  else d

/-- The client of the device at a place, where it gets one; `opened` tells whether
`wiz_client_open` gets a socket. -/
def openClient (opened : ℕ → Bool) (i : ℕ) (d : HesDevice) : Option WifiDev :=
  if d.online && d.address ≠ [] && 0 < d.udpPort && opened i then
    some ⟨i, boundedCopy 64 d.address, d.udpPort⟩
  else none

/-- The clients of the online devices. -/
def openClients (opened : ℕ → Bool) (reg : HesDevreg) : List WifiDev :=
  reg.devices.zipIdx.filterMap fun p => openClient opened p.2 p.1

/-- The start of `han_wifi_main`, up to its loop: the slice is queried, registered and queried
again, and the clients are opened. -/
def hanWifiBoot (pf : MsProfile) (moduleRef : ℕ) (bulbIp : CStr) (t : Exchange)
    (opened : ℕ → Bool) : Option WifiState :=
  let mreg := hesMregOpen hesMtInterface moduleRef
  (hesMregQuery (reqReply pf (queryRequest mreg) .answered).2).bind fun reg =>
    if reg.devices = [] then none
    else
      let sys := BleSystem.report
        ⟨pf, mreg, { reg with devices := reg.devices.map (bootBulb bulbIp) }, []⟩ t
      (hesMregQuery (reqReply sys.pf (queryRequest mreg) .answered).2).bind fun reg2 =>
        let devs := openClients opened reg2
        if devs = [] then none else some { sys := { sys with reg := reg2 }, devs := devs }

/-! ## The loop -/

section Loop

variable (lamp : ℕ → Option CStr) (exchange : ℕ → Exchange)

/-- A call of a client; what comes back goes by its place among the events. -/
def WifiState.call (s : WifiState) (w : WifiDev) (req : WizRequest) : WifiState × Option CStr :=
  (s.log (.request w req (lamp s.trace.length)), lamp s.trace.length)

/-- `read_object` into 32 bytes: the state behind it and the value, if there is one; none where a
conversion is undefined. -/
def wifiReadObject (w : WifiDev) (obj : HesDevObject) (s : WifiState) :
    Option (WifiState × Option CStr) :=
  if obj.path = hesLxLightCv then
    let (s, reply) := s.call lamp w .getPilot
    some (s, (wizClientGetState reply).map fun on => lit (if on then "1" else "0"))
  else if obj.path = hesLxLightBrightnessCv then
    let (s, reply) := s.call lamp w .getPilot
    (wizClientGetBrightness reply).map fun level => (s, level.map fun v => boundedCopy 32 (fmtD v))
  else some (s, none)

/-- `write_object`; its result goes into the log only. -/
def wifiWriteObject (w : WifiDev) (obj : HesDevObject) (payload : CStr) (s : WifiState) :
    WifiState :=
  if obj.path = hesLxLightCv then (s.call lamp w (.setState (payloadToBool payload))).1
  else if obj.path = hesLxLightBrightnessCv then
    let level := atoi payload
    if level ≤ 0 then (s.call lamp w (.setState false)).1
    else ((s.call lamp w (.setState true)).1.call lamp w (.setBrightness level)).1
  else s

/-- The device, the client and the object that a message addresses, where it has all three. -/
def WifiState.target (s : WifiState) (m : HesClmeMsg) :
    Option (HesDevice × WifiDev × HesDevObject) := do
  let ridx ← resolveIndex s.sys.reg m.path m.deviceIndex
  let w ← findOpen s.devs ridx
  let dev ← s.sys.reg.devices[ridx]?
  let obj ← hesDevObjectFind dev m.path
  some (dev, w, obj)

/-- A PUT. -/
def wifiPut (m : HesClmeMsg) (s : WifiState) : WifiState :=
  match s.target m with
  | some (_, w, obj) =>
    if obj.isWritten then wifiWriteObject lamp w obj m.payload s else s
  | none => s

/-- The answer to a GET. -/
def getAnswer (dev : HesDevice) (path val : CStr) : HesClmeMsg :=
  hesMsgSetPayloadStr (hesMsgSetPath { verb := .event, deviceIndex := dev.deviceIndex } path) val

/-- A GET; none where it is undefined. -/
def wifiGet (m : HesClmeMsg) (s : WifiState) : Option WifiState :=
  match s.target m with
  | some (dev, w, obj) =>
    if obj.isRead then
      (wifiReadObject lamp w obj s).map fun read =>
        match read.2 with
        | some val => read.1.log (.send (getAnswer dev m.path val))
        | none => read.1
    else some s
  | none => some s

/-- What is done with a message from the bus; a SUBSCRIBE is logged only. -/
def wifiTakeFrame (m : HesClmeMsg) (s : WifiState) : Option WifiState :=
  let s := s.log (.frame m s.sys.reg)
  match m.verb with
  | .put => some (wifiPut lamp m s)
  | .get => wifiGet lamp m s
  | _ => some s

/-- The report of a value that was read. -/
def pollEvent (dev : HesDevice) (path val : CStr) : HesClmeMsg :=
  { publishEvent path val with deviceIndex := dev.deviceIndex }

/-- An object of a polled device; the flag tells whether one of its objects was read. -/
def pollObject (w : WifiDev) (dev : HesDevice) (acc : WifiState × Bool) (obj : HesDevObject) :
    Option (WifiState × Bool) :=
  if obj.isRead then
    (wifiReadObject lamp w obj acc.1).map fun read =>
      match read.2 with
      | some val => (read.1.log (.send (pollEvent dev obj.path val)), true)
      | none => (read.1, acc.2)
  else some acc

/-- The registry with the flag of the device at a place set. -/
def setOnlineAt (reg : HesDevreg) (i : ℕ) (online : Bool) : HesDevreg :=
  { reg with devices := reg.devices.modify i fun d => { d with online := online } }

/-- A presence transition of the device of a client: it is reported, whatever becomes of the
report. -/
def notePresence (w : WifiDev) (reachable : Bool) (s : WifiState) : WifiState :=
  let sys := { s.sys with reg := setOnlineAt s.sys.reg w.regIdx reachable }
  let t := exchange s.trace.length
  { s with sys := BleSystem.report sys t }.log (.report sys.reg t)

/-- The poll of the device of a client; none where it is undefined. -/
def wifiPollDev (s : WifiState) (w : WifiDev) : Option WifiState :=
  match s.sys.reg.devices[w.regIdx]? with
  | none => some s
  | some dev =>
    (dev.objects.foldlM (pollObject lamp w dev) (s, false)).map fun polled =>
      if polled.2 = dev.online then polled.1 else notePresence exchange w polled.2 polled.1

/-- The poll of all devices with a client. -/
def wifiPoll (s : WifiState) : Option WifiState := s.devs.foldlM (wifiPollDev lamp exchange) s

/-- A pass of the loop: the message that `hes_bus_recv` gave, if it gave one, whether the next
notification has come by then, and the time. -/
structure WifiTurn where
  frame : Option HesClmeMsg
  notified : Bool
  now : ℤ

/-- Is it time for a poll? -/
def WifiState.pollDue (s : WifiState) (now : ℤ) : Bool := pollPeriodSec ≤ now - s.lastPoll

/-- A pass up to its poll; none where it is undefined. -/
def wifiListen (turn : WifiTurn) (s : WifiState) : Option WifiState :=
  (turn.frame.elim (some s) fun m => wifiTakeFrame lamp m s).map fun s =>
    if turn.notified then { s with sys := s.sys.takeNotification } else s

/-- A pass of the loop; none where it is undefined. -/
def wifiTurn (s : WifiState) (turn : WifiTurn) : Option WifiState :=
  (wifiListen lamp turn s).bind fun s =>
    if s.pollDue turn.now then wifiPoll lamp exchange { s with lastPoll := turn.now } else some s

/-- The passes of a run. -/
def wifiLoop (s : WifiState) (turns : List WifiTurn) : Option WifiState :=
  turns.foldlM (wifiTurn lamp exchange) s

end Loop

end OpenHes.Model
