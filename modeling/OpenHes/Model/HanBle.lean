import OpenHes.Model.Manifest

/-!
# Presence in the BLE module

What `han/ble/ble.c` does with the online flags of its devices: the registration at the start,
the link events that it reports, and the notifications of the manifest service that it merges.
The service and the messages that are on their way belong to the state. Readings, buttons and
the messages of the bus do not touch a flag and are left out.
-/

set_option autoImplicit false

namespace OpenHes.Model

open OpenHes.Library

/-- `HES_MT_INTERFACE`. -/
def hesMtInterface : CStr := lit "hi"

/-- `hes_ble_event_t`. -/
structure HesBleEvent where
  deviceIndex : ℕ
  isOnline : Bool
  deriving DecidableEq

/-- The registry of the service, the client and the registry of the module, and the notifications
that were published for it and have not been received, oldest first. -/
structure BleSystem where
  pf : MsProfile
  mreg : HesMreg
  reg : HesDevreg
  inbox : List (List UInt8)

/-- `index_by_di`; the device stands for its place in the array. -/
def indexByDi (reg : HesDevreg) (di : ℕ) : Option HesDevice :=
  reg.devices.find? fun d => d.deviceIndex = di

/-- What `merge_slice` makes of a device. -/
def mergeDevice (upd : HesDevreg) (d : HesDevice) : HesDevice :=
  match indexByDi upd d.deviceIndex with
  | none => d
  | some u =>
    { d with
      online := u.online
      address := if u.address = [] then d.address else boundedCopy 64 u.address }

/-- `merge_slice`. -/
def mergeSlice (reg upd : HesDevreg) : HesDevreg :=
  { reg with devices := reg.devices.map (mergeDevice upd) }

/-- `hes_mreg_report` of the module's registry: where the request reaches the service, it is
served, and what is published for the module is on its way. -/
def BleSystem.report (s : BleSystem) (t : Exchange) : BleSystem :=
  if t = .unsent then s
  else
    let served := serveRequest s.pf (reportRequest s.mreg s.reg)
    { s with
      pf := served.pf
      inbox := s.inbox ++ served.published.filter s.mreg.subscribed }

/-- The registry with the flag of the device set. -/
def setOnline (reg : HesDevreg) (di : ℕ) (online : Bool) : HesDevreg :=
  { reg with
    devices := updateFirst (fun d => d.deviceIndex = di) (fun d => { d with online := online })
      reg.devices }

/-- A link event of `hes_ble_mgr_poll`: a change of the flag is reported, whatever becomes of the
report. -/
def BleSystem.takeLinkEvent (s : BleSystem) (ev : HesBleEvent) (t : Exchange) : BleSystem :=
  match indexByDi s.reg ev.deviceIndex with
  | none => s
  | some d =>
    if ev.isOnline && !d.online then
      BleSystem.report { s with reg := setOnline s.reg ev.deviceIndex true } t
    else if !ev.isOnline && d.online then
      BleSystem.report { s with reg := setOnline s.reg ev.deviceIndex false } t
    else s

/-- `hes_mreg_recv_update` of the next notification, and its merge. -/
def BleSystem.takeNotification (s : BleSystem) : BleSystem :=
  match s.inbox with
  | [] => s
  | msg :: rest =>
    match hesMregRecvUpdate s.mreg msg with
    | none => { s with inbox := rest }
    | some upd => { s with reg := mergeSlice s.reg upd, inbox := rest }

/-- `%02u`. -/
def fmt02u (n : ℕ) : CStr := if n < 10 then lit "0" ++ fmtD n else fmtD n

/-- The device before it is registered: with an address and offline. -/
def bootDevice (macOverride : Option CStr) (d : HesDevice) : HesDevice :=
  { d with
    address :=
      if d.address = [] then
        match macOverride with
        | some mac => boundedCopy 64 mac
        | none => boundedCopy 64 (lit "24:71:89:BC:32:" ++ fmt02u (d.netRefIndex % 256))
      else d.address
    online := false }

/-- The start of `han_ble_main`, up to its loop: the slice is queried, registered and queried
again. -/
def hanBleBoot (pf : MsProfile) (moduleRef : ℕ) (macOverride : Option CStr) (t : Exchange) :
    Option BleSystem :=
  let mreg := hesMregOpen hesMtInterface moduleRef
  (hesMregQuery (reqReply pf (queryRequest mreg) .answered).2).bind fun reg =>
    if reg.devices = [] then none
    else
      let s := BleSystem.report
        ⟨pf, mreg, { reg with devices := reg.devices.map (bootDevice macOverride) }, []⟩ t
      (hesMregQuery (reqReply s.pf (queryRequest mreg) .answered).2).map fun reg2 =>
        { s with reg := reg2 }

/-- A step of the loop. A pass of it is a notification, if one has come, and then the link events
of the poll; any order of the steps is allowed here. -/
inductive BleStep
  | notification
  | link (ev : HesBleEvent) (t : Exchange)

/-- One step. -/
def BleSystem.step (s : BleSystem) : BleStep → BleSystem
  | .notification => s.takeNotification
  | .link ev t => s.takeLinkEvent ev t

/-- The steps one after the other. -/
def BleSystem.run (s : BleSystem) (steps : List BleStep) : BleSystem :=
  steps.foldl BleSystem.step s

/-- The online flag that the service stores for the device. -/
def BleSystem.stored (s : BleSystem) (di : ℕ) : Option Bool :=
  (findModule s.pf s.mreg.moduleType s.mreg.moduleRefIndex).bind fun mod =>
    (findDevice mod di).map (·.online)

end OpenHes.Model
