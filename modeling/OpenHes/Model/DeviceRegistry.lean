import OpenHes.Library.JsonPrint
import OpenHes.Model.Message

/-!
# The device registry of an interface module

The parsing of `common/hes_devreg.c`, from a slice document to the devices a module fronts,
and the client of `common/hes_mreg.c` that asks the manifest service for the slice, reports
to it and receives its notifications. A text is what a C string holds; a request or a reply
that a buffer is too small for is cut off.
-/

set_option autoImplicit false

namespace OpenHes.Model

open OpenHes.Library

/-! ## hes_devreg.c -/

/-- `HES_DEVREG_MAX_DEVICES`. -/
def hesDevregMaxDevices : ℕ := 16
/-- `HES_DEVREG_MAX_OBJECTS`. -/
def hesDevregMaxObjects : ℕ := 16

/-- `hes_dev_object_t`. -/
structure HesDevObject where
  path : CStr
  access : CStr
  deriving DecidableEq

/-- `hes_device_t`. -/
structure HesDevice where
  deviceIndex : ℕ
  netRefIndex : ℕ
  role : CStr
  expectedHardware : CStr
  networkType : CStr
  address : CStr
  udpPort : ℤ
  online : Bool
  objects : List HesDevObject
  deriving DecidableEq

/-- `hes_devreg_t`. -/
structure HesDevreg where
  gatewayId : CStr
  moduleType : CStr
  moduleRefIndex : ℕ
  networkType : CStr
  devices : List HesDevice
  deriving DecidableEq

/-- `(long)json_number_value(m)`, where `m` is a number. -/
def jsonNumberLong : Json → Option ℤ
  | .integer n => some (Binary64.toLong (Binary64.ofInt n))
  | .real x => some (Binary64.toLong x)
  | _ => none

/-- `get_member_string` into an array of `dstsz` bytes. -/
def getMemberString (o : Json) (key : CStr) (dstsz : ℕ) : Option CStr :=
  (o.getString key).map (boundedCopy dstsz)

/-- `get_member_long`. -/
def getMemberLong (o : Json) (key : CStr) : Option ℤ := (o.get key).bind jsonNumberLong

/-- `status_to_online`. -/
def statusToOnline (dev : Json) : Bool :=
  match dev.getString (lit "status") with
  | some s => s = lit "online"
  | none => true

/-- An entry of "objects"; one without a path or an access mode is passed over. -/
def parseObjectEntry (o : Json) : Option HesDevObject :=
  (getMemberString o (lit "lexiconPath") hesPathMax).bind fun path =>
    (getMemberString o (lit "access") 4).map fun access => ⟨path, access⟩

/-- An entry of "devices"; one that is no object or has no deviceIndex is passed over. -/
def parseDeviceEntry (d : Json) : Option HesDevice :=
  (getMemberLong d (lit "deviceIndex")).map fun v =>
    { deviceIndex := toUInt32 v
      netRefIndex := toUInt32 ((getMemberLong d (lit "netRefIndex")).getD 0)
      role := (getMemberString d (lit "deviceRole") 32).getD []
      expectedHardware := (getMemberString d (lit "expectedHardware") 48).getD []
      networkType := (getMemberString d (lit "networkType") 16).getD []
      address := (getMemberString d (lit "address") 64).getD []
      udpPort := ((getMemberLong d (lit "udpPort")).map toInt32).getD 0
      online := statusToOnline d
      objects := (((d.getArray (lit "objects")).getD []).filterMap parseObjectEntry).take
        hesDevregMaxObjects }

/-- `hes_devreg_parse`, which fills in a cleared registry. -/
def hesDevregParse (root : Json) : Option HesDevreg :=
  if (root.getString (lit "error")).isSome then none
  else
    (root.getArray (lit "devices")).map fun entries =>
      let devices := (entries.filterMap parseDeviceEntry).take hesDevregMaxDevices
      let networkType := (getMemberString root (lit "networkType") 16).getD []
      { gatewayId := (getMemberString root (lit "gatewayId") 64).getD []
        moduleType := (getMemberString root (lit "moduleType") 8).getD []
        moduleRefIndex := toUInt32 ((getMemberLong root (lit "moduleRefIndex")).getD 0)
        networkType :=
          if networkType = [] then
            ((devices.map (·.networkType)).find? fun nt => nt ≠ []).getD []
          else networkType
        devices := devices }

/-- `hes_devreg_find`. -/
def hesDevregFind (reg : HesDevreg) (deviceIndex : ℕ) : Option HesDevice :=
  reg.devices.find? fun d => d.deviceIndex = deviceIndex

/-! ## hes_mreg.c -/

/-- `HES_MREG_REQ_MAX`. -/
def hesMregReqMax : ℕ := 8192
/-- `HES_MREG_REPLY_MAX`. -/
def hesMregReplyMax : ℕ := 65536

/-- The identity in `hes_mreg_t`, and the prefix it is subscribed to. -/
structure HesMreg where
  moduleType : CStr
  moduleRefIndex : ℕ
  topic : CStr
  deriving DecidableEq

/-- `hes_mreg_open` of a `uint32_t` index. -/
def hesMregOpen (moduleType : CStr) (moduleRefIndex : ℕ) : HesMreg where
  moduleType := boundedCopy 8 moduleType
  moduleRefIndex := moduleRefIndex
  topic := boundedCopy 16 (fmtD moduleRefIndex)

/-- The text that a receive into a buffer of `size` bytes leaves there. -/
def receivedText (size : ℕ) (bytes : List UInt8) : CStr := cString (bytes.take (size - 1))

/-- `parse_slice`. -/
def parseSlice (json : CStr) : Option HesDevreg := (Json.loads json).bind hesDevregParse

/-- The request of `hes_mreg_query`. -/
def queryRequest (m : HesMreg) : CStr :=
  boundedCopy hesMregReqMax
    (lit "\x7b\"cmd\":\"query\",\"moduleType\":" ++ Json.quote m.moduleType ++
      lit ",\"moduleRefIndex\":" ++ fmtD m.moduleRefIndex ++ lit "\x7d")

/-- What `hes_mreg_query` makes of the reply. -/
def queryReply (reply : List UInt8) : Option HesDevreg :=
  parseSlice (receivedText hesMregReplyMax reply)

/-- One device of a report. -/
def reportEntry (d : HesDevice) : CStr :=
  lit "\x7b\"deviceIndex\":" ++ fmtD d.deviceIndex ++ lit ",\"netRefIndex\":" ++ fmtD d.netRefIndex ++
    lit ",\"address\":" ++ Json.quote d.address ++ lit ",\"udpPort\":" ++ fmtD d.udpPort ++
    lit (if d.online then ",\"online\":1\x7d" else ",\"online\":0\x7d")

/-- The devices of a report, a comma between each two. -/
def reportEntries : List HesDevice → CStr
  | [] => []
  | d :: rest => reportEntry d ++ rest.flatMap fun d => lit "," ++ reportEntry d

/-- The request of `hes_mreg_report`. -/
def reportRequest (m : HesMreg) (reg : HesDevreg) : CStr :=
  boundedCopy hesMregReqMax
    (lit "\x7b\"cmd\":\"report\",\"moduleType\":" ++ Json.quote m.moduleType ++
      lit ",\"moduleRefIndex\":" ++ fmtD m.moduleRefIndex ++ lit ",\"devices\":[" ++
      reportEntries reg.devices ++ lit "]\x7d")

/-- `hes_mreg_query`, from the reply that its exchange brings, if it brings one. -/
def hesMregQuery (reply : Option (List UInt8)) : Option HesDevreg := reply.bind queryReply

/-- `hes_mreg_report`, from the reply that its exchange brings; what the reply says is not
read. -/
def hesMregReport (reply : Option (List UInt8)) : ℤ := if reply.isSome then 0 else -1

/-- Is the client handed a message that is published? A subscription is a prefix of the
bytes. -/
def HesMreg.subscribed (m : HesMreg) (msg : List UInt8) : Bool := m.topic.isPrefixOf msg

/-- `hes_mreg_recv_update` of a message that has come. -/
def hesMregRecvUpdate (m : HesMreg) (msg : List UInt8) : Option HesDevreg :=
  let buf := receivedText hesMregReplyMax msg
  parseSlice (if m.topic.isPrefixOf buf then buf.drop m.topic.length else buf)

end OpenHes.Model
