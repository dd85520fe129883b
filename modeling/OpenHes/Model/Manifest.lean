import OpenHes.Model.DeviceRegistry

/-!
# The device manifest service

`dm/dm.c`: the product profile, the registry in memory that it becomes, the requests that
read and change it, and the slices it is printed as. The JSON text is printed by hand, so
it is given here piece by piece as the format strings have it.
-/

set_option autoImplicit false

namespace OpenHes.Model

open OpenHes.Library

/-- `MS_MAX_MODULES`. -/
def msMaxModules : ℕ := 8
/-- `MS_MAX_DEVICES`. -/
def msMaxDevices : ℕ := 16
/-- `MS_MAX_OBJECTS`. -/
def msMaxObjects : ℕ := 8
/-- `MS_PATH`. -/
def msPath : ℕ := 192
/-- `MS_MAX_REQ_BUF_SIZE`. -/
def msMaxReqBufSize : ℕ := 16384
/-- `MAX_CMD_SIZE`. -/
def maxCmdSize : ℕ := 32
/-- `MAX_ERR_MSG_SIZE`. -/
def maxErrMsgSize : ℕ := 256

/-- `ms_object_t`. -/
structure MsObject where
  path : CStr
  access : CStr
  deriving DecidableEq

/-- `ms_devprofile_t`. -/
structure MsDevprofile where
  deviceIndex : ℤ
  netRefIndex : ℤ
  role : CStr
  expectedHardware : CStr
  networkType : CStr
  objects : List MsObject
  runtimeAddress : CStr := []
  runtimeUdpPort : ℤ := 0
  runtimeBound : Bool := false
  online : Bool := false
  deriving DecidableEq

/-- `ms_module_t`. -/
structure MsModule where
  moduleType : CStr
  moduleRefIndex : ℤ
  serviceModuleType : CStr
  networkType : CStr
  devs : List MsDevprofile
  deriving DecidableEq

/-- `ms_profile_t`. -/
structure MsProfile where
  modules : List MsModule
  deriving DecidableEq

/-! ## Loading the profile -/

/-- `obj_long`. -/
def objLong (o : Json) (key : CStr) (dflt : ℤ) : ℤ := ((o.get key).bind jsonNumberLong).getD dflt

/-- `obj_str` into a cleared array of `dstsz` bytes. -/
def objStr (o : Json) (key : CStr) (dstsz : ℕ) : CStr :=
  ((o.getString key).map (boundedCopy dstsz)).getD []

/-- An entry of "objects". -/
def readObject (ob : Json) : MsObject where
  path := objStr ob (lit "lexiconPath") msPath
  access := objStr ob (lit "access") 8

/-- An entry of "deviceProfiles". -/
def readDevice (dp : Json) : MsDevprofile where
  deviceIndex := objLong dp (lit "deviceIndex") 0
  netRefIndex := objLong dp (lit "netRefIndex") 0
  role := objStr dp (lit "deviceRole") 64
  expectedHardware := objStr dp (lit "expectedHardware") 96
  networkType := objStr dp (lit "networkType") 16
  objects := ((dp.rows (lit "objects")).take msMaxObjects).map readObject

/-- An entry of "modules". -/
def readModule (mo : Json) : MsModule where
  moduleType := objStr mo (lit "moduleType") 8
  moduleRefIndex := objLong mo (lit "moduleRefIndex") 0
  serviceModuleType := objStr mo (lit "serviceModuleType") 8
  networkType := objStr mo (lit "networkType") 16
  devs := ((mo.rows (lit "deviceProfiles")).take msMaxDevices).map readDevice

/-- `load_profile` from the text of the file: entries that are no objects are passed over, the
arrays are filled as far as they go, and a profile without modules is refused. -/
def loadProfile (txt : CStr) : Option MsProfile :=
  (Json.loads txt).bind fun root =>
    let modules := ((root.rows (lit "modules")).take msMaxModules).map readModule
    if modules = [] then none else some ⟨modules⟩

/-! ## Looking up -/

/-- Is it the module that (module_type, mi) asks for? An empty type asks by index alone. -/
def isModule (moduleType : CStr) (mi : ℤ) (mod : MsModule) : Bool :=
  mod.moduleRefIndex = mi && (moduleType = [] || mod.moduleType = moduleType)

/-- `find_module`. -/
def findModule (pf : MsProfile) (moduleType : CStr) (mi : ℤ) : Option MsModule :=
  pf.modules.find? (isModule moduleType mi)

/-- Is it the device that find_device looks for? -/
def isDevice (di : ℤ) (dev : MsDevprofile) : Bool := dev.deviceIndex = di

/-- `find_device`. -/
def findDevice (mod : MsModule) (di : ℤ) : Option MsDevprofile := mod.devs.find? (isDevice di)

/-- Changes through the pointer that a look-up gives: the first entry that is looked for. -/
def updateFirst {α : Type} (p : α → Bool) (f : α → α) (entries : List α) : List α :=
  entries.modify (entries.findIdx p) f

/-! ## Printing -/

/-- One object of a slice; a comma follows it unless it is the last. -/
def objectLine (ob : MsObject) (last : Bool) : CStr :=
  lit "        \x7b \"lexiconPath\": " ++ Json.quote ob.path ++ lit ", \"access\": " ++
    Json.quote ob.access ++ lit (if last then " \x7d\n" else " \x7d,\n")

/-- The objects of a device. -/
def objectLines : List MsObject → CStr
  | [] => []
  | ob :: rest => objectLine ob rest.isEmpty ++ objectLines rest

/-- The status that is printed for a device. -/
def deviceStatus (dev : MsDevprofile) : CStr :=
  if dev.runtimeBound then (if dev.online then lit "online" else lit "offline") else lit "unbound"

/-- The network type that is printed for a device: the module's, where it has none. -/
def deviceNetwork (mod : MsModule) (dev : MsDevprofile) : CStr :=
  if dev.networkType = [] then mod.networkType else dev.networkType

/-- One device of a slice. -/
def deviceText (mod : MsModule) (dev : MsDevprofile) : CStr :=
  lit "    \x7b\n" ++
    lit "      \"deviceIndex\": " ++ fmtD dev.deviceIndex ++ lit ",\n" ++
    lit "      \"netRefIndex\": " ++ fmtD dev.netRefIndex ++ lit ",\n" ++
    lit "      \"deviceRole\": " ++ Json.quote dev.role ++ lit ",\n" ++
    lit "      \"expectedHardware\": " ++ Json.quote dev.expectedHardware ++ lit ",\n" ++
    lit "      \"networkType\": " ++ Json.quote (deviceNetwork mod dev) ++ lit ",\n" ++
    lit "      \"address\": " ++ Json.quote dev.runtimeAddress ++ lit ",\n" ++
    lit "      \"udpPort\": " ++ fmtD dev.runtimeUdpPort ++ lit ",\n" ++
    lit "      \"status\": " ++ Json.quote (deviceStatus dev) ++ lit ",\n" ++
    lit "      \"objects\": [\n" ++ objectLines dev.objects ++ lit "      ]\n    \x7d"

/-- The devices of a slice, a comma between each two. -/
def deviceTexts (mod : MsModule) : List MsDevprofile → CStr
  | [] => []
  | dev :: rest => deviceText mod dev ++ rest.flatMap fun dev => lit ",\n" ++ deviceText mod dev

/-- `build_slice`. -/
def buildSlice (mod : MsModule) : CStr :=
  lit "\x7b\n" ++
    lit "  \"gatewayId\": \"HES-GW-2026-99A1\",\n" ++
    lit "  \"moduleType\": " ++ Json.quote mod.moduleType ++ lit ",\n" ++
    lit "  \"moduleRefIndex\": " ++ fmtD mod.moduleRefIndex ++ lit ",\n" ++
    lit "  \"networkType\": " ++ Json.quote mod.networkType ++ lit ",\n" ++
    lit "  \"devices\": [\n" ++ deviceTexts mod mod.devs ++ lit "\n  ]\n\x7d\n"

/-- `module_present`. -/
def modulePresent (mod : MsModule) : Bool := mod.devs.any (·.runtimeBound) || mod.devs = []

/-- One module of the module list. -/
def moduleText (mod : MsModule) : CStr :=
  lit "    \x7b\n" ++
    lit "      \"moduleType\": " ++ Json.quote mod.moduleType ++ lit ",\n" ++
    lit "      \"moduleRefIndex\": " ++ fmtD mod.moduleRefIndex ++ lit ",\n" ++
    lit "      \"serviceModuleType\": " ++ Json.quote mod.serviceModuleType ++ lit ",\n" ++
    lit "      \"present\": " ++ lit (if modulePresent mod then "1" else "0") ++ lit "\n" ++
    lit "    \x7d"

/-- `build_modules_list`. -/
def buildModulesList (pf : MsProfile) : CStr :=
  lit "\x7b\n  \"modules\": [\n" ++
    (match pf.modules with
      | [] => []
      | mod :: rest => moduleText mod ++ rest.flatMap fun mod => lit ",\n" ++ moduleText mod) ++
    lit "\n  ]\n\x7d\n"

/-- The message of `publish_slice`. -/
def publishSlice (mod : MsModule) : CStr := fmtD mod.moduleRefIndex ++ buildSlice mod

/-! ## Requests -/

/-- What one entry of a report changes: only the fields that it has. -/
def updateDevice (e : Json) (dev : MsDevprofile) : MsDevprofile :=
  let addr := objStr e (lit "address") msPath
  let udp := objLong e (lit "udpPort") (-1)
  let online := objLong e (lit "online") (-1)
  { dev with
    runtimeBound := true
    runtimeAddress := if addr = [] then dev.runtimeAddress else boundedCopy msPath addr
    runtimeUdpPort := if 0 ≤ udp then toInt32 udp else dev.runtimeUdpPort
    online := if 0 ≤ online then decide (online ≠ 0) else dev.online }

/-- One entry of a report; `changed` is set when it names a device of the module. -/
def reportDevice (acc : MsModule × Bool) (e : Json) : MsModule × Bool :=
  let di := objLong e (lit "deviceIndex") (-1)
  match findDevice acc.1 di with
  | some _ => ({ acc.1 with devs := updateFirst (isDevice di) (updateDevice e) acc.1.devs }, true)
  | none => acc

/-- The loop over the devices of a report. -/
def applyReport (root : Json) (mod : MsModule) : MsModule × Bool :=
  (root.rows (lit "devices")).foldl reportDevice (mod, false)

/-- What a request leaves: the registry, what was published and the reply. -/
structure Handled where
  pf : MsProfile
  published : List CStr
  reply : CStr

/-- The reply when the profile declares no such module. -/
def noModuleReply (moduleType : CStr) (mi : ℤ) : CStr :=
  boundedCopy maxErrMsgSize
    (if moduleType = [] then lit "\x7b\"error\":\"no module " ++ fmtD mi ++ lit "\"\x7d"
      else lit "\x7b\"error\":\"no module " ++ moduleType ++ lit "/" ++ fmtD mi ++ lit "\"\x7d")

/-- `handle_request`. -/
def handleRequest (pf : MsProfile) (req : CStr) : Handled :=
  match Json.loads req with
  | none => ⟨pf, [], lit "\x7b\"error\":\"bad json\"\x7d"⟩
  | some root =>
    let cmd := objStr root (lit "cmd") maxCmdSize
    let mi := objLong root (lit "moduleRefIndex") (-1)
    let mt := objStr root (lit "moduleType") maxCmdSize
    if cmd = lit "modules" then ⟨pf, [], buildModulesList pf⟩
    else if mi < 0 then ⟨pf, [], lit "\x7b\"error\":\"missing moduleRefIndex\"\x7d"⟩
    else
      match findModule pf mt mi with
      | none => ⟨pf, [], noModuleReply mt mi⟩
      | some mod =>
        if cmd = lit "query" then ⟨pf, [], buildSlice mod⟩
        else if cmd = lit "report" then
          let (mod, changed) := applyReport root mod
          ⟨⟨updateFirst (isModule mt mi) (fun _ => mod) pf.modules⟩,
            if changed then [publishSlice mod] else [], lit "\x7b\"ok\":1\x7d"⟩
        else ⟨pf, [], lit "\x7b\"error\":\"unknown cmd\"\x7d"⟩

/-- One turn of the service loop, with the bytes that were received. -/
def serveRequest (pf : MsProfile) (bytes : List UInt8) : Handled :=
  handleRequest pf (receivedText msMaxReqBufSize bytes)

/-- The registry after the requests. -/
def serveRequests (pf : MsProfile) (requests : List (List UInt8)) : MsProfile :=
  requests.foldl (fun pf bytes => (serveRequest pf bytes).pf) pf

/-! ## Exchanges with a client -/

/-- How an exchange over the request socket ends: it is answered, or the client gets an error
of the transport, and the service has had the request or not. -/
inductive Exchange
  | answered
  | unanswered
  | unsent
  deriving DecidableEq

/-- `req_reply`: the registry behind the exchange, and the reply, if one comes. -/
def reqReply (pf : MsProfile) (req : CStr) : Exchange → MsProfile × Option (List UInt8)
  | .answered => ((serveRequest pf req).pf, some (serveRequest pf req).reply)
  | .unanswered => ((serveRequest pf req).pf, none)
  | .unsent => (pf, none)

end OpenHes.Model
