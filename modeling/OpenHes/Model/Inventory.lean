import OpenHes.Model.BindingMap
import OpenHes.Model.Identity
import OpenHes.Model.Manifest

/-!
# The gateway's inventory

The module list of the device manifest service as `common/hes_mreg.c` reads it, and the
inventory that `modules/core/core.c` makes of it for the identification service: the last list
that was heard, or what the addressing table tells until then.
-/

set_option autoImplicit false

namespace OpenHes.Model

open OpenHes.Library

/-! ## hes_mreg.c -/

/-- `HES_MODULES_MAX`. -/
def hesModulesMax : ℕ := 16

/-- `hes_module_entry_t`. -/
structure HesModuleEntry where
  moduleType : CStr
  moduleRefIndex : ℕ
  serviceModuleType : CStr
  present : Bool
  deriving DecidableEq

/-- `json_number_value`, where the member is a number. -/
def jsonNumberField (o : Json) (key : CStr) : Option Binary64 :=
  match o.get key with
  | some (.integer n) => some (Binary64.ofInt n)
  | some (.real x) => some x
  | _ => none

/-- `json_str_field` into a cleared array of `dstsz` bytes. -/
def jsonStrField (o : Json) (key : CStr) (dstsz : ℕ) : CStr :=
  ((o.getString key).map (boundedCopy dstsz)).getD []

/-- `json_u32_field`. Of a number past `uint32_t`, which C does not define, the low bits are
taken. -/
def jsonU32Field (o : Json) (key : CStr) : ℕ :=
  match jsonNumberField o key with
  | some x => if Binary64.lt (Binary64.pack false 0) x then toUInt32 (Binary64.toLong x) else 0
  | none => 0

/-- `json_flag_field`. -/
def jsonFlagField (o : Json) (key : CStr) : Bool :=
  match jsonNumberField o key with
  | some x => !Binary64.eq x (Binary64.pack false 0)
  | none => false

/-- An entry of "modules" as the client reads it. -/
def parseModuleEntry (mo : Json) : HesModuleEntry where
  moduleType := jsonStrField mo (lit "moduleType") 8
  moduleRefIndex := jsonU32Field mo (lit "moduleRefIndex")
  serviceModuleType := jsonStrField mo (lit "serviceModuleType") 8
  present := jsonFlagField mo (lit "present")

/-- The request of `hes_mreg_query_modules`. -/
def modulesRequest : CStr := lit "\x7b\"cmd\":\"modules\"\x7d"

/-- `hes_mreg_query_modules`, from the reply that its exchange brings, if it brings one. -/
def hesMregQueryModules (reply : Option (List UInt8)) : Option (List HesModuleEntry) :=
  reply.bind fun reply =>
    (Json.loads (receivedText hesMregReplyMax reply)).bind fun root =>
      (root.getArray (lit "modules")).map fun arr =>
        ((arr.filter Json.isObject).take hesModulesMax).map parseModuleEntry

/-! ## core.c -/

/-- `count_distinct_modules`; the list is the part of `seen[]` that is filled. -/
def countDistinctModules (addrs : List BmAddr) (type : HesModuleType) : ℕ :=
  ((addrs.filter fun a => a.moduleType = type).foldl
    (fun seen a =>
      if a.moduleRefIndex ∈ seen then seen else seen ++ [a.moduleRefIndex]) []).length

/-- `core_inventory_t`, with the addressing table of its binding map. -/
structure CoreInventory where
  addrs : List BmAddr
  svcRepUrl : Option CStr
  mregOpen : Bool := false
  haveModules : Bool := false
  modules : List HesModuleEntry := []

/-- Is a manifest service configured? -/
def CoreInventory.configured (inv : CoreInventory) : Bool := inv.svcRepUrl.getD [] ≠ []

/-- `core_inventory_refresh` beside the service: `opens` says whether its socket can be opened
now, if it is not open, and the exchange how the request ends. -/
def coreInventoryRefresh (opens : Bool) (ends : Exchange) (pf : MsProfile) (inv : CoreInventory) :
    MsProfile × CoreInventory :=
  if !inv.configured then (pf, inv)
  else if !inv.mregOpen && !opens then (pf, inv)
  else
    let inv := { inv with mregOpen := true }
    let (pf, reply) := reqReply pf modulesRequest ends
    match hesMregQueryModules reply with
    | none => (pf, inv)
    | some modules => (pf, { inv with modules := modules, haveModules := true })

/-- The discovery row of a service module. -/
def smRow (moduleRefIndex : ℕ) : IdBindingMap where
  moduleType := hesStrlcpy 4 (lit "sm")
  moduleRefIndex := moduleRefIndex
  netRefIndex := 0
  address := []

/-- The loop body of `core_gateway_inventory`. -/
def countModule (out : IdInventory) (mod : HesModuleEntry) : IdInventory :=
  if mod.moduleType = lit "hi" then { out with hansNumber := out.hansNumber + 1 }
  else if mod.moduleType = lit "wi" then { out with wansNumber := out.wansNumber + 1 }
  else if mod.moduleType = lit "sm" then
    let out := { out with serviceModulesNumber := out.serviceModulesNumber + 1 }
    if out.bindingMaps.length < idMaxBindingMaps then
      { out with bindingMaps := out.bindingMaps ++ [smRow mod.moduleRefIndex] }
    else out
  else out

/-- `core_gateway_inventory`. -/
def coreGatewayInventory (inv : CoreInventory) : IdInventory :=
  if inv.haveModules then inv.modules.foldl countModule {}
  else
    { hansNumber := countDistinctModules inv.addrs .hi
      wansNumber := countDistinctModules inv.addrs .wi
      serviceModulesNumber := 1 + countDistinctModules inv.addrs .sm
      bindingMaps := [smRow 1] }

/-! ## Beside the service -/

/-- What happens between the service and the core: a request of somebody else is served, or the
core refreshes its list. -/
inductive InventoryStep
  | served (bytes : List UInt8)
  | refresh (opens : Bool) (ends : Exchange)

/-- One step. -/
def inventoryStep (s : MsProfile × CoreInventory) : InventoryStep → MsProfile × CoreInventory
  | .served bytes => ((serveRequest s.1 bytes).pf, s.2)
  | .refresh opens ends => coreInventoryRefresh opens ends s.1 s.2

/-- The steps of a run. -/
def inventoryRun (steps : List InventoryStep) (s : MsProfile × CoreInventory) :
    MsProfile × CoreInventory := steps.foldl inventoryStep s

end OpenHes.Model
