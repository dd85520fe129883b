import OpenHes.Library.JsonReads
import OpenHes.Library.TextBuffer
import OpenHes.Model.DeviceRegistry

/-!
# The buffer of a report

`hes_mreg_report` of `common/hes_mreg.c` at the level of its array: each `snprintf` goes to the
running offset, into the room that an unsigned subtraction tells it of. A write outside of the
array has no meaning. The registries are those that a running module can hold.
-/

set_option autoImplicit false

namespace OpenHes.Model

open OpenHes.Library

/-- `req` and `off`, and the offsets at which `snprintf` has been called. -/
structure ReportBuffer where
  req : List UInt8
  off : ℕ
  calls : List ℕ

/-- Why nothing is sent: a write outside of `req`, or the −1 of a failed `snprintf`. -/
inductive ReportStop
  | outOfBounds
  | failed
  deriving DecidableEq

/-- `snprintf(req + off, sizeof(req) - off, ...)`, and what it returns. -/
def ReportBuffer.print (s : ReportBuffer) (text : CStr) :
    Except ReportStop (ReportBuffer × ℤ) :=
  match snprintf s.req s.off (toSize (hesMregReqMax - s.off)) text with
  | none => .error .outOfBounds
  | some (req, n) => .ok ({ s with req := req, calls := s.calls ++ [s.off] }, n)

/-- What the first format makes. -/
def reportHead (m : HesMreg) : CStr :=
  lit "\x7b\"cmd\":\"report\",\"moduleType\":" ++ Json.quote m.moduleType ++
    lit ",\"moduleRefIndex\":" ++ fmtD m.moduleRefIndex ++ lit ",\"devices\":["

/-- What the format of the loop makes of device `i`. -/
def reportItem (i : ℕ) (d : HesDevice) : CStr := (if i = 0 then [] else lit ",") ++ reportEntry d

/-- The loop of `hes_mreg_report` from device `i` on. -/
def reportDevices : ℕ → List HesDevice → ReportBuffer → Except ReportStop ReportBuffer
  | _, [], s => .ok s
  | i, d :: rest, s =>
    if s.off < hesMregReqMax then
      (s.print (reportItem i d)).bind fun (s, n) =>
        if n < 0 then .error .failed
        else reportDevices (i + 1) rest { s with off := toSize (s.off + toSize n) }
    else .ok s

/-- `hes_mreg_report` up to the request that it hands to `req_reply`. -/
def hesMregReportRequest (m : HesMreg) (reg : HesDevreg) : Except ReportStop ReportBuffer :=
  (ReportBuffer.print ⟨List.replicate hesMregReqMax 0, 0, []⟩ (reportHead m)).bind fun (s, n) =>
    (reportDevices 0 reg.devices { s with off := toSize n }).bind fun s =>
      (s.print (lit "]\x7d")).map Prod.fst

/-- What `req_reply` sends: `strlen(req)` bytes. -/
def ReportBuffer.sent (s : ReportBuffer) : CStr := cString s.req

/-- The registries of a module: what `hes_devreg_parse` makes of a document, whose strings C can
hold, and what becomes of it when the module sets the address, the port and the presence of a
device. -/
inductive ModuleRegistry : HesDevreg → Prop
  | parsed (root : Json) (reg : HesDevreg) (hroot : ∀ v, Json.HasString root v → ∀ c ∈ v, c ≠ 0)
      (hreg : hesDevregParse root = some reg) : ModuleRegistry reg
  | set (reg : HesDevreg) (i : ℕ) (address : CStr) (udpPort : ℤ) (online : Bool)
      (haddress : address.length ≤ 63 ∧ ∀ c ∈ address, c ≠ 0) (hport : FitsInt32 udpPort)
      (hreg : ModuleRegistry reg) :
      ModuleRegistry { reg with
        devices := reg.devices.modify i fun d =>
          { d with address := address, udpPort := udpPort, online := online } }

end OpenHes.Model
