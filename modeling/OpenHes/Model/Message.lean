import OpenHes.Library.CString

/-!
# HES-CLME messages

The message struct of `common/hes_common.h`: its verbs, its fields and the setters
the senders use. Text fields are the C strings the receivers read out of the fixed
arrays; the raw frame they come from is `OpenHes.Model.Bus`.
-/

set_option autoImplicit false

namespace OpenHes.Model

open OpenHes.Library

/-- `HES_PATH_MAX`. -/
def hesPathMax : ℕ := 128
/-- `HES_PAYLOAD_MAX`. -/
def hesPayloadMax : ℕ := 512
/-- `HES_QUERY_MAX`. -/
def hesQueryMax : ℕ := 64
/-- `HES_CRED_MAX`. -/
def hesCredMax : ℕ := 512
/-- `HES_USER_MAX`. -/
def hesUserMax : ℕ := 32

/-- `hes_verb_t`, with every byte that is no verb as `other`. -/
inductive HesVerb
  | none
  | get
  | put
  | event
  | subscribe
  | unsubscribe
  | other
  deriving DecidableEq

/-- The verb a byte of the wire stands for. -/
def HesVerb.ofByte (b : UInt8) : HesVerb :=
  if b = 0 then .none
  else if b = 1 then .get
  else if b = 2 then .put
  else if b = 3 then .event
  else if b = 4 then .subscribe
  else if b = 5 then .unsubscribe
  else .other

/-- `hes_module_type_t`. -/
inductive HesModuleType
  | none
  | hi
  | wi
  | sm
  | it
  deriving DecidableEq

/-- `hes_clme_msg_t`. -/
structure HesClmeMsg where
  path : CStr := []
  verb : HesVerb := .none
  deviceIndex : ℕ := 0
  query : CStr := []
  payloadLen : ℕ := 0
  payload : CStr := []
  credInfo : CStr := []
  userName : CStr := []
  timestampNs : ℕ := 0
  deriving DecidableEq

/-- `hes_strlcpy`. -/
def hesStrlcpy (dstsz : ℕ) (src : CStr) : CStr := boundedCopy dstsz src

/-- `hes_msg_set_payload_str`. -/
def hesMsgSetPayloadStr (m : HesClmeMsg) (s : CStr) : HesClmeMsg :=
  { m with
    payload := hesStrlcpy hesPayloadMax s
    payloadLen := (hesStrlcpy hesPayloadMax s).length }

/-- `hes_msg_set_path`. -/
def hesMsgSetPath (m : HesClmeMsg) (p : CStr) : HesClmeMsg :=
  { m with path := hesStrlcpy hesPathMax p }

/-- The message of `publish_event`. -/
def publishEvent (path payload : CStr) : HesClmeMsg :=
  hesMsgSetPayloadStr
    { hesMsgSetPath { verb := .event } path with query := hesStrlcpy hesQueryMax (lit "va") }
    payload

end OpenHes.Model
