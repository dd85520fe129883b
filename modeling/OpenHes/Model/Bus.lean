import OpenHes.Model.Dispatch

/-!
# Messages on the wire

`hes_bus_recv` of `common/hes_bus.c`. A message travels as the bytes of its struct. What is
received is copied over the receiver's struct, as far as it goes and as far as it fits, and
is read as a message from there.
-/

set_option autoImplicit false

namespace OpenHes.Model

open OpenHes.Library

/-- `sizeof(hes_clme_msg_t)`. -/
def hesMsgSize : ℕ := 1272

/-- Where a field of the struct lies. -/
structure Field where
  offset : ℕ
  size : ℕ
  deriving DecidableEq

/-- `path`. -/
def pathField : Field := ⟨0, hesPathMax⟩
/-- `verb`. -/
def verbField : Field := ⟨128, 1⟩
/-- `device_index`, behind three bytes of padding. -/
def deviceIndexField : Field := ⟨132, 4⟩
/-- `query`. -/
def queryField : Field := ⟨136, hesQueryMax⟩
/-- `payload_len`. -/
def payloadLenField : Field := ⟨200, 4⟩
/-- `payload`. -/
def payloadField : Field := ⟨204, hesPayloadMax⟩
/-- `cred_info`. -/
def credInfoField : Field := ⟨716, hesCredMax⟩
/-- `user_name`. -/
def userNameField : Field := ⟨1228, hesUserMax⟩
/-- `timestamp_ns`, behind four bytes of padding. -/
def timestampNsField : Field := ⟨1264, 8⟩

/-- The fields that are read as strings. -/
def stringFields : List Field :=
  [pathField, queryField, payloadField, credInfoField, userNameField]

/-- The memory of a `hes_clme_msg_t`. -/
structure MsgMemory where
  bytes : List UInt8
  size_eq : bytes.length = hesMsgSize

namespace MsgMemory

/-- The bytes of a field. -/
def field (mem : MsgMemory) (f : Field) : List UInt8 := (mem.bytes.drop f.offset).take f.size

/-- `payload_len`. -/
def payloadLen (mem : MsgMemory) : ℕ := leValue (mem.field payloadLenField)

/-- The string at the place of a field. Where the field's array holds no NUL the string functions
read on into what lies behind it, here as far as the struct. -/
def text (mem : MsgMemory) (f : Field) : CStr := cString (mem.bytes.drop f.offset)

/-- The message the struct is read as. -/
def message (mem : MsgMemory) : HesClmeMsg where
  path := mem.text pathField
  verb := HesVerb.ofByte ((mem.field verbField).headD 0)
  deviceIndex := leValue (mem.field deviceIndexField)
  query := mem.text queryField
  payloadLen := mem.payloadLen
  payload := mem.text payloadField
  credInfo := mem.text credInfoField
  userName := mem.text userNameField
  timestampNs := leValue (mem.field timestampNsField)

end MsgMemory

/-- The string at the place of a field as far as the time stamp. -/
def beforeStamp (f : Field) (text : CStr) : CStr := text.take (timestampNsField.offset - f.offset)

/-- The message without its time stamp, which lies last in the struct and which `hes_bus_send`
makes anew. -/
def unstamped (m : HesClmeMsg) : HesClmeMsg where
  path := beforeStamp pathField m.path
  verb := m.verb
  deviceIndex := m.deviceIndex
  query := beforeStamp queryField m.query
  payloadLen := m.payloadLen
  payload := beforeStamp payloadField m.payload
  credInfo := beforeStamp credInfoField m.credInfo
  userName := beforeStamp userNameField m.userName
  timestampNs := 0

/-- `hes_bus_recv` when it returns 0: NNG copies the smaller of the frame's length and the
struct's size, and what it does not reach keeps its bytes. -/
def hesBusRecv (mem : MsgMemory) (frame : List UInt8) : MsgMemory where
  bytes := frame.take hesMsgSize ++ mem.bytes.drop frame.length
  size_eq := by
    have h := mem.size_eq
    rw [List.length_append, List.length_take, List.length_drop]
    omega

/-- `memcpy(out.payload, in->payload, in->payload_len)` of `dispatch_to_local_objects`, into
a zeroed answer. There is no result when the copy leaves the two arrays. -/
def copyPayload (mem : MsgMemory) : Option (List UInt8) :=
  if mem.payloadLen ≤ hesPayloadMax then
    some ((mem.field payloadField).take mem.payloadLen ++
      List.replicate (hesPayloadMax - mem.payloadLen) 0)
  else none

end OpenHes.Model
