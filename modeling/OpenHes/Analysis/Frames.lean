import OpenHes.Model.Bus

/-!
# What a received frame guarantees

`hes_bus_recv` takes a frame as it comes, so what holds of the received struct is what the
frame's bytes say, together with the bytes the struct held before where the frame is too
short. A string ends inside its array exactly when one of these bytes is a NUL.
-/

set_option autoImplicit false

namespace OpenHes.Analysis

open OpenHes.Library OpenHes.Model

/-- The struct is safe to read: every string ends inside its array, and the payload leaves
room for its terminator. -/
structure Validated (mem : MsgMemory) : Prop where
  strings : ∀ f ∈ stringFields, 0 ∈ mem.field f
  payloadLen : mem.payloadLen ≤ hesPayloadMax - 1

/-- Byte `k` of the struct after a frame was received: the frame's, or the one that was
there. -/
def receivedByte (mem : MsgMemory) (frame : List UInt8) (k : ℕ) : UInt8 :=
  if k < frame.length then frame.getD k 0 else mem.bytes.getD k 0

/-- The bytes that arrive are well formed: a NUL in the window of each string, and a payload
length that leaves room for the terminator. -/
structure FrameFits (mem : MsgMemory) (frame : List UInt8) : Prop where
  strings : ∀ f ∈ stringFields, ∃ k, f.offset ≤ k ∧ k < f.offset + f.size ∧
    receivedByte mem frame k = 0
  payloadLen : leValue ((List.range 4).map fun k =>
    receivedByte mem frame (payloadLenField.offset + k)) ≤ hesPayloadMax - 1

variable (mem : MsgMemory) (frame : List UInt8)

/-- INTERNAL: the received struct, byte by byte.
SRCLINE: hes_bus.c:185-191 -/
theorem hesBusRecv_byte (k : ℕ) (hk : k < hesMsgSize) :
    (hesBusRecv mem frame).bytes[k]? = some (receivedByte mem frame k) := by
  have hsize := mem.size_eq
  unfold hesBusRecv receivedByte
  by_cases hlen : k < frame.length
  · rw [if_pos hlen, List.getElem?_append_left (by rw [List.length_take]; omega),
      List.getElem?_take_of_lt hk, List.getElem?_eq_getElem hlen]
    simp [List.getD, List.getElem?_eq_getElem hlen]
  · have htake : (frame.take hesMsgSize).length = frame.length := by
      rw [List.length_take]
      omega
    rw [if_neg hlen, List.getElem?_append_right (by omega), htake, List.getElem?_drop]
    have hidx : frame.length + (k - frame.length) = k := by omega
    rw [hidx, List.getElem?_eq_getElem (by omega)]
    simp [List.getD, List.getElem?_eq_getElem (show k < mem.bytes.length by omega)]

/-- INTERNAL: a field of the received struct, byte by byte. -/
theorem hesBusRecv_field (f : Field) (hf : f.offset + f.size ≤ hesMsgSize) :
    (hesBusRecv mem frame).field f =
      (List.range f.size).map fun k => receivedByte mem frame (f.offset + k) := by
  have hsize := (hesBusRecv mem frame).size_eq
  unfold MsgMemory.field
  apply List.ext_getElem?
  intro k
  by_cases hk : k < f.size
  · rw [List.getElem?_take_of_lt hk, List.getElem?_drop,
      hesBusRecv_byte mem frame (f.offset + k) (by omega)]
    simp [hk]
  · rw [List.getElem?_eq_none (by rw [List.length_take, List.length_drop]; omega),
      List.getElem?_eq_none (by simpa using hk)]

/-- INTERNAL: the string fields lie inside the struct. -/
theorem stringFields_inside : ∀ f ∈ stringFields, f.offset + f.size ≤ hesMsgSize := by decide

/-- INTERNAL: the payload length of the received struct. -/
theorem hesBusRecv_payloadLen :
    (hesBusRecv mem frame).payloadLen = leValue ((List.range 4).map fun k =>
      receivedByte mem frame (payloadLenField.offset + k)) := by
  unfold MsgMemory.payloadLen
  rw [hesBusRecv_field mem frame payloadLenField (by decide)]
  rfl

/-- INTERNAL: what a frame has to bring for the received struct to be safe to read. -/
theorem validated_iff_frameFits :
    Validated (hesBusRecv mem frame) ↔ FrameFits mem frame := by
  have hstring : ∀ f ∈ stringFields, 0 ∈ (hesBusRecv mem frame).field f ↔
      ∃ k, f.offset ≤ k ∧ k < f.offset + f.size ∧ receivedByte mem frame k = 0 := by
    intro f hf
    rw [hesBusRecv_field mem frame f (stringFields_inside f hf), List.mem_map]
    constructor
    · rintro ⟨k, hk, hzero⟩
      rw [List.mem_range] at hk
      exact ⟨f.offset + k, by omega, by omega, hzero⟩
    · rintro ⟨k, hlo, hhi, hzero⟩
      refine ⟨k - f.offset, List.mem_range.mpr (by omega), ?_⟩
      have hidx : f.offset + (k - f.offset) = k := by omega
      rw [hidx]
      exact hzero
  constructor
  · intro h
    refine ⟨fun f hf => (hstring f hf).mp (h.strings f hf), ?_⟩
    rw [← hesBusRecv_payloadLen]
    exact h.payloadLen
  · intro h
    refine ⟨fun f hf => (hstring f hf).mpr (h.strings f hf), ?_⟩
    rw [hesBusRecv_payloadLen]
    exact h.payloadLen

/-- INTERNAL: the router's copy of the payload of a struct that is safe to read stays inside
both arrays, ends in a NUL, and is the text the router's model answers from.
SRCLINE: hes_dispatch.c:262-266 -/
theorem Validated.copyPayload {α : Type} {mem : MsgMemory} (h : Validated mem)
    (so : ServiceObject α) :
    ∃ out, copyPayload mem = some out ∧ out.length = hesPayloadMax ∧ 0 ∈ out ∧
      cString out = (answerTo so mem.message).payload := by
  have hle := h.payloadLen
  have hmax : hesPayloadMax = 512 := rfl
  have hfield : (mem.field payloadField).length = hesPayloadMax := by
    have hsize := mem.size_eq
    have hend : payloadField.offset + payloadField.size ≤ hesMsgSize := by decide
    unfold MsgMemory.field
    rw [List.length_take, List.length_drop]
    change min hesPayloadMax _ = _
    change payloadField.offset + hesPayloadMax ≤ hesMsgSize at hend
    omega
  refine ⟨(mem.field payloadField).take mem.payloadLen ++
    List.replicate (hesPayloadMax - mem.payloadLen) 0, ?_, ?_, ?_, ?_⟩
  · unfold Model.copyPayload
    rw [if_pos (by omega)]
  · rw [List.length_append, List.length_take, List.length_replicate, hfield]
    omega
  · refine List.mem_append_right _ (List.mem_replicate.mpr ⟨?_, rfl⟩)
    omega
  · rw [cString_take_zeros]
    have htext := cString_take_of_nul _ _ (h.strings payloadField (by decide))
    exact congrArg (List.take mem.payloadLen) htext

/-- The received struct is safe to read exactly when the bytes that arrived, with those that
were there where the frame is short, are well formed. The router's copy then stays inside
its arrays; it leaves them when the payload length that arrived is above the array's size.
SRCLINE: hes_bus.c:185-191, hes_dispatch.c:262-266 -/
theorem received_validated :
    (Validated (hesBusRecv mem frame) ∧ copyPayload (hesBusRecv mem frame) ≠ none ↔
        FrameFits mem frame) ∧
      (hesPayloadMax < leValue ((List.range 4).map fun k =>
          receivedByte mem frame (payloadLenField.offset + k)) →
        copyPayload (hesBusRecv mem frame) = none) := by
  refine ⟨⟨fun h => (validated_iff_frameFits mem frame).mp h.1, ?_⟩, ?_⟩
  · intro h
    have hvalid := (validated_iff_frameFits mem frame).mpr h
    obtain ⟨out, hout, -⟩ := hvalid.copyPayload (α := Unit) { path := [] }
    refine ⟨hvalid, ?_⟩
    rw [hout]
    exact Option.some_ne_none out
  · intro hlong
    unfold Model.copyPayload
    rw [if_neg (by rw [hesBusRecv_payloadLen]; omega)]

/-! ## A frame with a payload length of 4096 -/

/-- A struct of zeros. -/
def zeroMemory : MsgMemory := ⟨List.replicate hesMsgSize 0, by simp⟩

/-- A text in an array of zeros. -/
def textField (text : CStr) (size : ℕ) : List UInt8 :=
  text ++ List.replicate (size - text.length) 0

/-- A GET of the clock; the payload length is what its four bytes say. -/
def clockFrame (payloadLen : List UInt8) : List UInt8 :=
  textField (lit "/lx/ob/so/ti/rt/st/cv") 128 ++ [1, 0, 0, 0] ++ [0, 0, 0, 0] ++
    textField [] 64 ++ payloadLen ++ textField [] 512 ++ textField [] 512 ++ textField [] 32 ++
    [0, 0, 0, 0] ++ [0, 0, 0, 0, 0, 0, 0, 0]

/-- The frame is received, and the router's copy of its payload leaves the arrays. -/
theorem clockFrame_overruns :
    (clockFrame [0, 16, 0, 0]).length = hesMsgSize ∧
      ¬ Validated (hesBusRecv zeroMemory (clockFrame [0, 16, 0, 0])) ∧
      (hesBusRecv zeroMemory (clockFrame [0, 16, 0, 0])).payloadLen = 4096 ∧
      copyPayload (hesBusRecv zeroMemory (clockFrame [0, 16, 0, 0])) = none := by
  have hlen : (hesBusRecv zeroMemory (clockFrame [0, 16, 0, 0])).payloadLen = 4096 := by
    decide +kernel
  refine ⟨by decide +kernel, ?_, hlen, ?_⟩
  · intro h
    have hle := h.payloadLen
    rw [hlen] at hle
    exact absurd hle (by decide)
  · unfold Model.copyPayload
    rw [if_neg (by rw [hlen]; decide)]

/-- INTERNAL: with a payload length of 0 the frame is well formed. -/
theorem clockFrame_fits : FrameFits zeroMemory (clockFrame [0, 0, 0, 0]) := by
  -- the last byte of each array is a NUL
  have hlast : ∀ f ∈ stringFields,
      receivedByte zeroMemory (clockFrame [0, 0, 0, 0]) (f.offset + f.size - 1) = 0 := by
    decide +kernel
  have hsize : ∀ f ∈ stringFields, 0 < f.size := by decide
  refine ⟨?_, by decide +kernel⟩
  intro f hf
  have hpos := hsize f hf
  exact ⟨f.offset + f.size - 1, by omega, by omega, hlast f hf⟩

/-- So it is received safely. -/
theorem received_validated_clock :
    FrameFits zeroMemory (clockFrame [0, 0, 0, 0]) ∧
      Validated (hesBusRecv zeroMemory (clockFrame [0, 0, 0, 0])) ∧
      copyPayload (hesBusRecv zeroMemory (clockFrame [0, 0, 0, 0])) ≠ none :=
  ⟨clockFrame_fits, (received_validated zeroMemory (clockFrame [0, 0, 0, 0])).1.mpr
    clockFrame_fits⟩

end OpenHes.Analysis
