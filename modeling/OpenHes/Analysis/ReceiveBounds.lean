import OpenHes.Model.ReceiveBuffer

/-!
# Receiving in bounds

The index of the terminator is the length that the other side has sent, while no more is
copied than the buffer holds. A message that is shorter than the buffer is received as it
is, and the terminator of any other is written outside.
-/

set_option autoImplicit false

namespace OpenHes.Analysis

open OpenHes.Library OpenHes.Model

/-- INTERNAL: a buffer keeps its length. -/
theorem nngRecv_length (cap : ℕ) (msg : List UInt8) :
    (nngRecv (List.replicate cap 0) (cap - 1) msg).1.length = cap := by
  simp only [nngRecv, List.length_append, List.length_take, List.length_drop,
    List.length_replicate]
  omega

/-- INTERNAL: the length that is told is that of the message, even past the room. -/
theorem nngRecv_size (buf : List UInt8) (size : ℕ) (msg : List UInt8) :
    (nngRecv buf size msg).2 = msg.length := rfl

/-- INTERNAL: what a message that fits leaves in a cleared buffer. -/
theorem receive_fits (path : ReceivePath) (msg : List UInt8) (h : msg.length < path.capacity) :
    path.receive msg = some (msg ++ List.replicate (path.capacity - msg.length) 0) := by
  have htake : msg.take (path.capacity - 1) = msg := List.take_of_length_le (by omega)
  have hrest : path.capacity - msg.length = path.capacity - msg.length - 1 + 1 := by omega
  unfold ReceivePath.receive ReceivePath.nulIndex writeByte
  rw [nngRecv_length, nngRecv_size, if_pos h]
  unfold nngRecv
  rw [htake, List.drop_replicate, hrest, List.replicate_succ,
    List.set_append_right _ _ (le_refl _), Nat.sub_self, List.set_cons_zero]

/-- **Receiving in bounds.** On each way in, whatever the other side sends: the terminator is
written inside the buffer exactly when the message is shorter than the buffer, and the buffer
then holds the text of the message.
SRCLINE: dm.c:641-651 -/
theorem received_in_bounds (path : ReceivePath) (msg : List UInt8) :
    (path.nulIndex msg < path.capacity ↔ msg.length < path.capacity) ∧
      ((path.receive msg).isSome = true ↔ msg.length < path.capacity) ∧
      ∀ buf, path.receive msg = some buf →
        cString buf = receivedText path.capacity msg := by
  have hdefined : (path.receive msg).isSome = true ↔ msg.length < path.capacity := by
    unfold ReceivePath.receive ReceivePath.nulIndex writeByte
    rw [nngRecv_length, nngRecv_size]
    split
    next h => exact iff_of_true rfl h
    next h => exact iff_of_false (by simp) h
  refine ⟨Iff.rfl, hdefined, fun buf hbuf => ?_⟩
  have hfits : msg.length < path.capacity := by
    rw [← hdefined, hbuf]
    rfl
  rw [receive_fits path msg hfits, Option.some_inj] at hbuf
  rw [← hbuf, cString_append_zeros]
  unfold receivedText
  rw [List.take_of_length_le (by omega)]

/-- A request of as many bytes as the service has room for. -/
def longRequest : List UInt8 := List.replicate 16384 32

/-- The end of a long request is written past the manifest's buffer. -/
theorem request_out_of_bounds :
    ¬ ReceivePath.manifestServiceMain.nulIndex longRequest <
      ReceivePath.manifestServiceMain.capacity := by
  unfold ReceivePath.nulIndex nngRecv longRequest
  rw [List.length_replicate]
  decide

end OpenHes.Analysis
