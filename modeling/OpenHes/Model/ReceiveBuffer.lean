import OpenHes.Model.Manifest

/-!
# Receiving into a buffer

What `nng_recv` does to a buffer of a fixed size, and the NUL that `manifest_service_main`
of `dm/dm.c` and `req_reply` and `hes_mreg_recv_update` of `common/hes_mreg.c` put behind
what has come. A write outside the buffer has no meaning, so it is none.
-/

set_option autoImplicit false

namespace OpenHes.Model

open OpenHes.Library

/-- `nng_recv` with `*szp` being `size`: the bytes that are copied, and the `*szp` that it
leaves, which is the length of the message. -/
def nngRecv (buf : List UInt8) (size : ℕ) (msg : List UInt8) : List UInt8 × ℕ :=
  (msg.take size ++ buf.drop (msg.take size).length, msg.length)

/-- `buf[index] = c`. -/
def writeByte (buf : List UInt8) (index : ℕ) (c : UInt8) : Option (List UInt8) :=
  if index < buf.length then some (buf.set index c) else none

/-- Who calls `req_reply`, each with a buffer of its own. -/
inductive ReplyCaller
  | hesMregQuery
  | hesMregQueryModules
  | hesMregReport
  deriving DecidableEq

/-- The size of the buffer in `hes_mreg_report`. -/
def reportReplyMax : ℕ := 256

/-- `replysz`. -/
def ReplyCaller.replysz : ReplyCaller → ℕ
  | hesMregQuery | hesMregQueryModules => hesMregReplyMax
  | hesMregReport => reportReplyMax

/-- Where the sources receive a text of the registry. -/
inductive ReceivePath
  | manifestServiceMain
  | reqReply (caller : ReplyCaller)
  | hesMregRecvUpdate
  deriving DecidableEq

/-- The size of the buffer. -/
def ReceivePath.capacity : ReceivePath → ℕ
  | manifestServiceMain => msMaxReqBufSize
  | reqReply caller => caller.replysz
  | hesMregRecvUpdate => hesMregReplyMax

/-- The index that the NUL is written at. -/
def ReceivePath.nulIndex (path : ReceivePath) (msg : List UInt8) : ℕ :=
  (nngRecv (List.replicate path.capacity 0) (path.capacity - 1) msg).2

/-- The buffer, cleared before, when the message has come and the NUL is behind it. -/
def ReceivePath.receive (path : ReceivePath) (msg : List UInt8) : Option (List UInt8) :=
  writeByte (nngRecv (List.replicate path.capacity 0) (path.capacity - 1) msg).1
    (path.nulIndex msg) 0

end OpenHes.Model
