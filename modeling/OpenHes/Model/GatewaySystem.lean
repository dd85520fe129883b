import OpenHes.Model.Bus
import OpenHes.Model.Core
import OpenHes.Model.HanWifi

/-!
# The core module and the WiFi module

`core_main` and `han_wifi_main` beside each other, with the downstream channel of
`common/hes_bus.c` between them: what the core sends passes the subscriptions of the leaf and is
taken by it later, if it is not lost. What comes to the core, from whom ever, is a parameter of a
run, as are the lamps and the service.
-/

set_option autoImplicit false

namespace OpenHes.Model

open OpenHes.Library

/-- INTERNAL: a cleared struct has all its bytes. -/
theorem length_clearedBytes : (List.replicate hesMsgSize (0 : UInt8)).length = hesMsgSize :=
  List.length_replicate

/-- The struct of a message that was set to zero. -/
def MsgMemory.cleared : MsgMemory := ⟨List.replicate hesMsgSize 0, length_clearedBytes⟩

/-- The message that a leaf makes of a frame; it clears its struct in front of each receive. -/
def receivedMsg (frame : List UInt8) : HesClmeMsg := (hesBusRecv MsgMemory.cleared frame).message

/-- The two are one message, but for the time stamp. -/
def SameMessage (m n : HesClmeMsg) : Prop := unstamped m = unstamped n

instance (m n : HesClmeMsg) : Decidable (SameMessage m n) := inferInstanceAs (Decidable (_ = _))

/-- The frame is one that `hes_bus_send` hands over for the message: the bytes of its struct, with a
time of sending. What stands behind the end of a string, or between the fields, is left open. -/
def SentAs (m : HesClmeMsg) (frame : List UInt8) : Prop :=
  frame.length = hesMsgSize ∧ SameMessage (receivedMsg frame) m

instance (m : HesClmeMsg) (frame : List UInt8) : Decidable (SentAs m frame) :=
  inferInstanceAs (Decidable (_ ∧ _))

/-- The two modules, and the frames that the leaf may still take. -/
structure GatewaySystem (V α : Type) where
  core : CoreState V α
  wire : List (List UInt8)
  wifi : WifiState

/-- What happens: the core makes a turn and hands its messages over as frames; a frame is lost; or
the WiFi module makes a pass, in which it takes the next frame or none. -/
inductive SystemStep
  | core (turn : CoreTurn) (frames : List (List UInt8))
  | lose (k : ℕ)
  | wifi (receives notified : Bool) (now : ℤ)

/-- The subscriptions of the module, which it makes at its start. -/
def wifiTopics (start : WifiState) : List CStr :=
  hesBusLeafOpen (hesDevregCollectTopics start.sys.reg hesBusMaxTopics)

section Steps

variable {V α : Type} [CDouble V] (host : CoreHost V α) (bm : BindingMap V) (depth : ℕ)
  (topics : List CStr) (lamp : ℕ → Option CStr) (exchange : ℕ → Exchange)

/-- One step; none where the frames are not those of the messages, or a pass is undefined. -/
def systemStep (s : GatewaySystem V α) : SystemStep → Option (GatewaySystem V α)
  | .core turn frames =>
    let core := (coreTurn host bm depth turn s.core).state
    let sent := (core.trace.drop s.core.trace.length).flatMap sends
    if List.Forall₂ SentAs sent frames then
      some { s with core := core, wire := s.wire ++ frames.filter (leafReceives topics) }
    else none
  | .lose k => some { s with wire := s.wire.eraseIdx k }
  | .wifi receives notified now =>
    let frame := if receives then s.wire.head? else none
    (wifiTurn lamp exchange s.wifi ⟨frame.map receivedMsg, notified, now⟩).map fun wifi =>
      { s with wifi := wifi, wire := if receives then s.wire.tail else s.wire }

/-- The steps of a run. -/
def systemRun (s : GatewaySystem V α) (steps : List SystemStep) : Option (GatewaySystem V α) :=
  steps.foldlM (systemStep host bm depth topics lamp exchange) s

end Steps

end OpenHes.Model
