import OpenHes.Library.Decimal
import OpenHes.Library.JsonText
import OpenHes.Model.DeviceRegistry

/-!
# The client of a WiZ bulb

`han/wifi/wiz_client.c`: one exchange of `wiz_send_recv` in the steps between which datagrams may
come in, and what `wiz_client_get_brightness` makes of a reply, with its conversions and sums
checked against `int`.
-/

set_option autoImplicit false

namespace OpenHes.Model

open OpenHes.Library

/-- `MAX_PACKET_BUF_SIZE`. -/
def maxPacketBufSize : ℕ := 512
/-- `WIZ_MAX_IGNORED_REPLIES`. -/
def wizMaxIgnoredReplies : ℕ := 4
/-- `WIZ_SEND_ATTEMPTS`. -/
def wizSendAttempts : ℕ := 2

/-! ## wiz_send_recv -/

/-- `reply_is_answer`. -/
def replyIsAnswer (resp method : CStr) : Bool :=
  match Json.loads resp with
  | none => true
  | some root =>
    match root.getString (lit "method") with
    | none => true
    | some m => m = method

/-- A datagram, and whether it has come in after the first send of the exchange. -/
structure Datagram where
  bytes : List UInt8
  fresh : Bool
  deriving DecidableEq

/-- Where `wiz_send_recv` is: in `drop_stale`, before the send or in the receive loop of an
attempt, or back with -1 or with 0 and the text of a datagram. -/
inductive WizPhase
  | draining
  | sending (attempt : ℕ)
  | receiving (attempt : ℕ)
  | failed
  | answered (d : Datagram)
  deriving DecidableEq

/-- A call of `wiz_send_recv`, and the receive queue of its socket; `sends` counts the requests
that went out. -/
structure WizCall where
  method : CStr
  respSz : ℕ
  queue : List Datagram
  phase : WizPhase
  sends : ℕ := 0
  dropped : ℕ := 0
  ignored : ℕ := 0
  deriving DecidableEq

/-- What happens during a call: a datagram comes in, or the call takes its next step, in which its
system call may fail. A receive that finds no datagram is one that has waited in vain. -/
inductive WizEvent
  | arrive (bytes : List UInt8)
  | proceed (fails : Bool)
  deriving DecidableEq

/-- The start of a call, on a socket with some datagrams; `inet_pton` takes the address or not. -/
def wizSendRecv (method : CStr) (respSz : ℕ) (queued : List (List UInt8)) (goodIp : Bool) : WizCall where
  method := method
  respSz := respSz
  queue := queued.map fun bytes => ⟨bytes, false⟩
  phase := if goodIp then .draining else .failed

/-- The text that a receive leaves in `resp`. -/
def respText (respSz : ℕ) (d : Datagram) : CStr := cString (d.bytes.take (respSz - 1))

/-- A turn of `drop_stale`: it goes on while a receive returns more than 0. -/
def dropStale (s : WizCall) (fails : Bool) : WizCall :=
  if fails then { s with phase := .sending 1 }
  else
    match s.queue with
    | [] => { s with phase := .sending 1 }
    | d :: rest =>
      if 0 < (d.bytes.take maxPacketBufSize).length then
        { s with queue := rest, dropped := s.dropped + 1 }
      else { s with queue := rest, phase := .sending 1 }

/-- The send of an attempt. -/
def sendRequest (s : WizCall) (attempt : ℕ) (fails : Bool) : WizCall :=
  if fails then { s with phase := .failed }
  else { s with phase := .receiving attempt, sends := s.sends + 1 }

/-- A turn of the receive loop of an attempt. -/
def receiveReply (s : WizCall) (attempt : ℕ) (fails : Bool) : WizCall :=
  if fails then { s with phase := .failed }
  else
    match s.queue with
    | [] => { s with phase := if attempt < wizSendAttempts then .sending (attempt + 1) else .failed }
    | d :: rest =>
      if replyIsAnswer (respText s.respSz d) s.method then
        { s with queue := rest, phase := .answered d }
      else
        { s with
          queue := rest
          ignored := s.ignored + 1
          phase := if wizMaxIgnoredReplies < s.ignored + 1 then .failed else s.phase }

/-- One event. -/
def WizCall.step (s : WizCall) : WizEvent → WizCall
  | .arrive bytes => { s with queue := s.queue ++ [⟨bytes, 0 < s.sends⟩] }
  | .proceed fails =>
    match s.phase with
    | .draining => dropStale s fails
    | .sending attempt => sendRequest s attempt fails
    | .receiving attempt => receiveReply s attempt fails
    | .failed => s
    | .answered _ => s

/-- The events of a run. -/
def WizCall.run (s : WizCall) (events : List WizEvent) : WizCall := events.foldl WizCall.step s

/-! ## wiz_client_get_brightness -/

/-- `reply_field`. -/
def replyField (root : Json) (key : CStr) : Option Json :=
  (((root.get (lit "result")).filter Json.isObject).bind fun result => result.get key).or
    (root.get key)

/-- `json_number_value` of a member that is a number. -/
def numberValue : Json → Option Binary64
  | .integer n => some (Binary64.ofInt n)
  | .real x => some x
  | _ => none

/-- `clamp100`. -/
def clamp100 (v : ℤ) : ℤ := if v < 0 then 0 else if 100 < v then 100 else v

/-- A result of `int` arithmetic. -/
def intArith (n : ℤ) : Option ℤ := if FitsInt32 n then some n else none

/-- A peak in percent of 255, rounded to the nearest. -/
def percentOfPeak (peak : ℤ) : Option ℤ := do
  let scaled ← intArith (peak * 100)
  let rounded ← intArith (scaled + 127)
  some (rounded.tdiv 255)

/-- The fallback of `wiz_client_get_brightness`: the peak of the channels. -/
def peakLevel (r g b : Binary64) : Option ℤ := do
  let peak ← Binary64.toInt r
  let gv ← Binary64.toInt g
  let bv ← Binary64.toInt b
  let peak := if peak < gv then gv else peak
  let peak := if peak < bv then bv else peak
  percentOfPeak peak

/-- What `wiz_client_get_brightness` makes of a parsed reply: undefined, or -1 (none), or 0 and
the level. -/
def brightnessOfReply (root : Json) : Option (Option ℤ) :=
  match (replyField root (lit "dimming")).bind numberValue with
  | some dimming => (Binary64.toInt dimming).map fun v => some (clamp100 v)
  | none =>
    match (replyField root (lit "r")).bind numberValue, (replyField root (lit "g")).bind numberValue,
        (replyField root (lit "b")).bind numberValue with
    | some r, some g, some b => (peakLevel r g b).map some
    | _, _, _ => some none

/-- `wiz_client_get_brightness`, from the text of the reply, if there was one. -/
def wizClientGetBrightness (reply : Option CStr) : Option (Option ℤ) :=
  match reply.bind Json.loads with
  | none => some none
  | some root => brightnessOfReply root

/-! ## The calls of the client -/

/-- `clamp255`. -/
def clamp255 (v : ℤ) : ℤ := if v < 0 then 0 else if 255 < v then 255 else v

/-- The request of `wiz_client_set_state`. -/
def setStateRequest (on : Bool) : CStr :=
  boundedCopy maxPacketBufSize
    (lit "\x7b\"method\":\"setPilot\",\"params\":\x7b\"state\":" ++
      lit (if on then "true" else "false") ++ lit "\x7d\x7d")

/-- The request of the calls that read. -/
def getPilotRequest : CStr := lit "\x7b\"method\":\"getPilot\",\"params\":\x7b\x7d\x7d"

/-- The request of `wiz_client_set_rgb`. -/
def setRgbRequest (r g b : ℤ) : CStr :=
  boundedCopy maxPacketBufSize
    (lit "\x7b\"method\":\"setPilot\",\"params\":\x7b\"r\":" ++ fmtD (clamp255 r) ++
      lit ",\"g\":" ++ fmtD (clamp255 g) ++ lit ",\"b\":" ++ fmtD (clamp255 b) ++
      lit "\x7d\x7d")

/-- The level that `wiz_client_set_brightness` sends. -/
def dimmingLevel (level : ℤ) : ℤ :=
  let level := if level < 10 then 10 else level
  if 100 < level then 100 else level

/-- The request of `wiz_client_set_brightness`. -/
def setBrightnessRequest (level : ℤ) : CStr :=
  boundedCopy maxPacketBufSize
    (lit "\x7b\"method\":\"setPilot\",\"params\":\x7b\"dimming\":" ++
      fmtD (dimmingLevel level) ++ lit "\x7d\x7d")

/-- A call of the client, with its arguments. -/
inductive WizRequest
  | getPilot
  | setState (on : Bool)
  | setRgb (r g b : ℤ)
  | setBrightness (level : ℤ)
  deriving DecidableEq

/-- The method that is handed to `wiz_send_recv`. -/
def WizRequest.method : WizRequest → CStr
  | .getPilot => lit "getPilot"
  | .setState _ | .setRgb _ _ _ | .setBrightness _ => lit "setPilot"

/-- The text that is handed to `wiz_send_recv`. -/
def WizRequest.text : WizRequest → CStr
  | .getPilot => getPilotRequest
  | .setState on => setStateRequest on
  | .setRgb r g b => setRgbRequest r g b
  | .setBrightness level => setBrightnessRequest level

/-- `wiz_client_get_state`, from the text of the reply, if there was one. -/
def wizClientGetState (reply : Option CStr) : Option Bool :=
  match (reply.bind Json.loads).bind fun root => replyField root (lit "state") with
  | some (.bool on) => some on
  | _ => none

end OpenHes.Model
