import OpenHes.Model.Dispatch
import OpenHes.Model.TimeSync

/-!
# The time service

`services/time/time.c`: the texts that its three objects answer with, and the tick that reports
the clock on a cadence and the zone and the source when they change. A payload that reports the
zone or the source is built of a snapshot of its own, taken after the tick has decided.
-/

set_option autoImplicit false

namespace OpenHes.Model

open OpenHes.Library

/-- `HES_LX_TIME_REALTIME_CV`. -/
def hesLxTimeRealtimeCv : CStr := lit "/lx/ob/so/ti/rt/st/cv"
/-- `HES_LX_TIME_LOCALTZ_CV`. -/
def hesLxTimeLocaltzCv : CStr := lit "/lx/ob/so/ti/tz/st/cv"
/-- `HES_LX_TIME_SOURCE_CV`. -/
def hesLxTimeSourceCv : CStr := lit "/lx/ob/so/ti/st/mp/cv"
/-- `REALTIME_MAX_SECONDS`. -/
def realtimeMaxSeconds : ℤ := 4294967295
/-- `REALTIME_EVENT_PERIOD_S`. -/
def realtimeEventPeriodS : ℤ := 5

/-- `time_state_t`, all zeros as `calloc` gives it, without the provider. -/
structure TimeState where
  lastEvent : ℤ := 0
  haveTz : Bool := false
  tzName : CStr := []
  tzStd : ℤ := 0
  tzDst : ℤ := 0
  haveSource : Bool := false
  sourceIsNtp : ℤ := 0
  deriving DecidableEq

/-! ## The payloads -/

/-- `build_realtime_payload`, with what `hes_clock_now` gives. -/
def buildRealtimePayload (clockNow : ℤ) : CStr :=
  let now := if clockNow < 0 then 0 else clockNow
  let now := if realtimeMaxSeconds < now then realtimeMaxSeconds else now
  boundedCopy hesPayloadMax
    (lit "vr=1.0.0;dt=ss;sz=10;ne=1;nr=0;um=se;sc=0;mp=me;ar=100;" ++
      lit "pr=100;rq=op;pt=tm;ac=in;cd=no;cp=0;df=0;mn=0;mx=4294967295;vl=0;rl=0;va=" ++ fmtD now)

/-- The pair of Table 52: "0,0" until the zone is known. -/
def localtzValue (snap : TimeSnapshot) : CStr :=
  fmtD (if snap.tzValid ≠ 0 then snap.stdOffsetMin else 0) ++ lit "," ++
    fmtD (if snap.tzValid ≠ 0 then snap.dstOffsetMin else 0)

/-- `build_localtz_payload`. -/
def buildLocaltzPayload (snap : TimeSnapshot) : CStr :=
  boundedCopy hesPayloadMax
    (lit "dt=ai,ai;sz=12;ne=2;nr=0;um=mi,mi;sc=0;mp=pr;ar=100;pr=100;rq=op;" ++
      lit "pt=tm;ac=in;cd=no;cp=0;df=0,0;mn=-1440,-1440;mx=1440,1440;vl=0;rl=0;va=" ++
        localtzValue snap)

/-- `time_sync_source_code`. -/
def timeSyncSourceCode (snap : TimeSnapshot) : CStr :=
  if snap.ntpValid ≠ 0 then lit "nt" else lit "lx"

/-- `build_source_payload`. -/
def buildSourcePayload (snap : TimeSnapshot) : CStr :=
  boundedCopy hesPayloadMax
    (lit "dt=sl;sz=2;ne=1;nr=0;sc=0;mp=pr;ar=100;pr=100;rq=op;pt=tm;ac=in;" ++
      lit "cd=no;cp=0;df=lx;vl=0;rl=0;va=" ++ timeSyncSourceCode snap)

/-! ## The tick -/

/-- What a tick meets: the host's clock and the corrected one, the snapshot that it decides on,
and the ones that the payloads of the zone and of the source are built of, should it build
them. -/
structure RealtimeTick where
  now : ℤ
  clockNow : ℤ
  decided : TimeSnapshot
  zone : TimeSnapshot
  source : TimeSnapshot

/-- Does the tick report the clock? -/
def realtimeDue (st : TimeState) (now : ℤ) : Bool :=
  st.lastEvent = 0 || realtimeEventPeriodS ≤ now - st.lastEvent

/-- Does the tick report the zone? -/
def localtzDue (st : TimeState) (snap : TimeSnapshot) : Bool :=
  snap.tzValid ≠ 0 && (!st.haveTz || st.tzName ≠ snap.tzName || st.tzStd ≠ snap.stdOffsetMin ||
    st.tzDst ≠ snap.dstOffsetMin)

/-- Does the tick report the source? -/
def sourceDue (st : TimeState) (snap : TimeSnapshot) : Bool :=
  !st.haveSource || st.sourceIsNtp ≠ snap.ntpValid

/-- The part of `realtime_tick` about the clock. -/
def tickRealtime (st : TimeState) (t : RealtimeTick) : TimeState × List HesClmeMsg :=
  if realtimeDue st t.now then
    ({ st with lastEvent := t.now },
      [publishEvent hesLxTimeRealtimeCv (buildRealtimePayload t.clockNow)])
  else (st, [])

/-- The part about the zone. -/
def tickLocaltz (st : TimeState) (t : RealtimeTick) : TimeState × List HesClmeMsg :=
  if localtzDue st t.decided then
    ({ st with
        haveTz := true
        tzName := hesStrlcpy geoTzNameMax t.decided.tzName
        tzStd := t.decided.stdOffsetMin
        tzDst := t.decided.dstOffsetMin },
      [publishEvent hesLxTimeLocaltzCv (buildLocaltzPayload t.zone)])
  else (st, [])

/-- The part about the source. -/
def tickSource (st : TimeState) (t : RealtimeTick) : TimeState × List HesClmeMsg :=
  if sourceDue st t.decided then
    ({ st with haveSource := true, sourceIsNtp := t.decided.ntpValid },
      [publishEvent hesLxTimeSourceCv (buildSourcePayload t.source)])
  else (st, [])

/-- `realtime_tick`: the state after it, and what it publishes. -/
def realtimeTick (st : TimeState) (t : RealtimeTick) : TimeState × List HesClmeMsg :=
  let (st, clock) := tickRealtime st t
  let (st, zone) := tickLocaltz st t
  let (st, source) := tickSource st t
  (st, clock ++ zone ++ source)

/-- The ticks of a run, with what was published before. -/
def realtimeRun (st : TimeState) (published : List HesClmeMsg) :
    List RealtimeTick → TimeState × List HesClmeMsg
  | [] => (st, published)
  | t :: rest =>
    realtimeRun (realtimeTick st t).1 (published ++ (realtimeTick st t).2) rest

end OpenHes.Model
