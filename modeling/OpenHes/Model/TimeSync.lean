import OpenHes.Library.Json
import OpenHes.Model.Clock
import OpenHes.Model.Message
import Mathlib.Data.List.DropRight

/-!
# The sync thread of the time service

`services/time/geo_tz.c` and `services/time/time_sync.c`: what a provider and the host name as
the zone, the offsets of a zone in the host's database, and the snapshot that the sync thread
keeps for the service objects. A refresh of the zone is taken in the steps between which another
thread may read the snapshot. The answers of the network, the host and the database are
parameters.
-/

set_option autoImplicit false

namespace OpenHes.Model

open OpenHes.Library

/-- `GEO_TZ_NAME_MAX`. -/
def geoTzNameMax : ℕ := 64
/-- `GEO_TZ_DEFAULT_KEY`. -/
def geoTzDefaultKey : CStr := lit "timezone"
/-- `GEO_TZ_DEFAULT_URLS`. -/
def geoTzDefaultUrls : CStr := lit "https://ipapi.co/json/,https://worldtimeapi.org/api/ip"

/-- `time_snapshot_t`, all zeros as `memset` gives it. -/
structure TimeSnapshot where
  ntpValid : ℤ := 0
  offsetNs : ℤ := 0
  delayMs : ℤ := 0
  stratum : ℤ := 0
  lastSync : ℤ := 0
  tzValid : ℤ := 0
  tzName : CStr := []
  stdOffsetMin : ℤ := 0
  dstOffsetMin : ℤ := 0
  reachable : ℤ := 0
  deriving DecidableEq

/-! ## geo_tz.c -/

/-- A letter, a digit, or one of `/_-+`. -/
def zoneNameChar (c : UInt8) : Bool :=
  (65 ≤ c && c ≤ 90) || (97 ≤ c && c ≤ 122) || (48 ≤ c && c ≤ 57) || c = 47 || c = 95 || c = 45 ||
    c = 43

/-- `zone_name_is_sane`. -/
def zoneNameIsSane (name : CStr) : Bool :=
  name ≠ [] && name.length < geoTzNameMax && name.all zoneNameChar &&
    name.head? ≠ some 47 && name.getLast? ≠ some 47 && (strstr (lit "//") name).isNone

/-- `adopt_zone_name` into a buffer of `bufSize` bytes. -/
def adoptZoneName (src : CStr) (bufSize : ℕ) : Option CStr :=
  if !zoneNameIsSane src then none
  else if bufSize ≤ src.length then none
  else some (boundedCopy bufSize src)

/-- `zone_from_path`. -/
def zoneFromPath (path : CStr) (bufSize : ℕ) : Option CStr :=
  match strstr (lit "zoneinfo/") path with
  | some marker => adoptZoneName (marker.drop 9) bufSize
  | none => adoptZoneName path bufSize

/-- A member of a nested object. -/
def nestedMember (root : Json) (container want : CStr) : Option Json :=
  (root.get container).bind fun inner => if inner.isObject then inner.get want else none

/-- `geo_tz_parse_json`, from the parsed document, with the default key. -/
def geoTzParseJson (root : Json) (cap : ℕ) : Option CStr :=
  let value := (root.get geoTzDefaultKey).or
    ((nestedMember root (lit "data") geoTzDefaultKey).or
      (nestedMember root (lit "location") geoTzDefaultKey))
  match value with
  | some (.string zone) => adoptZoneName zone cap
  | _ => none

/-- `geo_tz_detect`, with the document of the answer, if there was one. -/
def geoTzDetect (answer : Option Json) (cap : ℕ) : Option CStr :=
  answer.bind fun root => geoTzParseJson root cap

/-- The zone of the TZ variable; a leading ':' is passed over. -/
def zoneOfTz (tz : CStr) (cap : ℕ) : Option CStr :=
  let tz := if tz.head? = some 58 then tz.drop 1 else tz
  if tz = [] then none else zoneFromPath tz cap

/-- `geo_tz_system_name`, with the TZ variable and the target of /etc/localtime. -/
def geoTzSystemName (tz localtime : Option CStr) (cap : ℕ) : Option CStr :=
  (tz.bind fun tz => zoneOfTz tz cap).or
    (localtime.bind fun link => if link = [] then none else zoneFromPath (link.take 511) cap)

/-- What `localtime_r` tells of an instant: seconds east of UTC, and daylight saving. -/
structure TzSample where
  gmtoff : ℤ
  isdst : ℤ
  deriving DecidableEq

/-- What the host's database answers for a zone: whether it has its file, and the samples of the
first of January and of July. -/
structure TzProbe where
  readable : Bool
  january : Option TzSample
  july : Option TzSample
  deriving DecidableEq

/-- The pair of Table 52 from the two samples. -/
def offsetsOfSamples (jan jul : TzSample) : ℤ × ℤ :=
  let janOff := toInt32 (jan.gmtoff.tdiv 60)
  let julOff := toInt32 (jul.gmtoff.tdiv 60)
  if 0 < jan.isdst && !(0 < jul.isdst) then (julOff, toInt32 (janOff - julOff))
  else if 0 < jul.isdst && !(0 < jan.isdst) then (janOff, toInt32 (julOff - janOff))
  else if !(0 < jan.isdst) && !(0 < jul.isdst) then (janOff, 0)
  else (janOff, toInt32 (julOff - janOff))

/-- `geo_tz_offsets`; the path of the name always fits its buffer. -/
def geoTzOffsets (probe : TzProbe) (name : CStr) : Option (ℤ × ℤ) :=
  if !zoneNameIsSane name then none
  else if !probe.readable then none
  else
    match probe.january, probe.july with
    | some jan, some jul => some (offsetsOfSamples jan jul)
    | _, _ => none

/-! ## time_sync.c -/

/-- `time_sync_config_t`, as far as the zone goes. -/
structure TimeSyncConfig where
  tzName : Option CStr := none
  tzUrls : Option CStr := none
  tzEnabled : Bool := false

/-- Where the name of a zone comes from. -/
inductive ZoneSource
  | operator
  | provider
  | host
  deriving DecidableEq

/-- A call of `geo_tz_offsets` that returned 0: the name, where it came from, and the pair. -/
structure ZoneCall where
  source : ZoneSource
  name : CStr
  stdMin : ℤ
  dstMin : ℤ
  deriving DecidableEq

/-- Where `refresh_zone` is: not called, with the name that a provider answered, without a name,
without a name where none is known yet, with a name, and with its offsets. -/
inductive ZonePhase
  | idle
  | answered (name : CStr)
  | unnamed
  | unknown
  | named (source : ZoneSource) (name : CStr)
  | resolved (call : ZoneCall)

/-- `struct time_sync`, where the sync thread is in `refresh_zone`, the calls of
`geo_tz_offsets` that returned 0, and those whose result has become the snapshot's zone. -/
structure TimeSync where
  forcedTz : CStr
  tzUrls : CStr
  tzEnabled : Bool
  snap : TimeSnapshot := {}
  phase : ZonePhase := .idle
  calls : List ZoneCall := []
  adopted : List ZoneCall := []

/-- `time_sync_start`. -/
def timeSyncStart (cfg : TimeSyncConfig) : TimeSync where
  forcedTz := hesStrlcpy geoTzNameMax (cfg.tzName.getD [])
  tzUrls := hesStrlcpy 256 (if cfg.tzUrls.getD [] = [] then geoTzDefaultUrls else cfg.tzUrls.getD [])
  tzEnabled := cfg.tzEnabled

/-- `time_sync_get`. -/
def timeSyncGet : Option TimeSync → TimeSnapshot
  | none => {}
  | some ts => ts.snap

/-- `next_csv` into a buffer of `cap` bytes: the field, and what is left of the list. -/
def nextCsv (cap : ℕ) (cursor : CStr) : Option (CStr × CStr) :=
  let p := cursor.dropWhile fun c => c = 32 || c = 44
  if p = [] then none
  else
    let field := p.takeWhile fun c => c ≠ 44
    let out := (field.take (cap - 1)).rdropWhile fun c => c = 32 || c = 9
    if out = [] then none else some (out, p.drop (field.length + 1))

/-- The loop of `refresh_zone` over the providers: the first name that one of them answers. Each
turn takes at least one byte off the list. -/
def detectZone (answer : CStr → Option Json) : ℕ → CStr → Option CStr
  | 0, _ => none
  | fuel + 1, cursor =>
    match nextCsv 192 cursor with
    | none => none
    | some (url, rest) =>
      match geoTzDetect (answer url) geoTzNameMax with
      | some name => some name
      | none => detectZone answer fuel rest

/-- What the sync thread does next: `refresh_zone` up to its first critical section, with what
each provider answers; its critical sections and what is between them; and `refresh_time`, with
the result of the server that answered. -/
inductive SyncStep
  | refreshZone (answer : CStr → Option Json)
  | markReachable
  | checkKnown
  | askHost (tz localtime : Option CStr)
  | lookUp (probe : TzProbe)
  | store
  | refreshTime (r : SntpResult) (now : ℤ)

/-- The start of `refresh_zone`. -/
def beginRefresh (ts : TimeSync) (answer : CStr → Option Json) : ZonePhase :=
  if ts.forcedTz ≠ [] then .named .operator (hesStrlcpy geoTzNameMax ts.forcedTz)
  else if ts.tzEnabled then
    match detectZone answer (ts.tzUrls.length + 1) ts.tzUrls with
    | some name => .answered name
    | none => .unnamed
  else .unnamed

/-- The last critical section of `refresh_zone`. -/
def storeZone (snap : TimeSnapshot) (call : ZoneCall) : TimeSnapshot :=
  { snap with
    tzValid := 1
    tzName := hesStrlcpy geoTzNameMax call.name
    stdOffsetMin := call.stdMin
    dstOffsetMin := call.dstMin }

/-- One step of the sync thread; a step that is not the next one does nothing. -/
def syncStep (ts : TimeSync) : SyncStep → TimeSync
  | .refreshZone answer =>
    match ts.phase with
    | .idle => { ts with phase := beginRefresh ts answer }
    | _ => ts
  | .markReachable =>
    match ts.phase with
    | .answered name =>
      { ts with snap := { ts.snap with reachable := 1 }, phase := .named .provider name }
    | _ => ts
  | .checkKnown =>
    match ts.phase with
    | .unnamed => { ts with phase := if ts.snap.tzValid ≠ 0 then .idle else .unknown }
    | _ => ts
  | .askHost tz localtime =>
    match ts.phase with
    | .unknown =>
      match geoTzSystemName tz localtime geoTzNameMax with
      | some name => { ts with phase := .named .host name }
      | none => { ts with phase := .idle }
    | _ => ts
  | .lookUp probe =>
    match ts.phase with
    | .named source name =>
      match geoTzOffsets probe name with
      | some (stdMin, dstMin) =>
        let call : ZoneCall := ⟨source, name, stdMin, dstMin⟩
        { ts with phase := .resolved call, calls := ts.calls ++ [call] }
      | none => { ts with phase := .idle }
    | _ => ts
  | .store =>
    match ts.phase with
    | .resolved call =>
      { ts with
        snap := storeZone ts.snap call
        phase := .idle
        adopted := ts.adopted ++ [call] }
    | _ => ts
  | .refreshTime r now =>
    match ts.phase with
    | .idle =>
      { ts with
        snap := { ts.snap with
          ntpValid := 1
          offsetNs := r.offsetNs
          delayMs := r.delayMs
          stratum := r.stratum
          lastSync := now
          reachable := 1 } }
    | _ => ts

/-- The steps of a run. -/
def syncRun (ts : TimeSync) (steps : List SyncStep) : TimeSync := steps.foldl syncStep ts

end OpenHes.Model
