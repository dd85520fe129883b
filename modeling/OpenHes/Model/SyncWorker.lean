import OpenHes.Model.TimeSync

/-!
# The schedule of the sync thread

`services/time/time_sync.c` again: what `time_sync_start` keeps of a whole configuration, the
servers that `refresh_time` asks, and the loop of `sync_worker` with its two deadlines. The
thread takes one step at each instant it is given, so what makes it wake up, and when, is open.
-/

set_option autoImplicit false

namespace OpenHes.Model

open OpenHes.Library

/-- `TIME_SYNC_DEFAULT_SERVERS`. -/
def timeSyncDefaultServers : CStr := lit "pool.ntp.org,time.google.com,time.cloudflare.com"
/-- `TIME_SYNC_DEFAULT_NTP_INTERVAL_S`. -/
def timeSyncDefaultNtpIntervalS : ℤ := 3600
/-- `TIME_SYNC_DEFAULT_TZ_INTERVAL_S`. -/
def timeSyncDefaultTzIntervalS : ℤ := 21600
/-- `TIME_SYNC_DEFAULT_TIMEOUT_MS`. -/
def timeSyncDefaultTimeoutMs : ℤ := 4000
/-- `MIN_NTP_INTERVAL_S`. -/
def minNtpIntervalS : ℤ := 60
/-- `MIN_TZ_INTERVAL_S`. -/
def minTzIntervalS : ℤ := 300
/-- `IDLE_WAIT_S`. -/
def idleWaitS : ℤ := 3600

/-- `time_sync_config_t`, whole. -/
structure TimeSyncSetup extends TimeSyncConfig where
  ntpServers : Option CStr := none
  ntpIntervalS : ℤ := 0
  ntpEnabled : Bool := false
  tzIntervalS : ℤ := 0
  timeoutMs : ℤ := 0

/-- The `cfg` of `struct time_sync`, as far as the schedule and the servers go. -/
structure WorkerConfig where
  servers : CStr
  ntpIntervalS : ℤ
  ntpEnabled : Bool
  tzEnabled : Bool
  tzIntervalS : ℤ
  timeoutMs : ℤ
  deriving DecidableEq

/-- The servers that a configuration names: its list, or the default one. -/
def configuredServers (cfg : TimeSyncSetup) : CStr :=
  if cfg.ntpServers.getD [] = [] then timeSyncDefaultServers else cfg.ntpServers.getD []

/-- What `time_sync_start` keeps for the sync thread. -/
def timeSyncStartWorker (cfg : TimeSyncSetup) : WorkerConfig where
  servers := hesStrlcpy 256 (configuredServers cfg)
  ntpIntervalS :=
    if minNtpIntervalS ≤ cfg.ntpIntervalS then cfg.ntpIntervalS else timeSyncDefaultNtpIntervalS
  ntpEnabled := cfg.ntpEnabled
  tzEnabled := cfg.tzEnabled
  tzIntervalS :=
    if minTzIntervalS ≤ cfg.tzIntervalS then cfg.tzIntervalS else timeSyncDefaultTzIntervalS
  timeoutMs := if 0 < cfg.timeoutMs then cfg.timeoutMs else timeSyncDefaultTimeoutMs

/-! ## refresh_time -/

/-- The fields that `next_csv` reads one after the other into a buffer of `cap` bytes; none when
the fuel has run out before the end of the list. -/
def csvFields (cap : ℕ) : ℕ → CStr → Option (List CStr)
  | 0, _ => none
  | fuel + 1, cursor =>
    match nextCsv cap cursor with
    | none => some []
    | some (field, rest) => (csvFields cap fuel rest).map fun fields => field :: fields

/-- The servers that `refresh_time` asks: it goes on to the next one until `sntp_query` has an
answer. The n-th call of `sntp_query` is told by its number. -/
def askedServers (query : ℕ → CStr → Option SntpResult) (calls : ℕ) : ℕ → CStr → Option (List CStr)
  | 0, _ => none
  | fuel + 1, cursor =>
    match nextCsv 128 cursor with
    | none => some []
    | some (server, rest) =>
      match query calls server with
      | some _ => some [server]
      | none => (askedServers query (calls + 1) fuel rest).map fun servers => server :: servers

/-! ## sync_worker -/

/-- `monotonic_ms`, from what `clock_gettime` gives. -/
def monotonicMs : Option Timespec → ℤ
  | none => 0
  | some ts => toInt64 (ts.tvSec * 1000 + ts.tvNsec.tdiv 1000000)

/-- Where the sync thread is: before a test of a deadline, before a refresh, in it, before the
lock at the end of a turn, or asleep. -/
inductive WorkerPhase
  | zoneTest
  | zoneCall
  | zoneRearm
  | timeTest
  | timeCall
  | timeRearm
  | lock
  | asleep
  | stopped
  deriving DecidableEq

/-- What the thread has done, and when: a call of `refresh_zone` or `refresh_time`, or a wait for
so many milliseconds. -/
inductive WorkerEvent
  | refreshZone (startedMs : ℤ)
  | refreshTime (startedMs : ℤ)
  | wait (deltaMs : ℤ)
  deriving DecidableEq

/-- The variables of `sync_worker`, where it is and what it has done. -/
structure Worker where
  cfg : WorkerConfig
  nextNtp : ℤ
  nextTz : ℤ
  phase : WorkerPhase := .zoneTest
  events : List WorkerEvent := []
  deriving DecidableEq

/-- An instant: the monotonic clock, and `stop`. -/
structure WorkerTick where
  clock : Option Timespec
  stop : Bool
  deriving DecidableEq

/-- The milliseconds of an instant. -/
def WorkerTick.nowMs (tick : WorkerTick) : ℤ := monotonicMs tick.clock

/-- The start of `sync_worker`. -/
def workerStart (cfg : TimeSyncSetup) : Worker where
  cfg := timeSyncStartWorker cfg
  nextNtp := if cfg.ntpEnabled then 0 else -1
  nextTz := 0

/-- The deadline that an interval gives, in seconds. -/
def deadlineAfter (nowMs intervalS : ℤ) : ℤ := toInt64 (nowMs + toInt64 (intervalS * 1000))

/-- `next`: the deadline that comes first. -/
def Worker.next (w : Worker) : ℤ :=
  let next := if 0 ≤ w.nextTz then w.nextTz else -1
  if 0 ≤ w.nextNtp && (next < 0 || w.nextNtp < next) then w.nextNtp else next

/-- The milliseconds that `wait_until` asks for. -/
def waitMs (deadlineMono nowMs : ℤ) : ℤ :=
  max 0 (if deadlineMono < 0 then idleWaitS * 1000 else toInt64 (deadlineMono - nowMs))

/-- What the thread does at an instant. -/
def workerStep (w : Worker) (tick : WorkerTick) : Worker :=
  match w.phase with
  | .zoneTest =>
    if 0 ≤ w.nextTz ∧ w.nextTz ≤ tick.nowMs then { w with phase := .zoneCall }
    else { w with phase := .timeTest }
  | .zoneCall =>
    { w with phase := .zoneRearm, events := w.events ++ [.refreshZone tick.nowMs] }
  | .zoneRearm =>
    { w with
      phase := .timeTest
      nextTz := if w.cfg.tzEnabled then deadlineAfter tick.nowMs w.cfg.tzIntervalS else -1 }
  | .timeTest =>
    if 0 ≤ w.nextNtp ∧ w.nextNtp ≤ tick.nowMs then { w with phase := .timeCall }
    else { w with phase := .lock }
  | .timeCall =>
    { w with phase := .timeRearm, events := w.events ++ [.refreshTime tick.nowMs] }
  | .timeRearm =>
    { w with phase := .lock, nextNtp := deadlineAfter tick.nowMs w.cfg.ntpIntervalS }
  | .lock =>
    if tick.stop then { w with phase := .stopped }
    else { w with phase := .asleep, events := w.events ++ [.wait (waitMs w.next tick.nowMs)] }
  | .asleep => if tick.stop then { w with phase := .stopped } else { w with phase := .zoneTest }
  | .stopped => w

/-- The instants of a run. -/
def workerRun (w : Worker) (ticks : List WorkerTick) : Worker := ticks.foldl workerStep w

end OpenHes.Model
