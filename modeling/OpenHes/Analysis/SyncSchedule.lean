import OpenHes.Library.PeriodicTimer
import OpenHes.Library.Trace
import OpenHes.Model.SyncWorker

/-!
# The schedule of the sync thread

The two deadlines of `sync_worker` are two periodic timers that its steps test, start and set
anew. Whatever wakes the thread, the calls of `refresh_time` start at least a minute apart and
those of `refresh_zone` at least five, on a clock that does not go back.
-/

set_option autoImplicit false

namespace OpenHes.Analysis

open OpenHes.Library OpenHes.Model

/-! ## The two timers -/

/-- When `refresh_zone` was started, if that is what an event is. -/
def zoneStart : WorkerEvent → Option ℤ
  | .refreshZone startedMs => some startedMs
  | _ => none

/-- When `refresh_time` was started, if that is what an event is. -/
def timeStart : WorkerEvent → Option ℤ
  | .refreshTime startedMs => some startedMs
  | _ => none

/-- When `refresh_zone` was started. -/
def zoneStarts (events : List WorkerEvent) : List ℤ := events.filterMap zoneStart

/-- When `refresh_time` was started. -/
def timeStarts (events : List WorkerEvent) : List ℤ := events.filterMap timeStart

/-- The timer of `refresh_zone`. -/
def zoneTimer (w : Worker) : PeriodicTimer where
  deadline := w.nextTz
  phase :=
    match w.phase with
    | .zoneCall => .due
    | .zoneRearm => .running
    | _ => .waiting
  starts := zoneStarts w.events

/-- The timer of `refresh_time`. -/
def timeTimer (w : Worker) : PeriodicTimer where
  deadline := w.nextNtp
  phase :=
    match w.phase with
    | .timeCall => .due
    | .timeRearm => .running
    | _ => .waiting
  starts := timeStarts w.events

/-- What a step does with the timer of `refresh_zone`. -/
def zoneTimerStep (w : Worker) (nowMs : ℤ) : TimerStep :=
  match w.phase with
  | .zoneTest => .test
  | .zoneCall => .start
  | .zoneRearm => .rearm (if w.cfg.tzEnabled then deadlineAfter nowMs w.cfg.tzIntervalS else -1)
  | _ => .idle

/-- What a step does with the timer of `refresh_time`. -/
def timeTimerStep (w : Worker) (nowMs : ℤ) : TimerStep :=
  match w.phase with
  | .timeTest => .test
  | .timeCall => .start
  | .timeRearm => .rearm (deadlineAfter nowMs w.cfg.ntpIntervalS)
  | _ => .idle

section Events

variable (events : List WorkerEvent) (ms : ℤ)

/-- INTERNAL: a refresh of the zone is a start of it. -/
@[simp] theorem zoneStarts_refreshZone :
    zoneStarts (events ++ [.refreshZone ms]) = zoneStarts events ++ [ms] := List.filterMap_append

/-- INTERNAL: a refresh of the time is none. -/
@[simp] theorem zoneStarts_refreshTime :
    zoneStarts (events ++ [.refreshTime ms]) = zoneStarts events :=
  List.filterMap_append.trans (List.append_nil _)

/-- INTERNAL: neither is a wait. -/
@[simp] theorem zoneStarts_wait : zoneStarts (events ++ [.wait ms]) = zoneStarts events :=
  List.filterMap_append.trans (List.append_nil _)

/-- INTERNAL: a refresh of the time is a start of it. -/
@[simp] theorem timeStarts_refreshTime :
    timeStarts (events ++ [.refreshTime ms]) = timeStarts events ++ [ms] := List.filterMap_append

/-- INTERNAL: a refresh of the zone is none. -/
@[simp] theorem timeStarts_refreshZone :
    timeStarts (events ++ [.refreshZone ms]) = timeStarts events :=
  List.filterMap_append.trans (List.append_nil _)

/-- INTERNAL: neither is a wait. -/
@[simp] theorem timeStarts_wait : timeStarts (events ++ [.wait ms]) = timeStarts events :=
  List.filterMap_append.trans (List.append_nil _)

end Events

/-- INTERNAL: **a step of the thread** is a step of each of the two timers. -/
theorem timers_workerStep (w : Worker) (tick : WorkerTick) :
    zoneTimer (workerStep w tick) = (zoneTimer w).step tick.nowMs (zoneTimerStep w tick.nowMs) ∧
      timeTimer (workerStep w tick) =
        (timeTimer w).step tick.nowMs (timeTimerStep w tick.nowMs) := by
  rcases w with ⟨cfg, nextNtp, nextTz, phase, events⟩
  unfold zoneTimer timeTimer zoneTimerStep timeTimerStep PeriodicTimer.step
  cases phase with
  | zoneTest =>
    by_cases hdue : 0 ≤ nextTz ∧ nextTz ≤ tick.nowMs <;> simp [workerStep, hdue]
  | timeTest =>
    by_cases hdue : 0 ≤ nextNtp ∧ nextNtp ≤ tick.nowMs <;> simp [workerStep, hdue]
  | lock => cases hstop : tick.stop <;> simp [workerStep, hstop]
  | asleep => cases hstop : tick.stop <;> simp [workerStep, hstop]
  | _ => simp [workerStep]

/-- INTERNAL: the worker does not change its configuration. -/
theorem cfg_workerStep (w : Worker) (tick : WorkerTick) : (workerStep w tick).cfg = w.cfg := by
  rcases w with ⟨cfg, nextNtp, nextTz, phase, events⟩
  cases phase <;> simp only [workerStep] <;> split <;> rfl

/-! ## The invariant -/

/-- The intervals of a worker: no shorter than the minimums, and their milliseconds fit. -/
structure IntervalsKept (cfg : WorkerConfig) : Prop where
  ntp : minNtpIntervalS ≤ cfg.ntpIntervalS ∧ FitsInt64 (cfg.ntpIntervalS * 1000)
  tz : minTzIntervalS ≤ cfg.tzIntervalS ∧ FitsInt64 (cfg.tzIntervalS * 1000)

/-- INTERNAL: `time_sync_start` keeps the minimums, whatever the configuration says. -/
theorem intervalsKept_start (cfg : TimeSyncSetup) (hntp : FitsInt64 (cfg.ntpIntervalS * 1000))
    (htz : FitsInt64 (cfg.tzIntervalS * 1000)) : IntervalsKept (timeSyncStartWorker cfg) := by
  unfold timeSyncStartWorker
  constructor
  · by_cases hmin : minNtpIntervalS ≤ cfg.ntpIntervalS
    · simp only [if_pos hmin]
      exact ⟨hmin, hntp⟩
    · simp only [if_neg hmin]
      decide
  · by_cases hmin : minTzIntervalS ≤ cfg.tzIntervalS
    · simp only [if_pos hmin]
      exact ⟨hmin, htz⟩
    · simp only [if_neg hmin]
      decide

/-- INTERNAL: a reading in milliseconds fits 64 bits. -/
theorem monotonicMs_fits (clock : Option Timespec) : FitsInt64 (monotonicMs clock) := by
  cases clock with
  | none => decide
  | some ts => exact toInt64_fits _

/-- INTERNAL: **a new deadline** lies an interval ahead, or the sum has fallen below zero and
means never. -/
theorem deadlineAfter_keepsGap (nowMs minS intervalS : ℤ) (hnow : 0 ≤ nowMs)
    (hnowFits : FitsInt64 nowMs) (hmin : 0 ≤ minS) (hinterval : minS ≤ intervalS)
    (hfits : FitsInt64 (intervalS * 1000)) :
    deadlineAfter nowMs intervalS < 0 ∨ nowMs + minS * 1000 ≤ deadlineAfter nowMs intervalS := by
  unfold deadlineAfter
  rw [toInt64_of_fits _ hfits]
  rcases toInt64_add nowMs (intervalS * 1000) hnow (by omega) hnowFits hfits with hsum | hnever
  · rw [hsum]
    omega
  · exact Or.inl hnever

/-- `refresh_zone` has run before each wait, and the thread comes to no wait without it. -/
structure ZoneFirst (w : Worker) : Prop where
  before : ∀ pre deltaMs post, w.events = pre ++ .wait deltaMs :: post →
    ∃ startedMs, WorkerEvent.refreshZone startedMs ∈ pre
  started : (∃ startedMs, WorkerEvent.refreshZone startedMs ∈ w.events) ∨
    w.phase = .zoneCall ∨ w.phase = .zoneTest ∧ w.nextTz = 0

/-- **The invariant of the thread** at an instant. -/
structure Scheduled (nowMs : ℤ) (w : Worker) : Prop where
  intervals : IntervalsKept w.cfg
  zone : (zoneTimer w).Sound (minTzIntervalS * 1000) nowMs
  time : (timeTimer w).Sound (minNtpIntervalS * 1000) nowMs
  first : ZoneFirst w

/-- INTERNAL: a worker that starts is on its schedule. -/
theorem scheduled_start (cfg : TimeSyncSetup) (hntp : FitsInt64 (cfg.ntpIntervalS * 1000))
    (htz : FitsInt64 (cfg.tzIntervalS * 1000)) : Scheduled 0 (workerStart cfg) where
  intervals := intervalsKept_start cfg hntp htz
  zone := PeriodicTimer.sound_new _ _
  time := PeriodicTimer.sound_new _ _
  first :=
    ⟨fun pre _ _ h => absurd h.symm (List.append_ne_nil_of_right_ne_nil pre (List.cons_ne_nil _ _)),
      Or.inr (Or.inr ⟨rfl, rfl⟩)⟩

/-- An event that is a wait stands behind a call of `refresh_zone`. -/
def BehindZone (pre : List WorkerEvent) (event : WorkerEvent) : Prop :=
  ∀ deltaMs, event = .wait deltaMs → ∃ startedMs, WorkerEvent.refreshZone startedMs ∈ pre

/-- INTERNAL: a wait is behind a refresh of the zone if one stands in front of it. -/
theorem behindZone_iff (events : List WorkerEvent) :
    EveryEvent BehindZone events ↔ ∀ pre deltaMs post, events = pre ++ .wait deltaMs :: post →
      ∃ startedMs, WorkerEvent.refreshZone startedMs ∈ pre := by
  constructor
  · exact fun h pre deltaMs post heq => h pre _ post heq deltaMs rfl
  · rintro h pre event post heq deltaMs rfl
    exact h pre deltaMs post heq

/-- INTERNAL: an event that may stand there keeps `refresh_zone` before each wait. -/
theorem zoneFirst_before_append (events : List WorkerEvent) (event : WorkerEvent)
    (h : ∀ pre deltaMs post, events = pre ++ .wait deltaMs :: post →
      ∃ startedMs, WorkerEvent.refreshZone startedMs ∈ pre)
    (hevent : BehindZone events event) :
    ∀ pre deltaMs post, events ++ [event] = pre ++ .wait deltaMs :: post →
      ∃ startedMs, WorkerEvent.refreshZone startedMs ∈ pre := by
  rw [← behindZone_iff] at h ⊢
  rw [everyEvent_append, everyEvent_cons, List.append_nil]
  exact ⟨h, hevent, everyEvent_nil _⟩

/-- INTERNAL: a step adds at most one event. -/
theorem events_workerStep (w : Worker) (tick : WorkerTick) :
    (workerStep w tick).events = w.events ∨
      ∃ event, (workerStep w tick).events = w.events ++ [event] := by
  rcases w with ⟨cfg, nextNtp, nextTz, phase, events⟩
  cases phase with
  | zoneCall => exact Or.inr ⟨_, rfl⟩
  | timeCall => exact Or.inr ⟨_, rfl⟩
  | lock =>
    cases hstop : tick.stop with
    | true => exact Or.inl (by simp [workerStep, hstop])
    | false => exact Or.inr ⟨_, by simp only [workerStep, hstop]; rfl⟩
  | zoneTest => exact Or.inl (by simp only [workerStep]; split <;> rfl)
  | timeTest => exact Or.inl (by simp only [workerStep]; split <;> rfl)
  | asleep => exact Or.inl (by simp only [workerStep]; split <;> rfl)
  | _ => exact Or.inl rfl

/-- INTERNAL: **a step** keeps `refresh_zone` before each wait: the first test of its deadline
comes to it at once, and no other step is taken before. -/
theorem zoneFirst_workerStep (w : Worker) (tick : WorkerTick) (hnow : 0 ≤ tick.nowMs)
    (h : ZoneFirst w) : ZoneFirst (workerStep w tick) := by
  obtain ⟨hbefore, hstarted⟩ := h
  rcases hstarted with ⟨startedMs, hmem⟩ | hcall | ⟨htest, hzero⟩
  · rcases events_workerStep w tick with hsame | ⟨event, hevent⟩
    · constructor
      · rw [hsame]
        exact hbefore
      · rw [hsame]
        exact Or.inl ⟨startedMs, hmem⟩
    · constructor
      · rw [hevent]
        exact zoneFirst_before_append w.events event hbefore fun _ _ => ⟨startedMs, hmem⟩
      · rw [hevent]
        exact Or.inl ⟨startedMs, List.mem_append_left _ hmem⟩
  · have hevents : (workerStep w tick).events = w.events ++ [.refreshZone tick.nowMs] := by
      simp only [workerStep, hcall]
    constructor
    · rw [hevents]
      exact zoneFirst_before_append w.events _ hbefore fun _ hwait => by cases hwait
    · rw [hevents]
      exact Or.inl ⟨tick.nowMs, List.mem_append_right _ (List.mem_singleton_self _)⟩
  · have hdue : 0 ≤ w.nextTz ∧ w.nextTz ≤ tick.nowMs := by omega
    have hstep : workerStep w tick = { w with phase := .zoneCall } := by
      simp only [workerStep, htest]
      exact if_pos hdue
    rw [hstep]
    exact ⟨hbefore, Or.inr (Or.inl rfl)⟩

/-- INTERNAL: **a step** keeps the invariant, at whatever later instant it is taken. -/
theorem scheduled_workerStep (w : Worker) (tick : WorkerTick) (beforeMs : ℤ)
    (hzero : 0 ≤ beforeMs) (hle : beforeMs ≤ tick.nowMs) (h : Scheduled beforeMs w) :
    Scheduled tick.nowMs (workerStep w tick) := by
  obtain ⟨hintervals, hzone, htime, hfirst⟩ := h
  have hnow : 0 ≤ tick.nowMs := hzero.trans hle
  have hfits : FitsInt64 tick.nowMs := monotonicMs_fits tick.clock
  have hzoneGap : PeriodicTimer.KeepsGap (minTzIntervalS * 1000) tick.nowMs
      (zoneTimerStep w tick.nowMs) := by
    obtain ⟨hmin, hms⟩ := hintervals.tz
    unfold zoneTimerStep
    cases w.phase with
    | zoneRearm =>
      cases w.cfg.tzEnabled with
      | true => exact deadlineAfter_keepsGap _ _ _ hnow hfits (by decide) hmin hms
      | false => exact Or.inl (show (-1 : ℤ) < 0 by decide)
    | _ => trivial
  have htimeGap : PeriodicTimer.KeepsGap (minNtpIntervalS * 1000) tick.nowMs
      (timeTimerStep w tick.nowMs) := by
    obtain ⟨hmin, hms⟩ := hintervals.ntp
    unfold timeTimerStep
    cases w.phase with
    | timeRearm => exact deadlineAfter_keepsGap _ _ _ hnow hfits (by decide) hmin hms
    | _ => trivial
  constructor
  · rw [cfg_workerStep]
    exact hintervals
  · rw [(timers_workerStep w tick).1]
    exact hzone.step hle _ hzoneGap
  · rw [(timers_workerStep w tick).2]
    exact htime.step hle _ htimeGap
  · exact zoneFirst_workerStep w tick hnow hfirst

/-- INTERNAL: **a run** keeps the invariant, on a clock that does not go back. -/
theorem scheduled_workerRun (ticks : List WorkerTick) (w : Worker) (beforeMs : ℤ)
    (hzero : 0 ≤ beforeMs) (hclock : (beforeMs :: ticks.map WorkerTick.nowMs).IsChain (· ≤ ·))
    (h : Scheduled beforeMs w) : ∃ nowMs, Scheduled nowMs (workerRun w ticks) := by
  induction ticks generalizing w beforeMs with
  | nil => exact ⟨beforeMs, h⟩
  | cons tick ticks ih =>
    rw [List.map_cons, List.isChain_cons_cons] at hclock
    obtain ⟨hle, hclock⟩ := hclock
    have hstep := scheduled_workerStep w tick beforeMs hzero hle h
    exact ih (workerStep w tick) tick.nowMs (hzero.trans hle) hclock hstep

/-- INTERNAL: a timer that is off starts nothing in a run. -/
theorem silent_workerRun (ticks : List WorkerTick) (w : Worker) (h : (timeTimer w).Silent) :
    (timeTimer (workerRun w ticks)).Silent := by
  induction ticks generalizing w with
  | nil => exact h
  | cons tick ticks ih =>
    have hstep : (timeTimer (workerStep w tick)).Silent := by
      rw [(timers_workerStep w tick).2]
      exact h.step _
    exact ih (workerStep w tick) hstep

/-- **The sync thread does not hammer its servers.** Whatever the configuration (as long as the
milliseconds of its intervals fit) and whatever wakes the thread, on a monotonic clock that does
not go back two calls of `refresh_time` start at least a minute apart and two of `refresh_zone` at
least five; `refresh_zone` has run before the first wait; and with NTP disabled `refresh_time`
never runs.
SRCLINE: time_sync.c:227-337 -/
theorem sync_thread_spaced (cfg : TimeSyncSetup) (hntp : FitsInt64 (cfg.ntpIntervalS * 1000))
    (htz : FitsInt64 (cfg.tzIntervalS * 1000)) (ticks : List WorkerTick)
    (hclock : (0 :: ticks.map WorkerTick.nowMs).IsChain (· ≤ ·)) :
    (timeStarts (workerRun (workerStart cfg) ticks).events).IsChain (fun a b => a + 60000 ≤ b) ∧
      (zoneStarts (workerRun (workerStart cfg) ticks).events).IsChain
        (fun a b => a + 300000 ≤ b) ∧
      (∀ pre deltaMs post, (workerRun (workerStart cfg) ticks).events =
          pre ++ .wait deltaMs :: post →
        ∃ startedMs, WorkerEvent.refreshZone startedMs ∈ pre) ∧
      (cfg.ntpEnabled = false → timeStarts (workerRun (workerStart cfg) ticks).events = []) := by
  obtain ⟨nowMs, hrun⟩ := scheduled_workerRun ticks (workerStart cfg) 0 le_rfl hclock
    (scheduled_start cfg hntp htz)
  refine ⟨hrun.time.spaced, hrun.zone.spaced, hrun.first.before, fun hdisabled => ?_⟩
  have hsilent : (timeTimer (workerStart cfg)).Silent := by
    have hnever : (workerStart cfg).nextNtp = -1 := by
      unfold workerStart
      rw [hdisabled]
      rfl
    refine ⟨?_, rfl, rfl⟩
    change (workerStart cfg).nextNtp < 0
    rw [hnever]
    decide
  exact (silent_workerRun ticks (workerStart cfg) hsilent).starts

/-- An instant some milliseconds after the start of the host. -/
def instantAt (ms : ℤ) : WorkerTick := ⟨some ⟨ms / 1000, ms % 1000 * 1000000⟩, false⟩

/-- A thread that synchronises every minute, woken up after half a minute and in time. -/
def earlyWake : List WorkerTick :=
  [5, 5, 6, 6, 6, 7, 7, 30000, 30000, 30000, 30000, 60007, 60007, 60007, 60007, 60008].map instantAt

/-- A worker that wakes early asks again only when the interval is over. -/
theorem sync_thread_spaced_early_wake :
    timeStarts (workerRun (workerStart { ntpIntervalS := 60, ntpEnabled := true }) earlyWake).events =
        [6, 60007] ∧
      (timeStarts (workerRun (workerStart { ntpIntervalS := 60, ntpEnabled := true })
        earlyWake).events).IsChain (fun a b => a + 60000 ≤ b) :=
  ⟨by decide +kernel, (sync_thread_spaced { ntpIntervalS := 60, ntpEnabled := true } (by decide)
    (by decide) earlyWake (by decide +kernel)).1⟩

end OpenHes.Analysis
