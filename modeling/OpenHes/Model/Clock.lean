import OpenHes.Library.CInt

/-!
# The clock of the gateway

The exchange of `services/time/sntp.c`, the correction that `common/hes_clock.c` adds to
the clock of the host, and the time stamps that `hes_bus_send` puts on the messages of a
process while the sync thread of `services/time/time_sync.c` writes new corrections.
Instants and clocks are numbers of nanoseconds.
-/

set_option autoImplicit false

namespace OpenHes.Model

open OpenHes.Library

/-- `NS_PER_SEC`. -/
def nsPerSec : ℤ := 1000000000
/-- `SNTP_MAX_OFFSET_NS`. -/
def sntpMaxOffsetNs : ℤ := 86400 * nsPerSec
/-- `SNTP_MAX_DELAY_NS`. -/
def sntpMaxDelayNs : ℤ := 60 * nsPerSec
/-- `SNTP_PACKET_LEN`. -/
def sntpPacketLen : ℕ := 48
/-- `SNTP_UNIX_EPOCH_DELTA`. -/
def sntpUnixEpochDelta : ℤ := 2208988800
/-- `NTP_ORIGINATE_TS`. -/
def ntpOriginateTs : ℕ := 24
/-- `NTP_RECEIVE_TS`. -/
def ntpReceiveTs : ℕ := 32
/-- `NTP_TRANSMIT_TS`. -/
def ntpTransmitTs : ℕ := 40

/-- `struct timespec`. -/
structure Timespec where
  tvSec : ℤ
  tvNsec : ℤ
  deriving DecidableEq

/-! ## sntp.c -/

/-- `read_be32`. -/
def readBe32 (p : List UInt8) : ℕ := (p.take 4).foldl (fun v c => 256 * v + c.toNat) 0

/-- `write_be32`. -/
def writeBe32 (v : ℕ) : List UInt8 :=
  [UInt8.ofNat (v / 2 ^ 24), UInt8.ofNat (v / 2 ^ 16), UInt8.ofNat (v / 2 ^ 8), UInt8.ofNat v]

/-- `timespec_to_ns`. -/
def timespecToNs (ts : Timespec) : ℤ := ts.tvSec * nsPerSec + ts.tvNsec

/-- `unix_ns_to_ntp_ts`. -/
def unixNsToNtpTs (unixNs : ℤ) : List UInt8 :=
  let sec := unixNs.tdiv nsPerSec
  let remNs := unixNs.tmod nsPerSec
  let (sec, remNs) := if remNs < 0 then (sec - 1, remNs + nsPerSec) else (sec, remNs)
  writeBe32 (toUInt32 (sec + sntpUnixEpochDelta)) ++
    writeBe32 (toUInt32 ((remNs * 2 ^ 32).tdiv nsPerSec))

/-- `ntp_ts_to_unix_ns`; none is its -1. -/
def ntpTsToUnixNs (p : List UInt8) : Option ℤ :=
  let sec : ℤ := readBe32 p
  let frac : ℤ := readBe32 (p.drop 4)
  if sec < sntpUnixEpochDelta then none
  else some ((sec - sntpUnixEpochDelta) * nsPerSec + frac * nsPerSec / 2 ^ 32)

/-- The time stamp at an offset of a packet. -/
def ntpTimestamp (packet : List UInt8) (offset : ℕ) : List UInt8 := (packet.drop offset).take 8

/-- `sntp_build_request`. -/
def sntpBuildRequest (now : Timespec) : List UInt8 :=
  (4 * 8 + 3) :: (List.replicate (ntpTransmitTs - 1) 0 ++ unixNsToNtpTs (timespecToNs now))

/-- `sntp_result_t`. -/
structure SntpResult where
  offsetNs : ℤ
  delayMs : ℤ
  stratum : ℕ
  leap : ℕ
  serverTime : ℤ
  deriving DecidableEq

/-- `sntp_compute_offset` from its four readings on. -/
def offsetOfReadings (stratum leap : ℕ) (t1 t2 t3 t4 : ℤ) : Option SntpResult :=
  if t3 < t2 then none
  else
    let delay := (t4 - t1) - (t3 - t2)
    if delay < 0 || sntpMaxDelayNs < delay then none
    else
      let offset := ((t2 - t1) + (t3 - t4)).tdiv 2
      if sntpMaxOffsetNs < offset || offset < -sntpMaxOffsetNs then none
      else some ⟨offset, delay.tdiv 1000000, stratum, leap, t3.tdiv nsPerSec⟩

/-- `sntp_compute_offset`, with the bytes of the reply that were received. -/
def sntpComputeOffset (request reply : List UInt8) (localRecv : Timespec) : Option SntpResult :=
  if reply.length < sntpPacketLen then none
  else
    let first := (reply.headD 0).toNat
    let leap := first / 2 ^ 6
    let mode := first % 8
    let stratum := (reply.getD 1 0).toNat
    if mode ≠ 4 || leap = 3 || stratum = 0 || 15 < stratum then none
    else if ntpTimestamp reply ntpOriginateTs ≠ ntpTimestamp request ntpTransmitTs then none
    else
      (ntpTsToUnixNs (ntpTimestamp request ntpTransmitTs)).bind fun t1 =>
        (ntpTsToUnixNs (ntpTimestamp reply ntpReceiveTs)).bind fun t2 =>
          (ntpTsToUnixNs (ntpTimestamp reply ntpTransmitTs)).bind fun t3 =>
            offsetOfReadings stratum leap t1 t2 t3 (timespecToNs localRecv)

/-! ## hes_clock.c -/

/-- `hes_clock_now_ns` with the correction that it loads; the host clock is none when it
cannot be read. -/
def hesClockNowNs (offsetNs : ℤ) (host : Option Timespec) : ℕ :=
  match host with
  | none => 0
  | some ts => (timespecToNs ts + offsetNs).toNat

/-! ## The time stamps of a process -/

/-- A message that a process has sent: what was read of the host clock for it, the
correction that was loaded, and the `timestamp_ns` that came of it. -/
structure StampedSend where
  host : Timespec
  correction : ℤ
  timestampNs : ℕ
  deriving DecidableEq

/-- The clock of a process: the host clock, the correction, what `hes_bus_send` has read of
the host clock when it is in the middle of a call, and the messages sent. -/
structure ClockState where
  host : ℤ
  offsetNs : ℤ := 0
  reading : Option Timespec := none
  sent : List StampedSend := []
  deriving DecidableEq

/-- What happens to the clock of a process, by the sending thread, the sync thread and the
host. -/
inductive ClockStep
  | advance (ns : ℕ)
  | refreshTime (request reply : List UInt8) (localRecv : Timespec)
  | readClock
  | stamp
  deriving DecidableEq

/-- What `clock_gettime` gives. -/
def clockGettime (host : ℤ) : Timespec := ⟨host / nsPerSec, host % nsPerSec⟩

/-- One step; a thread whose turn it is not does nothing. -/
def clockStep (s : ClockState) : ClockStep → ClockState
  | .advance ns => { s with host := s.host + ns }
  | .refreshTime request reply localRecv =>
    match sntpComputeOffset request reply localRecv with
    | none => s
    | some r => { s with offsetNs := r.offsetNs }
  | .readClock =>
    match s.reading with
    | none => { s with reading := some (clockGettime s.host) }
    | some _ => s
  | .stamp =>
    match s.reading with
    | none => s
    | some ts =>
      { s with
        reading := none
        sent := s.sent ++ [⟨ts, s.offsetNs, hesClockNowNs s.offsetNs (some ts)⟩] }

/-- The steps of a schedule. -/
def clockRun (s : ClockState) (steps : List ClockStep) : ClockState := steps.foldl clockStep s

end OpenHes.Model
