import OpenHes.Model.Clock

/-!
# The SNTP exchange in `long long`

`sntp_compute_offset` of `services/time/sntp.c` and the conversions of its stamps once more, with
the width of their integers: every result of `long long` arithmetic is checked, and the result
struct is passed in and out. None is an overflow; the inner value is what the function returns.
-/

set_option autoImplicit false

namespace OpenHes.Model

open OpenHes.Library

/-- A result of `long long` arithmetic. -/
def longLong (n : ℤ) : Option ℤ := if FitsInt64 n then some n else none

/-- `timespec_to_ns`. -/
def timespecToNsChecked (ts : Timespec) : Option ℤ := do
  let secNs ← longLong (ts.tvSec * nsPerSec)
  longLong (secNs + ts.tvNsec)

/-- `unix_ns_to_ntp_ts`. -/
def unixNsToNtpTsChecked (unixNs : ℤ) : Option (List UInt8) := do
  let sec ← longLong (unixNs.tdiv nsPerSec)
  let remNs ← longLong (unixNs.tmod nsPerSec)
  let carriedNs ← longLong (if remNs < 0 then remNs + nsPerSec else remNs)
  let carriedSec ← longLong (if remNs < 0 then sec - 1 else sec)
  let ntpSec ← longLong (carriedSec + sntpUnixEpochDelta)
  let shifted ← longLong (carriedNs * 2 ^ 32)
  let frac ← longLong (shifted.tdiv nsPerSec)
  some (writeBe32 (toUInt32 ntpSec) ++ writeBe32 (toUInt32 frac))

/-- `ntp_ts_to_unix_ns`; the inner none is its -1. -/
def ntpTsToUnixNsChecked (p : List UInt8) : Option (Option ℤ) :=
  let sec : ℤ := readBe32 p
  let frac : ℤ := readBe32 (p.drop 4)
  if sec < sntpUnixEpochDelta then some none
  else do
    let unixSec ← longLong (sec - sntpUnixEpochDelta)
    let ns ← longLong (unixSec * nsPerSec)
    let fracNs ← longLong (frac * nsPerSec)
    let ns ← longLong (ns + fracNs / 2 ^ 32)
    some (some ns)

/-- `sntp_compute_offset` from its four readings on. -/
def offsetOfReadingsChecked (stratum leap : ℕ) (t1 t2 t3 t4 : ℤ) (out : SntpResult) :
    Option (ℤ × SntpResult) :=
  if t3 < t2 then some (-1, out)
  else do
    let roundTrip ← longLong (t4 - t1)
    let held ← longLong (t3 - t2)
    let delay ← longLong (roundTrip - held)
    if delay < 0 || sntpMaxDelayNs < delay then some (-1, out)
    else
      let there ← longLong (t2 - t1)
      let back ← longLong (t3 - t4)
      let sum ← longLong (there + back)
      let offset ← longLong (sum.tdiv 2)
      if sntpMaxOffsetNs < offset || offset < -sntpMaxOffsetNs then some (-1, out)
      else some (0, ⟨offset, delay.tdiv 1000000, stratum, leap, t3.tdiv nsPerSec⟩)

/-- `sntp_compute_offset`: what it returns, and the result struct behind it. -/
def sntpComputeOffsetChecked (request reply : List UInt8) (localRecv : Timespec)
    (out : SntpResult) : Option (ℤ × SntpResult) :=
  if reply.length < sntpPacketLen then some (-1, out)
  else
    let first := (reply.headD 0).toNat
    let leap := first / 2 ^ 6
    let mode := first % 8
    let stratum := (reply.getD 1 0).toNat
    if mode ≠ 4 || leap = 3 || stratum = 0 || 15 < stratum then some (-1, out)
    else if ntpTimestamp reply ntpOriginateTs ≠ ntpTimestamp request ntpTransmitTs then
      some (-1, out)
    else do
      let some t1 ← ntpTsToUnixNsChecked (ntpTimestamp request ntpTransmitTs)
        | some (-1, out)
      let some t2 ← ntpTsToUnixNsChecked (ntpTimestamp reply ntpReceiveTs)
        | some (-1, out)
      let some t3 ← ntpTsToUnixNsChecked (ntpTimestamp reply ntpTransmitTs)
        | some (-1, out)
      let t4 ← timespecToNsChecked localRecv
      offsetOfReadingsChecked stratum leap t1 t2 t3 t4 out

end OpenHes.Model
