import OpenHes.Library.FixedPoint
import OpenHes.Model.Clock

/-!
# The accuracy of an SNTP exchange

An instant of the era goes into a packet and comes back as itself or a nanosecond less, so
the offset of an exchange that is accepted is off by half the delays of the path and a
nanosecond or two.
-/

set_option autoImplicit false

namespace OpenHes.Analysis

open OpenHes.Library OpenHes.Model

/-- Is the instant in the NTP era from 1900 to 2036? -/
def InEra (unixNs : ℤ) : Prop :=
  -sntpUnixEpochDelta * nsPerSec ≤ unixNs ∧ unixNs < (2 ^ 32 - sntpUnixEpochDelta) * nsPerSec

instance (unixNs : ℤ) : Decidable (InEra unixNs) := inferInstanceAs (Decidable (_ ∧ _))

/-- INTERNAL: a number that is written is read back. -/
theorem readBe32_writeBe32 (v : ℕ) (h : v < 2 ^ 32) (rest : List UInt8) :
    readBe32 (writeBe32 v ++ rest) = v := by
  simp only [readBe32, writeBe32, List.cons_append, List.nil_append, List.take_succ_cons,
    List.take_zero, List.foldl_cons, List.foldl_nil, UInt8.toNat_ofNat']
  omega

/-- INTERNAL: the seconds and the rest of an instant, rounded down, whatever its sign. -/
theorem unixNsToNtpTs_eq (unixNs : ℤ) :
    unixNsToNtpTs unixNs = writeBe32 (toUInt32 (unixNs / nsPerSec + sntpUnixEpochDelta)) ++
      writeBe32 (toUInt32 (unixNs % nsPerSec * 2 ^ 32 / nsPerSec)) := by
  have hparts : (if unixNs.tmod nsPerSec < 0 then
      (unixNs.tdiv nsPerSec - 1, unixNs.tmod nsPerSec + nsPerSec)
      else (unixNs.tdiv nsPerSec, unixNs.tmod nsPerSec)) =
        (unixNs / nsPerSec, unixNs % nsPerSec) := by
    have hrem := Int.tmod_def unixNs nsPerSec
    have hsec := @Int.tdiv_eq_ediv unixNs nsPerSec
    have hsign : Int.sign nsPerSec = 1 := rfl
    rw [hsign] at hsec
    unfold nsPerSec at *
    split <;> simp only [Prod.mk.injEq] <;> split at hsec <;> omega
  have hrem : 0 ≤ unixNs % nsPerSec := Int.emod_nonneg _ (by decide)
  unfold unixNsToNtpTs
  simp only [hparts]
  rw [Int.tdiv_eq_ediv_of_nonneg (by omega)]

/-- INTERNAL: **the two fields** of the stamp of an instant of the era. -/
theorem readBe32_unixNsToNtpTs (unixNs : ℤ) (hera : InEra unixNs) :
    (readBe32 (unixNsToNtpTs unixNs) : ℤ) = unixNs / nsPerSec + sntpUnixEpochDelta ∧
      (readBe32 ((unixNsToNtpTs unixNs).drop 4) : ℤ) =
        unixNs % nsPerSec * 2 ^ 32 / nsPerSec := by
  obtain ⟨hlow, hhigh⟩ := hera
  have hrem0 : 0 ≤ unixNs % nsPerSec := Int.emod_nonneg _ (by decide)
  have hrem1 : unixNs % nsPerSec < nsPerSec := Int.emod_lt_of_pos _ (by decide)
  have hsec : toUInt32 (unixNs / nsPerSec + sntpUnixEpochDelta) < 2 ^ 32 ∧
      (toUInt32 (unixNs / nsPerSec + sntpUnixEpochDelta) : ℤ) =
        unixNs / nsPerSec + sntpUnixEpochDelta := by
    unfold toUInt32 sntpUnixEpochDelta nsPerSec at *
    omega
  have hfrac : toUInt32 (unixNs % nsPerSec * 2 ^ 32 / nsPerSec) < 2 ^ 32 ∧
      (toUInt32 (unixNs % nsPerSec * 2 ^ 32 / nsPerSec) : ℤ) =
        unixNs % nsPerSec * 2 ^ 32 / nsPerSec := by
    unfold toUInt32 nsPerSec at *
    omega
  have hdrop : ∀ v w, (writeBe32 v ++ w).drop 4 = w := fun v w => rfl
  rw [unixNsToNtpTs_eq, readBe32_writeBe32 _ hsec.1, hdrop,
    ← List.append_nil (writeBe32 (toUInt32 (unixNs % nsPerSec * 2 ^ 32 / nsPerSec))),
    readBe32_writeBe32 _ hfrac.1]
  exact ⟨hsec.2, hfrac.2⟩

/-- INTERNAL: **an instant of the era** is read back as itself or a nanosecond less. -/
theorem ntpTsToUnixNs_unixNsToNtpTs (unixNs s : ℤ) (hera : InEra unixNs)
    (h : ntpTsToUnixNs (unixNsToNtpTs unixNs) = some s) : unixNs - 1 ≤ s ∧ s ≤ unixNs := by
  obtain ⟨hsec, hfrac⟩ := readBe32_unixNsToNtpTs unixNs hera
  have hbounds := FixedPoint.throughParts_bounds nsPerSec (2 ^ 32) (by decide) (by decide) unixNs
  unfold ntpTsToUnixNs at h
  rw [hsec, hfrac] at h
  dsimp only at h
  rw [add_sub_cancel_right] at h
  split at h
  · cases h
  · cases h
    exact hbounds

/-- INTERNAL: the transmit stamp of a request is the time of its sending. -/
theorem ntpTimestamp_sntpBuildRequest (now : Timespec) :
    ntpTimestamp (sntpBuildRequest now) ntpTransmitTs = unixNsToNtpTs (timespecToNs now) := rfl

/-- INTERNAL: what an accepted reply says of the readings. -/
theorem sntpComputeOffset_some (request reply : List UInt8) (localRecv : Timespec)
    (r : SntpResult) (h : sntpComputeOffset request reply localRecv = some r) :
    ∃ s1 s2 s3, ntpTsToUnixNs (ntpTimestamp request ntpTransmitTs) = some s1 ∧
      ntpTsToUnixNs (ntpTimestamp reply ntpReceiveTs) = some s2 ∧
      ntpTsToUnixNs (ntpTimestamp reply ntpTransmitTs) = some s3 ∧
      r.offsetNs = ((s2 - s1) + (s3 - timespecToNs localRecv)).tdiv 2 := by
  unfold sntpComputeOffset at h
  split at h
  · cases h
  dsimp only at h
  split at h
  · cases h
  split at h
  · cases h
  simp only [Option.bind_eq_some_iff] at h
  obtain ⟨s1, hs1, s2, hs2, s3, hs3, h⟩ := h
  refine ⟨s1, s2, s3, hs1, hs2, hs3, ?_⟩
  unfold offsetOfReadings at h
  split at h
  · cases h
  dsimp only at h
  split at h
  · cases h
  split at h
  · cases h
  · cases h
    rfl

/-- **The accuracy of an exchange.** A request is sent at the local time `t1` and the reply is
received at `t4`; on the way are the delays `d1` and `d2` and the time that the server holds
the request. The server's clock is the local clock and `theta`. An offset that is accepted is
within half the delays, and so is a clock that it corrects.
SRCLINE: sntp.c:147-214 -/
theorem offset_accurate (t1 t4 : Timespec) (theta d1 d2 hold : ℤ) (hd1 : 0 ≤ d1) (hd2 : 0 ≤ d2)
    (h4 : timespecToNs t4 = timespecToNs t1 + d1 + hold + d2)
    (hera1 : InEra (timespecToNs t1)) (hera2 : InEra (timespecToNs t1 + d1 + theta))
    (hera3 : InEra (timespecToNs t1 + d1 + hold + theta)) (reply : List UInt8)
    (hreceive : ntpTimestamp reply ntpReceiveTs = unixNsToNtpTs (timespecToNs t1 + d1 + theta))
    (htransmit : ntpTimestamp reply ntpTransmitTs =
      unixNsToNtpTs (timespecToNs t1 + d1 + hold + theta))
    (r : SntpResult) (h : sntpComputeOffset (sntpBuildRequest t1) reply t4 = some r) :
    2 * |r.offsetNs - theta| ≤ d1 + d2 + 4 ∧
      ∀ now : Timespec, 0 ≤ timespecToNs now + r.offsetNs →
        2 * |(hesClockNowNs r.offsetNs (some now) : ℤ) - (timespecToNs now + theta)| ≤
          d1 + d2 + 4 := by
  obtain ⟨s1, s2, s3, hs1, hs2, hs3, hoffset⟩ := sntpComputeOffset_some _ _ _ _ h
  rw [ntpTimestamp_sntpBuildRequest] at hs1
  rw [hreceive] at hs2
  rw [htransmit] at hs3
  have hr1 := ntpTsToUnixNs_unixNsToNtpTs _ s1 hera1 hs1
  have hr2 := ntpTsToUnixNs_unixNsToNtpTs _ s2 hera2 hs2
  have hr3 := ntpTsToUnixNs_unixNsToNtpTs _ s3 hera3 hs3
  have herror : 2 * |r.offsetNs - theta| ≤ d1 + d2 + 4 := by
    have := FixedPoint.offset_error _ _ theta d1 d2 hold hd1 hd2 h4 s1 s2 s3 hr1 hr2 hr3
    rw [hoffset]
    omega
  refine ⟨herror, fun now hnow => ?_⟩
  have hclock : (hesClockNowNs r.offsetNs (some now) : ℤ) = timespecToNs now + r.offsetNs :=
    Int.toNat_of_nonneg hnow
  rw [hclock, add_sub_add_left_eq_sub]
  exact herror

/-- The time of a request. -/
def sampleSend : Timespec := ⟨1753920000, 123456789⟩

/-- The reply of a server that is half a second ahead, after 20 milliseconds on the way and
one of work. -/
def sampleReply : List UInt8 :=
  (4 * 8 + 4) :: 2 :: (List.replicate 22 0 ++ unixNsToNtpTs 1753920000123456789 ++
    unixNsToNtpTs 1753920000643456789 ++ unixNsToNtpTs 1753920000644456789)

/-- An offset of half a second, over a way of 20 ms and one of 30 ms. -/
theorem offset_accurate_sample :
    2 * |(494999999 : ℤ) - 500000000| ≤ 20000000 + 30000000 + 4 :=
  (offset_accurate sampleSend ⟨1753920000, 174456789⟩ 500000000 20000000 30000000 1000000
    (by decide) (by decide) (by decide) (by decide) (by decide) (by decide) sampleReply
    (by decide +kernel) (by decide +kernel) ⟨494999999, 50, 2, 0, 1753920000⟩
    (by decide +kernel)).1

end OpenHes.Analysis
