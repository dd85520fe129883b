import OpenHes.Analysis.SntpAccuracy
import OpenHes.Model.SntpWidths

/-!
# Which SNTP replies are accepted

Whatever the reply holds, the readings of an exchange in the era we are in lie between 0 and
2086 million seconds, so no sum or difference of them overflows, and a reply is accepted exactly
when its fields and the four readings meet the conditions of the protocol.
-/

set_option autoImplicit false

namespace OpenHes.Analysis

open OpenHes.Library OpenHes.Model

/-! ## What is accepted -/

/-- An instant of the era we are in, from 1970 until the seconds of a stamp start again. -/
structure EraTime where
  time : Timespec
  nsec : 0 ≤ time.tvNsec ∧ time.tvNsec < nsPerSec
  era : 0 ≤ time.tvSec ∧ time.tvSec < 2 ^ 32 - sntpUnixEpochDelta

/-- Is the stamp in the era we are in? -/
def StampInEra (p : List UInt8) : Prop := sntpUnixEpochDelta ≤ readBe32 p

/-- The instant of a stamp. -/
def stampNs (p : List UInt8) : ℤ :=
  (readBe32 p - sntpUnixEpochDelta) * nsPerSec + (readBe32 (p.drop 4) : ℤ) * nsPerSec / 2 ^ 32

/-- The time a request and its reply were under way. -/
def roundTripDelay (t1 t2 t3 t4 : ℤ) : ℤ := (t4 - t1) - (t3 - t2)

/-- The offset that the four readings give. -/
def clockOffset (t1 t2 t3 t4 : ℤ) : ℤ := ((t2 - t1) + (t3 - t4)).tdiv 2

/-- The conditions on a reply. -/
structure SntpAcceptable (request reply : List UInt8) (localRecv : Timespec) : Prop where
  mode : (reply.headD 0).toNat % 8 = 4
  leap : (reply.headD 0).toNat / 2 ^ 6 ≠ 3
  stratum : 1 ≤ (reply.getD 1 0).toNat ∧ (reply.getD 1 0).toNat ≤ 15
  originate : ntpTimestamp reply ntpOriginateTs = ntpTimestamp request ntpTransmitTs
  receiveInEra : StampInEra (ntpTimestamp reply ntpReceiveTs)
  transmitInEra : StampInEra (ntpTimestamp reply ntpTransmitTs)
  order : stampNs (ntpTimestamp reply ntpReceiveTs) ≤ stampNs (ntpTimestamp reply ntpTransmitTs)
  delay : 0 ≤ roundTripDelay (stampNs (ntpTimestamp request ntpTransmitTs))
        (stampNs (ntpTimestamp reply ntpReceiveTs)) (stampNs (ntpTimestamp reply ntpTransmitTs))
        (timespecToNs localRecv) ∧
      roundTripDelay (stampNs (ntpTimestamp request ntpTransmitTs))
        (stampNs (ntpTimestamp reply ntpReceiveTs)) (stampNs (ntpTimestamp reply ntpTransmitTs))
        (timespecToNs localRecv) ≤ sntpMaxDelayNs
  offset : |clockOffset (stampNs (ntpTimestamp request ntpTransmitTs))
      (stampNs (ntpTimestamp reply ntpReceiveTs)) (stampNs (ntpTimestamp reply ntpTransmitTs))
      (timespecToNs localRecv)| ≤ sntpMaxOffsetNs

/-! ## No overflow -/

/-- The readings lie between these. -/
def IsReading (t : ℤ) : Prop := 0 ≤ t ∧ t < (2 ^ 32 - sntpUnixEpochDelta) * nsPerSec

/-- INTERNAL: a number that fits is computed. -/
theorem longLong_of_fits (n : ℤ) (h : FitsInt64 n) : longLong n = some n := if_pos h

/-- INTERNAL: four bytes hold 32 bits. -/
theorem readBe32_lt (p : List UInt8) : readBe32 p < 2 ^ 32 := by
  have hfold : ∀ (bytes : List UInt8) (v : ℕ),
      bytes.foldl (fun v c => 256 * v + c.toNat) v < (v + 1) * 256 ^ bytes.length := by
    intro bytes
    induction bytes with
    | nil => intro v; simp
    | cons c bytes ih =>
      intro v
      rw [List.foldl_cons, List.length_cons, Nat.pow_succ]
      have hstep : 256 * v + c.toNat + 1 ≤ (v + 1) * 256 := by
        have := c.toNat_lt
        omega
      calc bytes.foldl (fun v c => 256 * v + c.toNat) (256 * v + c.toNat)
          < (256 * v + c.toNat + 1) * 256 ^ bytes.length := ih _
        _ ≤ (v + 1) * 256 * 256 ^ bytes.length := Nat.mul_le_mul_right _ hstep
        _ = (v + 1) * (256 ^ bytes.length * 256) := by ring
  have hlen : (p.take 4).length ≤ 4 := List.length_take_le _ _
  calc readBe32 p < (0 + 1) * 256 ^ (p.take 4).length := hfold _ _
    _ ≤ (0 + 1) * 256 ^ 4 := Nat.mul_le_mul_left _ (Nat.pow_le_pow_right (by omega) hlen)
    _ = 2 ^ 32 := by norm_num

/-- INTERNAL: a stamp of the era is a reading of its clock. -/
theorem stampNs_isReading (p : List UInt8) (h : StampInEra p) : IsReading (stampNs p) := by
  have hsec := readBe32_lt p
  have hfrac := readBe32_lt (p.drop 4)
  unfold StampInEra at h
  unfold IsReading stampNs nsPerSec sntpUnixEpochDelta at *
  omega

/-- INTERNAL: **a stamp** is read without overflow. -/
theorem ntpTsToUnixNsChecked_eq (p : List UInt8) :
    ntpTsToUnixNsChecked p = some (ntpTsToUnixNs p) ∧
      (StampInEra p → ntpTsToUnixNs p = some (stampNs p)) ∧
      (¬StampInEra p → ntpTsToUnixNs p = none) := by
  have hsec := readBe32_lt p
  have hfrac := readBe32_lt (p.drop 4)
  unfold ntpTsToUnixNsChecked ntpTsToUnixNs StampInEra stampNs
  by_cases hera : (readBe32 p : ℤ) < sntpUnixEpochDelta
  · simp only [if_pos hera, true_and]
    exact ⟨fun h => absurd hera (by omega), fun _ => trivial⟩
  · simp only [if_neg hera]
    have hunixSec : FitsInt64 (readBe32 p - sntpUnixEpochDelta) := by
      unfold FitsInt64 sntpUnixEpochDelta at *
      omega
    have hns : FitsInt64 ((readBe32 p - sntpUnixEpochDelta) * nsPerSec) := by
      unfold FitsInt64 sntpUnixEpochDelta nsPerSec at *
      omega
    have hfracNs : FitsInt64 ((readBe32 (p.drop 4) : ℤ) * nsPerSec) := by
      unfold FitsInt64 nsPerSec
      omega
    have hsum : FitsInt64 ((readBe32 p - sntpUnixEpochDelta) * nsPerSec +
        (readBe32 (p.drop 4) : ℤ) * nsPerSec / 2 ^ 32) := by
      unfold FitsInt64 sntpUnixEpochDelta nsPerSec at *
      omega
    simp only [longLong_of_fits _ hunixSec, longLong_of_fits _ hns, longLong_of_fits _ hfracNs,
      longLong_of_fits _ hsum, Option.bind_eq_bind, Option.bind_some]
    exact ⟨trivial, fun _ => trivial, fun h => absurd (by omega) h⟩

/-- INTERNAL: a time of the era is converted without overflow, to a reading. -/
theorem timespecToNsChecked_eq (t : EraTime) :
    timespecToNsChecked t.time = some (timespecToNs t.time) ∧ IsReading (timespecToNs t.time) := by
  have hnsec := t.nsec
  have hera := t.era
  have hmul : FitsInt64 (t.time.tvSec * nsPerSec) := by
    unfold FitsInt64 sntpUnixEpochDelta nsPerSec at *
    omega
  have hsum : FitsInt64 (t.time.tvSec * nsPerSec + t.time.tvNsec) := by
    unfold FitsInt64 sntpUnixEpochDelta nsPerSec at *
    omega
  constructor
  · unfold timespecToNsChecked timespecToNs
    simp only [longLong_of_fits _ hmul, longLong_of_fits _ hsum, Option.bind_eq_bind,
      Option.bind_some]
  · unfold IsReading timespecToNs sntpUnixEpochDelta nsPerSec at *
    omega

/-- INTERNAL: **the sums and differences** of readings do not overflow, and the offset is
accepted under the conditions on them. -/
theorem offsetOfReadingsChecked_eq (stratum leap : ℕ) (t1 t2 t3 t4 : ℤ) (out : SntpResult)
    (h1 : IsReading t1) (h2 : IsReading t2) (h3 : IsReading t3) (h4 : IsReading t4) :
    ∃ rc out', offsetOfReadingsChecked stratum leap t1 t2 t3 t4 out = some (rc, out') ∧
      (rc = 0 ∨ rc = -1) ∧ (rc = -1 → out' = out) ∧
      (rc = 0 ↔ t2 ≤ t3 ∧
        (0 ≤ roundTripDelay t1 t2 t3 t4 ∧ roundTripDelay t1 t2 t3 t4 ≤ sntpMaxDelayNs) ∧
          |clockOffset t1 t2 t3 t4| ≤ sntpMaxOffsetNs) := by
  have hfits : FitsInt64 (t4 - t1) ∧ FitsInt64 (t3 - t2) ∧ FitsInt64 ((t4 - t1) - (t3 - t2)) ∧
      FitsInt64 (t2 - t1) ∧ FitsInt64 (t3 - t4) ∧ FitsInt64 ((t2 - t1) + (t3 - t4)) ∧
        FitsInt64 (((t2 - t1) + (t3 - t4)).tdiv 2) := by
    have hhalf := Int.natAbs_tdiv_le_natAbs ((t2 - t1) + (t3 - t4)) 2
    unfold IsReading FitsInt64 sntpUnixEpochDelta nsPerSec at *
    omega
  obtain ⟨hroundTrip, hheld, hdelay, hthere, hback, hsum, hoffset⟩ := hfits
  unfold offsetOfReadingsChecked roundTripDelay clockOffset
  simp only [longLong_of_fits _ hroundTrip, longLong_of_fits _ hheld, longLong_of_fits _ hdelay,
    longLong_of_fits _ hthere, longLong_of_fits _ hback, longLong_of_fits _ hsum,
    longLong_of_fits _ hoffset, Option.bind_eq_bind, Option.bind_some]
  by_cases horder : t3 < t2
  · rw [if_pos horder]
    exact ⟨-1, out, rfl, Or.inr rfl, fun _ => rfl, by omega⟩
  rw [if_neg horder]
  by_cases hlate : (decide ((t4 - t1) - (t3 - t2) < 0) ||
      decide (sntpMaxDelayNs < (t4 - t1) - (t3 - t2))) = true
  · rw [if_pos hlate]
    refine ⟨-1, out, rfl, Or.inr rfl, fun _ => rfl, ?_⟩
    rw [Bool.or_eq_true, decide_eq_true_eq, decide_eq_true_eq] at hlate
    omega
  rw [if_neg hlate]
  rw [Bool.or_eq_true, decide_eq_true_eq, decide_eq_true_eq] at hlate
  by_cases hfar : (decide (sntpMaxOffsetNs < ((t2 - t1) + (t3 - t4)).tdiv 2) ||
      decide (((t2 - t1) + (t3 - t4)).tdiv 2 < -sntpMaxOffsetNs)) = true
  · rw [if_pos hfar]
    refine ⟨-1, out, rfl, Or.inr rfl, fun _ => rfl, ?_⟩
    rw [Bool.or_eq_true, decide_eq_true_eq, decide_eq_true_eq] at hfar
    rw [abs_le]
    omega
  · rw [if_neg hfar]
    refine ⟨0, _, rfl, Or.inl rfl, fun h => absurd h (by decide), ?_⟩
    rw [Bool.or_eq_true, decide_eq_true_eq, decide_eq_true_eq] at hfar
    rw [abs_le]
    omega

/-! ## With and without widths -/

/-- INTERNAL: a computation goes on if the number fits. -/
theorem longLong_bind {β : Type} (n : ℤ) (f : ℤ → Option β) (r : β) :
    (longLong n).bind f = some r ↔ FitsInt64 n ∧ f n = some r := by
  unfold longLong
  split
  next hfits => simp [hfits]
  next hnot => simp [hnot]

/-- INTERNAL: where the checked conversion answers, it is the unchecked one. -/
theorem timespecToNsChecked_some (ts : Timespec) (n : ℤ) (h : timespecToNsChecked ts = some n) :
    n = timespecToNs ts := by
  unfold timespecToNsChecked at h
  rw [Option.bind_eq_bind, longLong_bind] at h
  obtain ⟨-, hsum⟩ := h
  unfold longLong at hsum
  split at hsum
  · exact (Option.some.inj hsum).symm
  · cases hsum

/-- INTERNAL: where the checked offset answers, it is the unchecked one. -/
theorem offsetOfReadingsChecked_some (stratum leap : ℕ) (t1 t2 t3 t4 : ℤ) (out : SntpResult)
    (rc : ℤ) (out' : SntpResult)
    (h : offsetOfReadingsChecked stratum leap t1 t2 t3 t4 out = some (rc, out')) :
    offsetOfReadings stratum leap t1 t2 t3 t4 = if rc = 0 then some out' else none := by
  unfold offsetOfReadingsChecked at h
  unfold offsetOfReadings
  by_cases horder : t3 < t2
  · rw [if_pos horder] at h ⊢
    cases h
    rfl
  rw [if_neg horder] at h ⊢
  simp only [Option.bind_eq_bind, longLong_bind] at h
  obtain ⟨-, -, -, h⟩ := h
  dsimp only
  split at h
  next hlate =>
    rw [if_pos hlate]
    cases h
    rfl
  next hlate =>
    rw [if_neg hlate]
    simp only [longLong_bind] at h
    obtain ⟨-, -, -, -, h⟩ := h
    split at h
    next hfar =>
      rw [if_pos hfar]
      cases h
      rfl
    next hfar =>
      rw [if_neg hfar]
      cases h
      rfl

/-- INTERNAL: **where nothing overflows**, the function with the widths of its integers is the
function without them. -/
theorem sntpComputeOffsetChecked_some (request reply : List UInt8) (localRecv : Timespec)
    (out : SntpResult) (rc : ℤ) (out' : SntpResult)
    (h : sntpComputeOffsetChecked request reply localRecv out = some (rc, out')) :
    sntpComputeOffset request reply localRecv = if rc = 0 then some out' else none := by
  obtain ⟨h1, -⟩ := ntpTsToUnixNsChecked_eq (ntpTimestamp request ntpTransmitTs)
  obtain ⟨h2, -⟩ := ntpTsToUnixNsChecked_eq (ntpTimestamp reply ntpReceiveTs)
  obtain ⟨h3, -⟩ := ntpTsToUnixNsChecked_eq (ntpTimestamp reply ntpTransmitTs)
  unfold sntpComputeOffsetChecked at h
  unfold sntpComputeOffset
  split at h
  next hshort =>
    rw [if_pos hshort]
    cases h
    rfl
  next hshort =>
    rw [if_neg hshort]
    dsimp only at h ⊢
    split at h
    next hheader =>
      rw [if_pos hheader]
      cases h
      rfl
    next hheader =>
      rw [if_neg hheader]
      split at h
      next horiginate =>
        rw [if_pos horiginate]
        cases h
        rfl
      next horiginate =>
        rw [if_neg horiginate]
        rw [h1, h2, h3] at h
        cases hsent : ntpTsToUnixNs (ntpTimestamp request ntpTransmitTs) with
        | none =>
          rw [hsent] at h
          cases h
          rfl
        | some t1 =>
          cases hreceived : ntpTsToUnixNs (ntpTimestamp reply ntpReceiveTs) with
          | none =>
            rw [hsent, hreceived] at h
            cases h
            rfl
          | some t2 =>
            cases htransmit : ntpTsToUnixNs (ntpTimestamp reply ntpTransmitTs) with
            | none =>
              rw [hsent, hreceived, htransmit] at h
              cases h
              rfl
            | some t3 =>
              rw [hsent, hreceived, htransmit] at h
              simp only [Option.bind_eq_bind, Option.bind_some, Option.bind_eq_some_iff] at h
              obtain ⟨t4, ht4, hresult⟩ := h
              obtain rfl := timespecToNsChecked_some localRecv t4 ht4
              exact offsetOfReadingsChecked_some _ _ t1 t2 t3 _ out rc out' hresult

/-! ## The exchange -/

/-- INTERNAL: the transmit stamp of a request lies in the era. -/
theorem sntpBuildRequest_inEra (t : EraTime) :
    StampInEra (ntpTimestamp (sntpBuildRequest t.time) ntpTransmitTs) := by
  have hreading := (timespecToNsChecked_eq t).2
  have hsec : toUInt32 (timespecToNs t.time / nsPerSec + sntpUnixEpochDelta) < 2 ^ 32 ∧
      (toUInt32 (timespecToNs t.time / nsPerSec + sntpUnixEpochDelta) : ℤ) =
        timespecToNs t.time / nsPerSec + sntpUnixEpochDelta := by
    unfold IsReading at hreading
    unfold toUInt32 sntpUnixEpochDelta nsPerSec at *
    omega
  unfold StampInEra
  rw [ntpTimestamp_sntpBuildRequest, unixNsToNtpTs_eq, readBe32_writeBe32 _ hsec.1, hsec.2]
  unfold IsReading nsPerSec at *
  omega

/-- INTERNAL: **the function with widths** on an exchange of the era we are in. -/
theorem sntpComputeOffsetChecked_accepts (now localRecv : EraTime) (reply : List UInt8) (out : SntpResult)
    (hlen : sntpPacketLen ≤ reply.length) :
    ∃ rc out', sntpComputeOffsetChecked (sntpBuildRequest now.time) reply localRecv.time out =
        some (rc, out') ∧
      (rc = 0 ∨ rc = -1) ∧ (rc = -1 → out' = out) ∧
      (rc = 0 ↔ SntpAcceptable (sntpBuildRequest now.time) reply localRecv.time) := by
  obtain ⟨h4, hreading4⟩ := timespecToNsChecked_eq localRecv
  have hera1 := sntpBuildRequest_inEra now
  generalize sntpBuildRequest now.time = request at hera1 ⊢
  obtain ⟨h1, hsome1, -⟩ := ntpTsToUnixNsChecked_eq (ntpTimestamp request ntpTransmitTs)
  obtain ⟨h2, hsome2, hnone2⟩ := ntpTsToUnixNsChecked_eq (ntpTimestamp reply ntpReceiveTs)
  obtain ⟨h3, hsome3, hnone3⟩ := ntpTsToUnixNsChecked_eq (ntpTimestamp reply ntpTransmitTs)
  unfold sntpComputeOffsetChecked
  rw [if_neg (Nat.not_lt_of_le hlen)]
  dsimp only
  -- the fields of the header
  by_cases hheader : (decide ((reply.headD 0).toNat % 8 ≠ 4) ||
      decide ((reply.headD 0).toNat / 2 ^ 6 = 3) || decide ((reply.getD 1 0).toNat = 0) ||
        decide (15 < (reply.getD 1 0).toNat)) = true
  · rw [if_pos hheader]
    refine ⟨-1, out, rfl, Or.inr rfl, fun _ => rfl, iff_of_false (by decide) fun hacc => ?_⟩
    have hmode := hacc.mode
    have hleap := hacc.leap
    have hstratum := hacc.stratum
    simp only [ne_eq, Bool.or_eq_true, decide_eq_true_eq] at hheader
    omega
  rw [if_neg hheader]
  simp only [ne_eq, Bool.or_eq_true, decide_eq_true_eq] at hheader
  by_cases horiginate : ntpTimestamp reply ntpOriginateTs = ntpTimestamp request ntpTransmitTs
  · rw [if_neg (not_not_intro horiginate), h1, h2, h3, h4]
    rw [hsome1 hera1]
    -- the stamps of the reply
    by_cases hera2 : StampInEra (ntpTimestamp reply ntpReceiveTs)
    · by_cases hera3 : StampInEra (ntpTimestamp reply ntpTransmitTs)
      · rw [hsome2 hera2, hsome3 hera3]
        obtain ⟨rc, out', hrun, hrc, hsame, hzero⟩ := offsetOfReadingsChecked_eq
          (reply.getD 1 0).toNat ((reply.headD 0).toNat / 2 ^ 6) _ _ _ _ out
          (stampNs_isReading _ hera1) (stampNs_isReading _ hera2) (stampNs_isReading _ hera3)
          hreading4
        refine ⟨rc, out', hrun, hrc, hsame, hzero.trans ⟨?_, ?_⟩⟩
        · rintro ⟨horder, hdelay, hoffset⟩
          exact ⟨by omega, by omega, by omega, horiginate, hera2, hera3, horder, hdelay, hoffset⟩
        · exact fun hacc => ⟨hacc.order, hacc.delay, hacc.offset⟩
      · rw [hsome2 hera2, hnone3 hera3]
        exact ⟨-1, out, rfl, Or.inr rfl, fun _ => rfl,
          iff_of_false (by decide) fun hacc => hera3 hacc.transmitInEra⟩
    · rw [hnone2 hera2]
      exact ⟨-1, out, rfl, Or.inr rfl, fun _ => rfl,
        iff_of_false (by decide) fun hacc => hera2 hacc.receiveInEra⟩
  · rw [if_pos horiginate]
    exact ⟨-1, out, rfl, Or.inr rfl, fun _ => rfl,
      iff_of_false (by decide) fun hacc => horiginate hacc.originate⟩

/-- **SNTP acceptance.** For a request that is built and a reply that is received in the era we
are in, whatever the 48 bytes or more of the reply are, nothing overflows, the function returns 0
exactly when the reply is acceptable, and else returns -1 and leaves the result as it was.
SRCLINE: sntp.c:147-214 -/
theorem sntp_acceptance (now localRecv : EraTime) (reply : List UInt8) (out : SntpResult)
    (hlen : sntpPacketLen ≤ reply.length) :
    ∃ rc out', sntpComputeOffsetChecked (sntpBuildRequest now.time) reply localRecv.time out =
        some (rc, out') ∧
      sntpComputeOffset (sntpBuildRequest now.time) reply localRecv.time =
        (if rc = 0 then some out' else none) ∧
      (rc = 0 ∨ rc = -1) ∧ (rc = -1 → out' = out) ∧
      (rc = 0 ↔ SntpAcceptable (sntpBuildRequest now.time) reply localRecv.time) := by
  obtain ⟨rc, out', hrun, hrc, hsame, haccept⟩ :=
    sntpComputeOffsetChecked_accepts now localRecv reply out hlen
  have hplain := sntpComputeOffsetChecked_some _ reply localRecv.time out rc out' hrun
  exact ⟨rc, out', hrun, hplain, hrc, hsame, haccept⟩

/-- The time of the request, with its place in the era. -/
def sampleSendTime : EraTime := ⟨sampleSend, by decide, by decide⟩

/-- The time of the reply. -/
def sampleRecvTime : EraTime := ⟨⟨1753920000, 174456789⟩, by decide, by decide⟩

/-- A reply of a server half a second ahead is accepted. -/
theorem sntp_acceptance_sample : ∃ rc out',
    sntpComputeOffsetChecked (sntpBuildRequest sampleSend) sampleReply ⟨1753920000, 174456789⟩
        ⟨0, 0, 0, 0, 0⟩ = some (rc, out') ∧
      sntpComputeOffset (sntpBuildRequest sampleSend) sampleReply ⟨1753920000, 174456789⟩ =
        (if rc = 0 then some out' else none) ∧
      (rc = 0 ∨ rc = -1) ∧ (rc = -1 → out' = ⟨0, 0, 0, 0, 0⟩) ∧
      (rc = 0 ↔ SntpAcceptable (sntpBuildRequest sampleSend) sampleReply
        ⟨1753920000, 174456789⟩) :=
  sntp_acceptance sampleSendTime sampleRecvTime sampleReply ⟨0, 0, 0, 0, 0⟩ (by decide)

end OpenHes.Analysis
