import OpenHes.Analysis.SntpAcceptance

/-!
# The codec of NTP stamps

An instant of the era we are in goes into a stamp and comes back without an overflow, as the
whole seconds and a rest that two scalings have rounded down: by a nanosecond at most, and in
the order of the instants.
-/

set_option autoImplicit false

namespace OpenHes.Analysis

open OpenHes.Library OpenHes.Model

/-- `unix_ns_to_ntp_ts`, and `ntp_ts_to_unix_ns` on what it wrote. -/
def throughStamp (ns : ℤ) : Option (Option ℤ) :=
  (unixNsToNtpTsChecked ns).bind ntpTsToUnixNsChecked

/-- What an instant is read back as. -/
def stampedNs (ns : ℤ) : ℤ := FixedPoint.throughParts nsPerSec (2 ^ 32) ns

/-- INTERNAL: a reading of the clock is in the era. -/
theorem inEra_of_isReading (ns : ℤ) (h : IsReading ns) : InEra ns := by
  unfold IsReading InEra sntpUnixEpochDelta nsPerSec at *
  omega

/-- INTERNAL: **no overflow** on the way into a stamp; the remainder of a second that is
shifted stays below 2 ^ 62. -/
theorem unixNsToNtpTsChecked_eq (ns : ℤ) (h : IsReading ns) :
    unixNsToNtpTsChecked ns = some (unixNsToNtpTs ns) := by
  obtain ⟨hlow, hhigh⟩ := h
  have hsec : ns.tdiv nsPerSec = ns / nsPerSec := Int.tdiv_eq_ediv_of_nonneg hlow
  have hrem : ns.tmod nsPerSec = ns % nsPerSec := Int.tmod_eq_emod_of_nonneg hlow
  have hrem0 : 0 ≤ ns % nsPerSec := Int.emod_nonneg _ (by decide)
  have hrem1 : ns % nsPerSec < nsPerSec := Int.emod_lt_of_pos _ (by decide)
  have hcarry : ¬ns % nsPerSec < 0 := by omega
  have hfrac : (ns % nsPerSec * 2 ^ 32).tdiv nsPerSec = ns % nsPerSec * 2 ^ 32 / nsPerSec :=
    Int.tdiv_eq_ediv_of_nonneg (by omega)
  have hsecFits : FitsInt64 (ns / nsPerSec) := by
    unfold FitsInt64 sntpUnixEpochDelta nsPerSec at *
    omega
  have hremFits : FitsInt64 (ns % nsPerSec) := by
    unfold FitsInt64 nsPerSec at *
    omega
  have hntpFits : FitsInt64 (ns / nsPerSec + sntpUnixEpochDelta) := by
    unfold FitsInt64 sntpUnixEpochDelta nsPerSec at *
    omega
  have hshiftFits : FitsInt64 (ns % nsPerSec * 2 ^ 32) := by
    unfold FitsInt64 nsPerSec at *
    omega
  have hfracFits : FitsInt64 (ns % nsPerSec * 2 ^ 32 / nsPerSec) := by
    unfold FitsInt64 nsPerSec at *
    omega
  rw [unixNsToNtpTs_eq]
  unfold unixNsToNtpTsChecked
  simp only [hsec, hrem, longLong_of_fits _ hsecFits, longLong_of_fits _ hremFits, if_neg hcarry,
    longLong_of_fits _ hntpFits, longLong_of_fits _ hshiftFits, hfrac,
    longLong_of_fits _ hfracFits, Option.bind_eq_bind, Option.bind_some]

/-- INTERNAL: **the codec as a function**: it succeeds on every instant from 1970 on. -/
theorem throughStamp_eq (ns : ℤ) (h : IsReading ns) :
    throughStamp ns = some (some (stampedNs ns)) := by
  obtain ⟨hsec, hfrac⟩ := readBe32_unixNsToNtpTs ns (inEra_of_isReading ns h)
  obtain ⟨hchecked, hread, -⟩ := ntpTsToUnixNsChecked_eq (unixNsToNtpTs ns)
  have hera : StampInEra (unixNsToNtpTs ns) := by
    have hunits : 0 ≤ ns / nsPerSec := Int.ediv_nonneg h.1 (by decide)
    unfold StampInEra
    rw [hsec]
    omega
  have hvalue : stampNs (unixNsToNtpTs ns) = stampedNs ns := by
    unfold stampNs
    rw [hsec, hfrac, add_sub_cancel_right]
    rfl
  unfold throughStamp
  rw [unixNsToNtpTsChecked_eq ns h, Option.bind_some, hchecked, hread hera, hvalue]

/-- INTERNAL: a stamp is at most a nanosecond behind. -/
theorem stampedNs_bounds (ns : ℤ) : ns - 1 ≤ stampedNs ns ∧ stampedNs ns ≤ ns :=
  FixedPoint.throughParts_bounds nsPerSec (2 ^ 32) (by decide) (by decide) ns

/-- INTERNAL: later readings have no earlier stamps. -/
theorem stampedNs_mono (ns ms : ℤ) (h : ns ≤ ms) : stampedNs ns ≤ stampedNs ms :=
  FixedPoint.throughParts_mono nsPerSec (2 ^ 32) (by decide) (by decide) ns ms h

/-- INTERNAL: what is read back is an instant from 1970 on again. -/
theorem stampedNs_isReading (ns : ℤ) (h : IsReading ns) : IsReading (stampedNs ns) := by
  have hnonneg : 0 ≤ stampedNs ns :=
    FixedPoint.throughParts_nonneg nsPerSec (2 ^ 32) (by decide) (by decide) ns h.1
  exact ⟨hnonneg, (stampedNs_bounds ns).2.trans_lt h.2⟩

/-- **The codec of NTP stamps.** An instant from 1970 until the seconds of a stamp start again
goes through a stamp without leaving `long long`, and comes back as itself or a nanosecond less;
a later instant comes back no earlier, and what came back goes through a stamp again at the cost
of another nanosecond at most.
SRCLINE: sntp.c:60-130 -/
theorem ntp_stamp_codec (ns : ℤ) (h : 0 ≤ ns ∧ ns < (2 ^ 32 - sntpUnixEpochDelta) * nsPerSec) :
    ∃ back, throughStamp ns = some (some back) ∧ (back = ns ∨ back = ns - 1) ∧
      (∀ later, ns ≤ later → later < (2 ^ 32 - sntpUnixEpochDelta) * nsPerSec →
        ∃ laterBack, throughStamp later = some (some laterBack) ∧ back ≤ laterBack) ∧
      ∃ again, throughStamp back = some (some again) ∧ back - 1 ≤ again ∧ again ≤ back := by
  have hback := stampedNs_isReading ns h
  have hbounds := stampedNs_bounds ns
  refine ⟨stampedNs ns, throughStamp_eq ns h, by omega, ?_, ?_⟩
  · intro later hlater hend
    have hreading : IsReading later := ⟨h.1.trans hlater, hend⟩
    exact ⟨stampedNs later, throughStamp_eq later hreading, stampedNs_mono ns later hlater⟩
  · exact ⟨stampedNs (stampedNs ns), throughStamp_eq _ hback, stampedNs_bounds (stampedNs ns)⟩

/-- A moment of July 2025 with nanoseconds. -/
theorem ntp_stamp_codec_one :
    ∃ back, throughStamp 1753920000123456789 = some (some back) ∧
      (back = 1753920000123456789 ∨ back = 1753920000123456789 - 1) :=
  let ⟨back, hback, hvalue, _⟩ := ntp_stamp_codec 1753920000123456789 (by decide)
  ⟨back, hback, hvalue⟩

end OpenHes.Analysis
