import OpenHes.Analysis.BusStamps
import OpenHes.Analysis.SntpAccuracy

/-!
# How far off a time stamp is

The stamp of a message is what was read of the host clock, with the correction in force when it is
made. Whatever the servers reply, that is within a day of the host clock; and behind an accepted
exchange with servers of one clock, it is within half of the way of that clock, which is half a
minute at most.
-/

set_option autoImplicit false

namespace OpenHes.Analysis

open OpenHes.Library OpenHes.Model

/-! ## The corrections -/

/-- INTERNAL: **what is accepted** is in bounds: the offset is less than a day, and the way that was
measured less than a minute. -/
theorem sntpComputeOffset_bounds (request reply : List UInt8) (localRecv : Timespec)
    (r : SntpResult) (h : sntpComputeOffset request reply localRecv = some r) :
    |r.offsetNs| ≤ sntpMaxOffsetNs ∧
      ∃ s1 s2 s3, ntpTsToUnixNs (ntpTimestamp request ntpTransmitTs) = some s1 ∧
        ntpTsToUnixNs (ntpTimestamp reply ntpReceiveTs) = some s2 ∧
        ntpTsToUnixNs (ntpTimestamp reply ntpTransmitTs) = some s3 ∧
        r.offsetNs = ((s2 - s1) + (s3 - timespecToNs localRecv)).tdiv 2 ∧
        (timespecToNs localRecv - s1) - (s3 - s2) ≤ sntpMaxDelayNs := by
  unfold sntpComputeOffset at h
  split at h
  · cases h
  dsimp only at h
  split at h
  · cases h
  split at h
  · cases h
  simp only [Option.bind_eq_some_iff] at h
  obtain ⟨s1, hs1, s2, hs2, s3, hs3, h⟩ := h
  unfold offsetOfReadings at h
  split at h
  · cases h
  dsimp only at h
  split at h
  · cases h
  next hdelay =>
    split at h
    · cases h
    next hoffset =>
      cases h
      simp only [Bool.or_eq_true, decide_eq_true_eq, not_or, not_lt] at hdelay hoffset
      refine ⟨?_, s1, s2, s3, hs1, hs2, hs3, rfl, hdelay.2⟩
      show |((s2 - s1) + (s3 - timespecToNs localRecv)).tdiv 2| ≤ sntpMaxOffsetNs
      rw [abs_le]
      omega

/-- The correction is one that an exchange among the steps has set. -/
def AcceptedIn (steps : List ClockStep) (c : ℤ) : Prop :=
  ∃ request reply localRecv r, .refreshTime request reply localRecv ∈ steps ∧
    sntpComputeOffset request reply localRecv = some r ∧ r.offsetNs = c

/-- INTERNAL: what was accepted in a schedule was accepted in a longer one. -/
theorem AcceptedIn.mono {steps more : List ClockStep} {c : ℤ} (h : AcceptedIn steps c)
    (hsub : steps ⊆ more) : AcceptedIn more c := by
  obtain ⟨request, reply, localRecv, r, hmem, hr⟩ := h
  exact ⟨request, reply, localRecv, r, hsub hmem, hr⟩

/-- INTERNAL: a step keeps the offset or sets an accepted one. -/
theorem clockStep_offset (s : ClockState) (a : ClockStep) :
    (clockStep s a).offsetNs = s.offsetNs ∨ AcceptedIn [a] (clockStep s a).offsetNs := by
  cases a with
  | refreshTime request reply localRecv =>
    unfold clockStep
    dsimp only
    cases hr : sntpComputeOffset request reply localRecv with
    | none => exact Or.inl rfl
    | some r => exact Or.inr ⟨request, reply, localRecv, r, List.mem_cons_self, hr, rfl⟩
  | advance ns => exact Or.inl rfl
  | readClock =>
    unfold clockStep
    dsimp only
    split <;> exact Or.inl rfl
  | stamp =>
    unfold clockStep
    dsimp only
    split <;> exact Or.inl rfl

/-! ## The readings -/

/-- The host clock, and what was read of it, is not before an instant. -/
structure NotBefore (floor : ℤ) (s : ClockState) : Prop where
  host : floor ≤ s.host
  reading : ∀ ts ∈ s.reading, floor ≤ timespecToNs ts

/-- INTERNAL: every clock is not before some instant. -/
theorem notBefore_least (s : ClockState) :
    NotBefore (min s.host ((s.reading.map timespecToNs).getD s.host)) s := by
  refine ⟨min_le_left _ _, fun ts hts => ?_⟩
  rw [hts, Option.map_some, Option.getD_some]
  exact min_le_right _ _

/-- INTERNAL: the clock's two fields hold its reading. -/
theorem clockGettime_ns (host : ℤ) : timespecToNs (clockGettime host) = host := by
  unfold timespecToNs clockGettime
  have := Int.ediv_mul_add_emod host nsPerSec
  exact this

/-- INTERNAL: a step keeps the clock behind the floor. -/
theorem clockStep_notBefore (floor : ℤ) (s : ClockState) (a : ClockStep) (h : NotBefore floor s) :
    NotBefore floor (clockStep s a) := by
  cases a with
  | advance ns =>
    refine ⟨?_, h.reading⟩
    show floor ≤ s.host + ns
    have := h.host
    omega
  | refreshTime request reply localRecv =>
    unfold clockStep
    dsimp only
    split
    · exact h
    · exact ⟨h.host, h.reading⟩
  | readClock =>
    unfold clockStep
    dsimp only
    split
    · refine ⟨h.host, fun ts hts => ?_⟩
      obtain rfl := Option.some.inj hts
      rw [clockGettime_ns]
      exact h.host
    · exact h
  | stamp =>
    unfold clockStep
    dsimp only
    split
    · exact h
    · exact ⟨h.host, fun ts hts => by cases hts⟩

/-! ## The stamps -/

/-- The stamp was made of a reading that is not before the instant, and of a correction of which
something holds. -/
structure MadeOf (floor : ℤ) (P : ℤ → Prop) (e : StampedSend) : Prop where
  stamp : e.timestampNs = hesClockNowNs e.correction (some e.host)
  host : floor ≤ timespecToNs e.host
  correction : P e.correction

/-- INTERNAL: **a step** sends one message at most, with the correction in force. -/
theorem clockStep_sent (floor : ℤ) (s : ClockState) (a : ClockStep) (h : NotBefore floor s) :
    ∃ new, (clockStep s a).sent = s.sent ++ new ∧
      ∀ e ∈ new, MadeOf floor (fun c => c = s.offsetNs) e := by
  cases a with
  | advance ns => exact ⟨[], (List.append_nil _).symm, by simp⟩
  | refreshTime request reply localRecv =>
    refine ⟨[], ?_, by simp⟩
    unfold clockStep
    dsimp only
    split <;> exact (List.append_nil _).symm
  | readClock =>
    refine ⟨[], ?_, by simp⟩
    unfold clockStep
    dsimp only
    split <;> exact (List.append_nil _).symm
  | stamp =>
    cases hreading : s.reading with
    | none =>
      refine ⟨[], ?_, by simp⟩
      unfold clockStep
      dsimp only
      rw [hreading]
      exact (List.append_nil _).symm
    | some ts =>
      refine ⟨[⟨ts, s.offsetNs, hesClockNowNs s.offsetNs (some ts)⟩], ?_, ?_⟩
      · unfold clockStep
        dsimp only
        rw [hreading]
      · intro e he
        rw [List.mem_singleton.mp he]
        exact ⟨rfl, h.reading ts hreading, rfl⟩

/-- INTERNAL: **a run** sends messages with the correction that it starts with, or one that was
accepted in it. -/
theorem clockRun_sent (floor : ℤ) (steps : List ClockStep) (s : ClockState)
    (h : NotBefore floor s) :
    NotBefore floor (clockRun s steps) ∧
      ((clockRun s steps).offsetNs = s.offsetNs ∨ AcceptedIn steps (clockRun s steps).offsetNs) ∧
      ∃ new, (clockRun s steps).sent = s.sent ++ new ∧
        ∀ e ∈ new, MadeOf floor (fun c => c = s.offsetNs ∨ AcceptedIn steps c) e := by
  induction steps generalizing s with
  | nil => exact ⟨h, Or.inl rfl, [], (List.append_nil _).symm, by simp⟩
  | cons a rest ih =>
    obtain ⟨hbefore, hoffset, more, hmore, hmade⟩ := ih _ (clockStep_notBefore floor s a h)
    obtain ⟨new, hnew, hfirst⟩ := clockStep_sent floor s a h
    have hone := clockStep_offset s a
    have hsub : rest ⊆ a :: rest := List.subset_cons_self a rest
    have hhead : [a] ⊆ a :: rest := by simp
    refine ⟨hbefore, ?_, new ++ more, ?_, fun e he => ?_⟩
    · rcases hoffset with hsame | hacc
      · rw [show clockRun s (a :: rest) = clockRun (clockStep s a) rest from rfl, hsame]
        exact hone.imp id fun hacc => hacc.mono hhead
      · exact Or.inr (hacc.mono hsub)
    · rw [show clockRun s (a :: rest) = clockRun (clockStep s a) rest from rfl, hmore, hnew,
        List.append_assoc]
    · rcases List.mem_append.mp he with he | he
      · have hm := hfirst e he
        exact ⟨hm.stamp, hm.host, Or.inl hm.correction⟩
      · have hm := hmade e he
        refine ⟨hm.stamp, hm.host, ?_⟩
        rcases hm.correction with hsame | hacc
        · rw [hsame]
          exact hone.imp id fun hacc => hacc.mono hhead
        · exact Or.inr (hacc.mono hsub)

/-- INTERNAL: behind an accepted exchange, the correction in force is of one. -/
theorem clockRun_accepted (steps : List ClockStep) (s : ClockState)
    (h : ∃ c, AcceptedIn steps c) : AcceptedIn steps (clockRun s steps).offsetNs := by
  induction steps generalizing s with
  | nil =>
    obtain ⟨c, request, reply, localRecv, r, hmem, -⟩ := h
    cases hmem
  | cons a rest ih =>
    have hsub : rest ⊆ a :: rest := List.subset_cons_self a rest
    by_cases hrest : ∃ c, AcceptedIn rest c
    · exact (ih (clockStep s a) hrest).mono hsub
    · obtain ⟨c, request, reply, localRecv, r, hmem, hr, -⟩ := h
      rcases List.mem_cons.mp hmem with rfl | hmem
      · refine ⟨request, reply, localRecv, r, List.mem_cons_self, hr, ?_⟩
        have hset : (clockStep s (.refreshTime request reply localRecv)).offsetNs = r.offsetNs := by
          unfold clockStep
          dsimp only
          rw [hr]
        rcases (clockRun_sent _ rest _ (notBefore_least _)).2.1 with hsame | hacc
        · exact hset.symm.trans hsame.symm
        · exact absurd ⟨_, hacc⟩ hrest
      · exact absurd ⟨_, request, reply, localRecv, r, hmem, hr, rfl⟩ hrest

/-- INTERNAL: a stamp is as far off a clock as its correction is off the difference to it, as long
as that clock is past 1970. -/
theorem stamp_error (c theta : ℤ) (host : Timespec) (h : 0 ≤ timespecToNs host + theta) :
    |(hesClockNowNs c (some host) : ℤ) - (timespecToNs host + theta)| ≤ |c - theta| := by
  unfold hesClockNowNs
  dsimp only
  rcases abs_cases (((timespecToNs host + c).toNat : ℤ) - (timespecToNs host + theta)) with
    ⟨heq, hsign⟩ | ⟨heq, hsign⟩
  · rcases abs_cases (c - theta) with ⟨heq', hsign'⟩ | ⟨heq', hsign'⟩
    · omega
    · omega
  · rcases abs_cases (c - theta) with ⟨heq', hsign'⟩ | ⟨heq', hsign'⟩
    · omega
    · omega

/-! ## Honest servers -/

/-- An exchange over a path with the delays `d1` and `d2`, with a server whose clock is the local
one and `theta`, and which holds the request for a while. -/
structure HonestExchange (theta d1 d2 : ℤ) (request reply : List UInt8) (t1 t4 : Timespec)
    (hold : ℤ) : Prop where
  out : 0 ≤ d1
  back : 0 ≤ d2
  request : request = sntpBuildRequest t1
  received : timespecToNs t4 = timespecToNs t1 + d1 + hold + d2
  sentEra : InEra (timespecToNs t1)
  receiveEra : InEra (timespecToNs t1 + d1 + theta)
  transmitEra : InEra (timespecToNs t1 + d1 + hold + theta)
  receive : ntpTimestamp reply ntpReceiveTs = unixNsToNtpTs (timespecToNs t1 + d1 + theta)
  transmit : ntpTimestamp reply ntpTransmitTs =
    unixNsToNtpTs (timespecToNs t1 + d1 + hold + theta)

/-- The exchange is honest, over a way of at most `way`. -/
def HonestWithin (theta way : ℤ) (request reply : List UInt8) (localRecv : Timespec) : Prop :=
  ∃ d1 d2 t1 hold, d1 + d2 ≤ way ∧ HonestExchange theta d1 d2 request reply t1 localRecv hold

/-- INTERNAL: **the correction of an honest exchange** is off by half of its way, and of a minute,
at most. -/
theorem honest_correction (theta way : ℤ) (request reply : List UInt8) (localRecv : Timespec)
    (hhonest : HonestWithin theta way request reply localRecv) (r : SntpResult)
    (hr : sntpComputeOffset request reply localRecv = some r) :
    2 * |r.offsetNs - theta| ≤ min way sntpMaxDelayNs + 4 := by
  obtain ⟨d1, d2, t1, hold, hway, h⟩ := hhonest
  obtain ⟨-, s1, s2, s3, hs1, hs2, hs3, hoffset, hdelay⟩ := sntpComputeOffset_bounds _ _ _ r hr
  rw [h.request, ntpTimestamp_sntpBuildRequest] at hs1
  rw [h.receive] at hs2
  rw [h.transmit] at hs3
  have hr1 := ntpTsToUnixNs_unixNsToNtpTs _ s1 h.sentEra hs1
  have hr2 := ntpTsToUnixNs_unixNsToNtpTs _ s2 h.receiveEra hs2
  have hr3 := ntpTsToUnixNs_unixNsToNtpTs _ s3 h.transmitEra hs3
  have herror := FixedPoint.offset_error _ _ theta d1 d2 hold h.out h.back h.received s1 s2 s3 hr1
    hr2 hr3
  have hreceived := h.received
  rw [hoffset]
  omega

/-- **Stamps follow the servers**, in every schedule of the sending thread, the sync thread and the
host clock of a process. Whatever the servers reply, a stamp is within a day of what was read of the
host clock for it. And where the exchanges that are accepted are honest, the stamps behind the first
of them are off the servers' clock by half of the longest way at most, which is never more than half
a minute.
SRCLINE: common/hes_bus.c:171-183, common/hes_clock.c, services/time/sntp.c:147-214 -/
theorem stamps_follow_servers (host : ℤ) (hhost : 0 ≤ host) (steps later : List ClockStep) :
    (∀ e ∈ (clockRun { host := host } steps).sent,
      |(e.timestampNs : ℤ) - timespecToNs e.host| ≤ sntpMaxOffsetNs) ∧
    ∀ theta way, 0 ≤ host + theta →
      (∃ c, AcceptedIn steps c) →
      (∀ request reply localRecv r, .refreshTime request reply localRecv ∈ steps ++ later →
        sntpComputeOffset request reply localRecv = some r →
        HonestWithin theta way request reply localRecv) →
      ∃ new, (clockRun { host := host } (steps ++ later)).sent =
          (clockRun { host := host } steps).sent ++ new ∧
        ∀ e ∈ new, 2 * |(e.timestampNs : ℤ) - (timespecToNs e.host + theta)| ≤
          min way sntpMaxDelayNs + 4 := by
  have hstart : NotBefore host { host := host } := ⟨le_refl _, fun ts hts => by cases hts⟩
  obtain ⟨hbefore, hoffset, sent, hsent, hmade⟩ := clockRun_sent host steps _ hstart
  constructor
  · intro e he
    rw [hsent, List.nil_append] at he
    have hm := hmade e he
    have hbound : |e.correction - 0| ≤ sntpMaxOffsetNs := by
      rw [sub_zero]
      rcases hm.correction with hzero | ⟨request, reply, localRecv, r, -, hr, hc⟩
      · rw [hzero]
        show |(0 : ℤ)| ≤ sntpMaxOffsetNs
        decide
      · rw [← hc]
        exact (sntpComputeOffset_bounds _ _ _ r hr).1
    have herror := stamp_error e.correction 0 e.host (by have := hm.host; omega)
    rw [add_zero] at herror
    rw [hm.stamp]
    exact herror.trans hbound
  · intro theta way htheta hset honest
    have hexact : ∀ c, AcceptedIn (steps ++ later) c →
        2 * |c - theta| ≤ min way sntpMaxDelayNs + 4 := by
      rintro c ⟨request, reply, localRecv, r, hmem, hr, rfl⟩
      exact honest_correction theta way _ _ _ (honest _ _ _ r hmem hr) r hr
    obtain ⟨-, -, new, hnew, hmade'⟩ := clockRun_sent host later _ hbefore
    refine ⟨new, ?_, fun e he => ?_⟩
    · unfold clockRun at hnew ⊢
      rw [List.foldl_append]
      exact hnew
    · have hm := hmade' e he
      have hacc : AcceptedIn (steps ++ later) e.correction := by
        rcases hm.correction with hsame | hacc
        · rw [hsame]
          exact (clockRun_accepted steps _ hset).mono (List.subset_append_left _ _)
        · exact hacc.mono (List.subset_append_right _ _)
      have hcorrection := hexact e.correction hacc
      have herror := stamp_error e.correction theta e.host (by have := hm.host; omega)
      rw [hm.stamp]
      omega

/-- Half a second past the start, a message goes out by a server that is five seconds ahead. -/
theorem stamps_follow_servers_ahead :
    ∃ new, (clockRun { host := 1753920000000000000 }
        ([exchangeAt 1753920000000000000 5000000000] ++ [.advance 500000000, .readClock, .stamp])).sent =
          (clockRun { host := 1753920000000000000 }
            [exchangeAt 1753920000000000000 5000000000]).sent ++ new ∧
      ∀ e ∈ new, 2 * |(e.timestampNs : ℤ) - (timespecToNs e.host + 5000000000)| ≤
        min 0 sntpMaxDelayNs + 4 := by
  have haccepted : (sntpComputeOffset (sntpBuildRequest (clockGettime 1753920000000000000))
      ((4 * 8 + 4) :: 2 :: (List.replicate 22 0 ++ unixNsToNtpTs 1753920000000000000 ++
        unixNsToNtpTs 1753920005000000000 ++ unixNsToNtpTs 1753920005000000000))
      (clockGettime 1753920000000000000)).isSome = true := by decide +kernel
  obtain ⟨r, hr⟩ := Option.isSome_iff_exists.mp haccepted
  refine (stamps_follow_servers 1753920000000000000 (by decide)
    [exchangeAt 1753920000000000000 5000000000] [.advance 500000000, .readClock, .stamp]).2
    5000000000 0 (by decide) ⟨_, _, _, _, r, List.mem_cons_self, hr, rfl⟩ ?_
  intro request reply localRecv r' hmem _
  have hexchange : ClockStep.refreshTime request reply localRecv =
      exchangeAt 1753920000000000000 5000000000 := by
    simpa using hmem
  obtain ⟨rfl, rfl, rfl⟩ := ClockStep.refreshTime.inj hexchange
  exact ⟨0, 0, clockGettime 1753920000000000000, 0, le_refl _,
    { out := le_refl _
      back := le_refl _
      request := rfl
      received := by decide
      sentEra := by decide
      receiveEra := by decide
      transmitEra := by decide
      receive := by decide +kernel
      transmit := by decide +kernel }⟩

end OpenHes.Analysis
