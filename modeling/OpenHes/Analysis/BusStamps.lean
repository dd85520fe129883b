import OpenHes.Model.Clock
import Mathlib.Data.List.Chain

/-!
# The order of the time stamps

The stamp of a message is the clock of the host and the correction in force, so a new
correction that is lower may take it back. The stamps of a process are in order exactly when
no correction falls, from one message to the next, by more than the clock of the host has
gone on.
-/

set_option autoImplicit false

namespace OpenHes.Analysis

open OpenHes.Library OpenHes.Model

/-- What a step must not do: send a message for which the correction has fallen, since the
last one, by more than the host clock has gone on. Before 1970 a stamp is zero. -/
def KeepsUp (s : ClockState) : ClockStep → Prop
  | .stamp =>
    ∀ ts ∈ s.reading, ∀ last ∈ s.sent.getLast?,
      last.correction - s.offsetNs ≤ timespecToNs ts - timespecToNs last.host ∨
        timespecToNs last.host + last.correction ≤ 0
  | _ => True

/-- Every step of the schedule keeps up. -/
def KeepsUpAll (s : ClockState) : List ClockStep → Prop
  | [] => True
  | a :: steps => KeepsUp s a ∧ KeepsUpAll (clockStep s a) steps

/-- The stamps of the messages of a process, in the order they were sent. -/
def stamps (s : ClockState) : List ℕ := s.sent.map StampedSend.timestampNs

/-- Every stamp is the reading and the correction that were taken for it. -/
def Stamped (s : ClockState) : Prop :=
  ∀ e ∈ s.sent, e.timestampNs = hesClockNowNs e.correction (some e.host)

/-- INTERNAL: a step leaves every stamp what the clock gave. -/
theorem clockStep_stamped (s : ClockState) (a : ClockStep) (h : Stamped s) :
    Stamped (clockStep s a) := by
  cases a with
  | advance ns => exact h
  | refreshTime request reply localRecv =>
    unfold clockStep
    dsimp only
    split
    · exact h
    · exact h
  | readClock =>
    unfold clockStep
    dsimp only
    split
    · exact h
    · exact h
  | stamp =>
    unfold clockStep
    dsimp only
    split
    · exact h
    · intro e he
      rcases List.mem_append.mp he with he | he
      · exact h e he
      · rw [List.mem_singleton.mp he]

/-- INTERNAL: one correction after another gives stamps in order exactly when it has not
fallen too far. -/
theorem hesClockNowNs_le (c1 c2 : ℤ) (ts1 ts2 : Timespec) :
    hesClockNowNs c1 (some ts1) ≤ hesClockNowNs c2 (some ts2) ↔
      c1 - c2 ≤ timespecToNs ts2 - timespecToNs ts1 ∨ timespecToNs ts1 + c1 ≤ 0 := by
  unfold hesClockNowNs
  dsimp only
  omega

/-- INTERNAL: **a step** keeps the stamps in order exactly when it keeps up. -/
theorem clockStep_ordered (s : ClockState) (a : ClockStep) (hstamped : Stamped s) :
    (stamps (clockStep s a)).IsChain (· ≤ ·) ↔
      (stamps s).IsChain (· ≤ ·) ∧ KeepsUp s a := by
  cases a with
  | advance ns => simp [clockStep, stamps, KeepsUp]
  | refreshTime request reply localRecv =>
    have hsent : (clockStep s (.refreshTime request reply localRecv)).sent = s.sent := by
      unfold clockStep
      dsimp only
      split <;> rfl
    simp [stamps, hsent, KeepsUp]
  | readClock =>
    have hsent : (clockStep s .readClock).sent = s.sent := by
      unfold clockStep
      dsimp only
      split <;> rfl
    simp [stamps, hsent, KeepsUp]
  | stamp =>
    cases hreading : s.reading with
    | none => simp [clockStep, stamps, KeepsUp, hreading]
    | some ts =>
      have hlast : (∀ x ∈ (stamps s).getLast?, x ≤ hesClockNowNs s.offsetNs (some ts)) ↔
          KeepsUp s .stamp := by
        unfold stamps KeepsUp
        rw [List.getLast?_map, hreading]
        cases hsent : s.sent.getLast? with
        | none => simp
        | some last =>
          have hmem : last ∈ s.sent := List.mem_of_getLast? hsent
          simp [hstamped last hmem, hesClockNowNs_le]
      rw [← hlast]
      unfold stamps clockStep
      simp [hreading, List.isChain_append]

/-- INTERNAL: **a schedule** keeps the stamps in order exactly when every step keeps up. -/
theorem clockRun_ordered (s : ClockState) (steps : List ClockStep) (hstamped : Stamped s) :
    (stamps (clockRun s steps)).IsChain (· ≤ ·) ↔
      (stamps s).IsChain (· ≤ ·) ∧ KeepsUpAll s steps := by
  induction steps generalizing s with
  | nil => simp [clockRun, KeepsUpAll]
  | cons a steps ih =>
    have hstep := ih (clockStep s a) (clockStep_stamped s a hstamped)
    unfold clockRun at hstep ⊢
    rw [List.foldl_cons, hstep, clockStep_ordered s a hstamped, KeepsUpAll, and_assoc]

/-- **Stamps in order.** A process starts at any time of its host clock, which never goes
back, and every correction comes of an accepted exchange: the stamps of its messages are in
order exactly when, from each message to the next, the correction falls by no more than the
host clock goes on.
SRCLINE: hes_bus.c:169-183 -/
theorem stamps_in_order (host : ℤ) (steps : List ClockStep) :
    (stamps (clockRun { host := host } steps)).Pairwise (· ≤ ·) ↔
      KeepsUpAll { host := host } steps := by
  have hstamped : Stamped { host := host } := by
    intro e he
    cases he
  rw [← List.isChain_iff_pairwise, clockRun_ordered _ steps hstamped]
  simp [stamps]

/-- An exchange, without delays, with a server that is ahead by `theta`. -/
def exchangeAt (now theta : ℤ) : ClockStep :=
  .refreshTime (sntpBuildRequest (clockGettime now))
    ((4 * 8 + 4) :: 2 :: (List.replicate 22 0 ++ unixNsToNtpTs now ++
      unixNsToNtpTs (now + theta) ++ unixNsToNtpTs (now + theta)))
    (clockGettime now)

/-- A message while the gateway goes by a server that is five seconds ahead, and one a
millisecond later when it goes by another. -/
def correctedBack : List ClockStep :=
  [exchangeAt 1753920000000000000 5000000000, .readClock, .stamp, .advance 1000000,
    exchangeAt 1753920000001000000 0, .readClock, .stamp]

/-- A correction back between two sends puts the later stamp first. -/
theorem stamps_not_in_order :
    ¬ (stamps (clockRun { host := 1753920000000000000 } correctedBack)).Pairwise (· ≤ ·) := by
  decide +kernel

end OpenHes.Analysis
