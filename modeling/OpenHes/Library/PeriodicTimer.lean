import Mathlib.Data.Int.Order.Basic
import Mathlib.Data.List.Chain

/-!
# Periodic timers

A timer is tested against its deadline, its job is started once the deadline has come, and when
the job is done the timer is set anew: for a later instant, or for never, which is a deadline
below zero. Nothing is asked of when the tests are made. Where each new deadline is at least a
gap behind the end of the job, the jobs start at least that gap apart.
-/

set_option autoImplicit false

namespace OpenHes.Library

/-- Whether the timer waits, its deadline has come, or its job runs. -/
inductive TimerPhase
  | waiting
  | due
  | running
  deriving DecidableEq

/-- A timer: its deadline, and when its job was started. -/
structure PeriodicTimer where
  deadline : ℤ
  phase : TimerPhase
  starts : List ℤ

/-- What is done with a timer. -/
inductive TimerStep
  | idle
  | test
  | start
  | rearm (deadline : ℤ)

namespace PeriodicTimer

/-- One step, at an instant. -/
def step (t : PeriodicTimer) (now : ℤ) : TimerStep → PeriodicTimer
  | .idle => t
  | .test =>
    if t.phase = .waiting ∧ 0 ≤ t.deadline ∧ t.deadline ≤ now then { t with phase := .due } else t
  | .start =>
    if t.phase = .due then { t with phase := .running, starts := t.starts ++ [now] } else t
  | .rearm deadline =>
    if t.phase = .running then { t with deadline := deadline, phase := .waiting } else t

/-- A new deadline is at least a gap away, or it is never. -/
def KeepsGap (gap now : ℤ) : TimerStep → Prop
  | .rearm deadline => deadline < 0 ∨ now + gap ≤ deadline
  | _ => True

/-- **The invariant** of a timer at an instant: the jobs so far started a gap apart, and the last
one started a gap before a deadline that is not never. -/
structure Sound (gap now : ℤ) (t : PeriodicTimer) : Prop where
  spaced : t.starts.IsChain fun a b => a + gap ≤ b
  waiting : t.phase = .waiting → 0 ≤ t.deadline → ∀ a ∈ t.starts.getLast?, a + gap ≤ t.deadline
  due : t.phase = .due → t.deadline ≤ now ∧ ∀ a ∈ t.starts.getLast?, a + gap ≤ t.deadline
  running : t.phase = .running → ∀ a ∈ t.starts.getLast?, a ≤ now

/-- INTERNAL: a new timer is sound. -/
theorem sound_new (gap deadline : ℤ) : Sound gap 0 ⟨deadline, .waiting, []⟩ :=
  ⟨List.isChain_nil, fun _ _ a ha => (Option.not_mem_none a ha).elim,
    fun h => TimerPhase.noConfusion h, fun h => TimerPhase.noConfusion h⟩

/-- INTERNAL: a sound timer stays so while the clock goes on. -/
theorem Sound.later {gap now later : ℤ} {t : PeriodicTimer} (h : Sound gap now t)
    (hle : now ≤ later) : Sound gap later t :=
  ⟨h.spaced, h.waiting, fun hdue => ⟨(h.due hdue).1.trans hle, (h.due hdue).2⟩,
    fun hrunning a ha => (h.running hrunning a ha).trans hle⟩

/-- INTERNAL: **one step** keeps the invariant, at whatever later instant it is taken. -/
theorem Sound.step {gap before now : ℤ} {t : PeriodicTimer} (h : Sound gap before t)
    (hle : before ≤ now) (a : TimerStep) (hgap : KeepsGap gap now a) :
    Sound gap now (t.step now a) := by
  have hlater := h.later hle
  cases a with
  | idle => exact hlater
  | test =>
    by_cases htest : t.phase = .waiting ∧ 0 ≤ t.deadline ∧ t.deadline ≤ now
    · simp only [PeriodicTimer.step, if_pos htest]
      obtain ⟨hphase, hset, hcome⟩ := htest
      exact ⟨h.spaced, fun h => TimerPhase.noConfusion h,
        fun _ => ⟨hcome, h.waiting hphase hset⟩, fun h => TimerPhase.noConfusion h⟩
    · simp only [PeriodicTimer.step, if_neg htest]
      exact hlater
  | start =>
    by_cases hdue : t.phase = .due
    · simp only [PeriodicTimer.step, if_pos hdue]
      obtain ⟨hcome, hlast⟩ := hlater.due hdue
      have hspaced : (t.starts ++ [now]).IsChain fun a b => a + gap ≤ b := by
        apply List.IsChain.append h.spaced (List.isChain_singleton now)
        intro a ha b hb
        have hb : now = b := Option.some.inj hb
        have := hlast a ha
        omega
      refine ⟨hspaced, fun h => TimerPhase.noConfusion h, fun h => TimerPhase.noConfusion h,
        fun _ a ha => ?_⟩
      rw [List.getLast?_concat] at ha
      exact (Option.some.inj ha).symm.le
    · simp only [PeriodicTimer.step, if_neg hdue]
      exact hlater
  | rearm deadline =>
    by_cases hrunning : t.phase = .running
    · simp only [PeriodicTimer.step, if_pos hrunning]
      refine ⟨h.spaced, fun _ hset a ha => ?_, fun h => TimerPhase.noConfusion h,
        fun h => TimerPhase.noConfusion h⟩
      have hstarted := hlater.running hrunning a ha
      rcases hgap with hnever | hgap
      · exact absurd hset (by simp only; omega)
      · simp only
        omega
    · simp only [PeriodicTimer.step, if_neg hrunning]
      exact hlater

/-- A timer that is never due: its deadline is never, and its job has not been started. -/
structure Silent (t : PeriodicTimer) : Prop where
  never : t.deadline < 0
  waiting : t.phase = .waiting
  starts : t.starts = []

/-- INTERNAL: a timer that is set to never stays silent. -/
theorem Silent.step {now : ℤ} {t : PeriodicTimer} (h : Silent t) (a : TimerStep) :
    Silent (t.step now a) := by
  have hsame : t.step now a = t := by
    have hphase := h.waiting
    have hnever := h.never
    cases a with
    | idle => rfl
    | test => exact if_neg fun htest => absurd htest.2.1 (by omega)
    | start => exact if_neg (by rw [hphase]; decide)
    | rearm deadline => exact if_neg (by rw [hphase]; decide)
  rw [hsame]
  exact h

end PeriodicTimer

end OpenHes.Library
