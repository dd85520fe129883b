import OpenHes.Analysis.SyncSchedule
import OpenHes.Library.PaidSteps
import OpenHes.Model.SyncStop

/-!
# The stop of the sync thread is not lost

However the sync thread and `time_sync_stop` take turns: once the stop was told, the thread is not
left asleep; it starts each refresh once more at most and no wait; it comes to its end within eight
steps of its own; and nothing of it runs when the memory goes.
-/

set_option autoImplicit false

namespace OpenHes.Analysis

open OpenHes.Library OpenHes.Model

/-! ## The invariant -/

/-- How far `time_sync_stop` has come. -/
def stopReached : StopPhase → ℕ
  | .running => 0
  | .locked => 1
  | .flagged => 2
  | .signalled => 3
  | .joining => 4
  | .joined => 5
  | .condDestroyed => 6
  | .mutexDestroyed => 7
  | .freed => 8

/-- **The invariant of the two threads.** -/
structure StopSound (s : SyncThreads) : Prop where
  stopper_holds : s.owner = some .stopper ↔ 1 ≤ stopReached s.stopper ∧ stopReached s.stopper ≤ 3
  worker_holds : s.owner = some .syncThread → s.worker.needsMutex = true
  flag : s.stop = true ↔ 2 ≤ stopReached s.stopper
  told : 3 ≤ stopReached s.stopper → s.worker.phase = .asleep → s.woken = true
  ended : 5 ≤ stopReached s.stopper → s.worker.phase = .stopped

/-- INTERNAL: the threads that start are sound. -/
theorem stopSound_start (cfg : TimeSyncSetup) : StopSound (syncThreadsStart cfg) := by
  constructor <;> simp [syncThreadsStart, stopReached]

/-- INTERNAL: the worker takes the mutex in front of its wait, and behind it. -/
theorem needsMutex_iff (w : Worker) :
    w.needsMutex = true ↔ w.phase = .lock ∨ w.phase = .asleep := by
  simp [Worker.needsMutex]

/-- INTERNAL: the stop destroys from its sixth place on. -/
theorem destroys_iff (p : StopPhase) : p.destroys = true ↔ 6 ≤ stopReached p := by
  cases p <;> decide

/-- INTERNAL: **a step of the sync thread**: it has ended, waits for the mutex, takes it, or goes on
by a step of the worker that sees the flag. -/
theorem workerGoes_cases (s : SyncThreads) (clock : Option Timespec) (h : StopSound s) :
    (workerGoes s clock = some s ∧
        (s.worker.phase = .stopped ∨
          s.worker.needsMutex = true ∧ s.owner ≠ some .syncThread ∧
            (s.owner ≠ none ∨ s.worker.phase = .asleep ∧ s.woken = false))) ∨
      (workerGoes s clock = some { s with owner := some .syncThread } ∧
        s.worker.needsMutex = true ∧ s.owner = none) ∨
      (workerGoes s clock =
          some { s with
            worker := workerStep s.worker ⟨clock, s.stop⟩, owner := none, woken := false } ∧
        s.worker.needsMutex = true ∧ s.owner = some .syncThread) ∨
      (workerGoes s clock = some { s with worker := workerStep s.worker ⟨clock, s.stop⟩ } ∧
        s.worker.needsMutex = false ∧ s.worker.phase ≠ .stopped) := by
  unfold workerGoes
  by_cases hstopped : s.worker.phase = .stopped
  · rw [if_pos hstopped]
    exact Or.inl ⟨rfl, Or.inl hstopped⟩
  · rw [if_neg hstopped]
    have hlive : s.stopper.destroys ≠ true := by
      intro hdestroys
      have hfar := (destroys_iff _).mp hdestroys
      exact hstopped (h.ended (by omega))
    rw [if_neg hlive]
    cases hneeds : s.worker.needsMutex with
    | false =>
      rw [if_neg (by simp)]
      exact Or.inr (Or.inr (Or.inr ⟨rfl, rfl, hstopped⟩))
    | true =>
      rw [if_pos rfl]
      by_cases howner : s.owner = some .syncThread
      · rw [if_pos howner]
        exact Or.inr (Or.inr (Or.inl ⟨rfl, rfl, howner⟩))
      · rw [if_neg howner]
        by_cases hmay : s.owner = none ∧ (s.worker.phase = .lock ∨ s.woken = true)
        · rw [if_pos hmay]
          exact Or.inr (Or.inl ⟨rfl, rfl, hmay.1⟩)
        · rw [if_neg hmay]
          refine Or.inl ⟨rfl, Or.inr ⟨rfl, howner, ?_⟩⟩
          by_cases hfree : s.owner = none
          · right
            have hphase := (needsMutex_iff _).mp hneeds
            rw [not_and, not_or] at hmay
            obtain ⟨hlock, hwoken⟩ := hmay hfree
            exact ⟨hphase.resolve_left hlock, by simpa using hwoken⟩
          · exact Or.inl hfree

/-- INTERNAL: with the flag set, a worker that has the mutex comes to its end. -/
theorem workerStep_flagged (w : Worker) (clock : Option Timespec) (h : w.needsMutex = true) :
    workerStep w ⟨clock, true⟩ = { w with phase := .stopped } := by
  unfold workerStep
  rcases (needsMutex_iff w).mp h with hphase | hphase
  · rw [hphase]
    rfl
  · rw [hphase]
    rfl

/-- INTERNAL: a worker that needs no mutex does not go to sleep, nor to its end. -/
theorem workerStep_awake (w : Worker) (tick : WorkerTick) (h : w.needsMutex = false)
    (hlive : w.phase ≠ .stopped) : (workerStep w tick).phase ≠ .asleep := by
  rcases w with ⟨cfg, nextNtp, nextTz, phase, events⟩
  cases phase with
  | zoneTest => simp only [workerStep]; split <;> simp
  | timeTest => simp only [workerStep]; split <;> simp
  | lock => cases h
  | asleep => cases h
  | stopped => exact absurd rfl hlive
  | _ => simp [workerStep]

/-- INTERNAL: **a step of the sync thread** is defined and keeps the invariant. -/
theorem StopSound.workerGoes (s : SyncThreads) (h : StopSound s) (clock : Option Timespec) :
    ∃ s', workerGoes s clock = some s' ∧ StopSound s' := by
  rcases workerGoes_cases s clock h with
    ⟨hstep, -⟩ | ⟨hstep, hneeds, hfree⟩ | ⟨hstep, hneeds, hholds⟩ | ⟨hstep, hneeds, hlive⟩
  · exact ⟨s, hstep, h⟩
  · refine ⟨_, hstep, ?_, fun _ => hneeds, h.flag, h.told, h.ended⟩
    have hnot := h.stopper_holds
    rw [hfree] at hnot
    simpa using hnot
  · have hnot := h.stopper_holds
    rw [hholds] at hnot
    refine ⟨_, hstep, by simpa using hnot, (fun howner => by cases howner), h.flag, ?_, ?_⟩
    · intro htold hasleep
      have hflag := h.flag.mpr (le_trans (by decide) htold)
      dsimp only at hasleep
      rw [hflag, workerStep_flagged _ _ hneeds] at hasleep
      cases hasleep
    · intro hended
      have hphase := h.ended hended
      rw [needsMutex_iff, hphase] at hneeds
      simp at hneeds
  · refine ⟨_, hstep, h.stopper_holds, ?_, h.flag, ?_, ?_⟩
    · intro howner
      have := h.worker_holds howner
      rw [hneeds] at this
      cases this
    · exact fun _ hasleep => absurd hasleep (workerStep_awake _ _ hneeds hlive)
    · exact fun hended => absurd (h.ended hended) hlive

/-- INTERNAL: **a step of `time_sync_stop`** is defined and keeps the invariant. -/
theorem StopSound.stopperGoes (s : SyncThreads) (h : StopSound s) :
    ∃ s', stopperGoes s = some s' ∧ StopSound s' := by
  obtain ⟨worker, owner, woken, stop, stopper⟩ := s
  obtain ⟨hstopper, hworker, hflag, htold, hended⟩ := h
  cases stopper with
  | running =>
    by_cases hfree : owner = none
    · refine ⟨_, if_pos hfree, ?_⟩
      constructor <;> simp_all [stopReached]
    · exact ⟨_, if_neg hfree, ⟨hstopper, hworker, hflag, htold, hended⟩⟩
  | locked =>
    refine ⟨_, rfl, ?_⟩
    constructor <;> simp_all [stopReached]
  | flagged =>
    refine ⟨_, rfl, ?_⟩
    constructor <;> simp_all [stopReached]
  | signalled =>
    refine ⟨_, rfl, ?_⟩
    constructor <;> simp_all [stopReached]
  | joining =>
    by_cases hstopped : worker.phase = .stopped
    · refine ⟨_, if_pos hstopped, ?_⟩
      constructor <;> simp_all [stopReached]
    · exact ⟨_, if_neg hstopped, ⟨hstopper, hworker, hflag, htold, hended⟩⟩
  | joined =>
    have hstopped : worker.phase = .stopped := hended (show 5 ≤ stopReached .joined by decide)
    have hawake : ¬ worker.phase = .asleep := by
      rw [hstopped]
      decide
    refine ⟨_, if_neg hawake, ?_⟩
    constructor <;> simp_all [stopReached]
  | condDestroyed =>
    have hstopped : worker.phase = .stopped :=
      hended (show 5 ≤ stopReached .condDestroyed by decide)
    have hfree : owner = none := by
      rcases owner with _ | _ | _
      · rfl
      · have hneeds := hworker rfl
        rw [needsMutex_iff, hstopped] at hneeds
        simp at hneeds
      · have hreached : stopReached .condDestroyed ≤ 3 := (hstopper.mp rfl).2
        exact absurd hreached (by decide)
    refine ⟨_, if_pos hfree, ?_⟩
    constructor <;> simp_all [stopReached]
  | mutexDestroyed =>
    refine ⟨_, rfl, ?_⟩
    constructor <;> simp_all [stopReached]
  | freed => exact ⟨_, rfl, ⟨hstopper, hworker, hflag, htold, hended⟩⟩

/-- INTERNAL: **a step** is defined and keeps the invariant. -/
theorem StopSound.step (s : SyncThreads) (h : StopSound s) (step : ThreadStep) :
    ∃ s', threadStep s step = some s' ∧ StopSound s' := by
  cases step with
  | worker clock => exact h.workerGoes s clock
  | stopper => exact h.stopperGoes s
  | wakeUp =>
    refine ⟨_, rfl, h.stopper_holds, h.worker_holds, h.flag, ?_, h.ended⟩
    intro htold hasleep
    dsimp only at hasleep ⊢
    rw [hasleep]
    simp

/-! ## Who goes on -/

/-- Is it a step of the sync thread? -/
def isWorkerStep : ThreadStep → Bool
  | .worker _ => true
  | _ => false

/-- Is it a step of `time_sync_stop`? -/
def isStopperStep : ThreadStep → Bool
  | .stopper => true
  | _ => false

/-- INTERNAL: **what `time_sync_stop` leaves alone**, and how it gets on: it is held up where it
waits for the mutex or for the end of the thread, only. -/
theorem stopperGoes_frame (s s' : SyncThreads) (h : stopperGoes s = some s') :
    s'.worker = s.worker ∧ stopReached s.stopper ≤ stopReached s'.stopper ∧
      (4 ≤ stopReached s.stopper → s'.owner = s.owner) ∧
      (1 ≤ stopReached s.stopper → stopReached s.stopper < 8 →
        stopReached s.stopper < 4 ∨ s.worker.phase = .stopped →
        stopReached s'.stopper = stopReached s.stopper + 1) := by
  obtain ⟨worker, owner, woken, stop, stopper⟩ := s
  cases stopper <;> simp only [stopperGoes] at h
  case running =>
    split at h
    all_goals
      cases h
      simp [stopReached]
  case joining =>
    split at h
    next hstopped => cases h; simp [stopReached]
    next hlive => cases h; simp [stopReached, hlive]
  case joined =>
    split at h
    all_goals
      cases h
    simp [stopReached]
  case condDestroyed =>
    split at h
    all_goals
      cases h
    simp [stopReached]
  all_goals
    cases h
    simp [stopReached]

/-- INTERNAL: a step of the worker leaves the stop. -/
theorem workerGoes_stopper (s s' : SyncThreads) (clock : Option Timespec) (h : StopSound s)
    (hstep : workerGoes s clock = some s') : s'.stopper = s.stopper ∧ s'.stop = s.stop := by
  rcases workerGoes_cases s clock h with ⟨hgoes, -⟩ | ⟨hgoes, -⟩ | ⟨hgoes, -⟩ | ⟨hgoes, -⟩
  all_goals
    cases hgoes.symm.trans hstep
    exact ⟨rfl, rfl⟩

/-! ## The stop gets the thread to its end -/

/-- How many steps of its own the sync thread has in front of it, once the flag is set. -/
def stepsLeft (s : SyncThreads) : ℕ :=
  match s.worker.phase with
  | .zoneTest => 8
  | .zoneCall => 7
  | .zoneRearm => 6
  | .timeTest => 5
  | .timeCall => 4
  | .timeRearm => 3
  | .lock | .asleep => if s.owner = some .syncThread then 1 else 2
  | .stopped => 0

/-- INTERNAL: no more than eight steps are left. -/
theorem stepsLeft_le (s : SyncThreads) : stepsLeft s ≤ 8 := by
  unfold stepsLeft
  split <;> first | omega | (split <;> omega)

/-- INTERNAL: none are left to a worker that stopped. -/
theorem stepsLeft_eq_zero (s : SyncThreads) (h : stepsLeft s = 0) : s.worker.phase = .stopped := by
  unfold stepsLeft at h
  split at h
  all_goals first | assumption | omega | (split at h <;> omega)

/-- INTERNAL: a step without the mutex brings the worker nearer to the end of its turn. -/
theorem stepsLeft_awake (s : SyncThreads) (tick : WorkerTick) (hneeds : s.worker.needsMutex = false)
    (hlive : s.worker.phase ≠ .stopped) :
    stepsLeft { s with worker := workerStep s.worker tick } < stepsLeft s := by
  obtain ⟨⟨cfg, nextNtp, nextTz, phase, events⟩, owner, woken, stop, stopper⟩ := s
  cases phase with
  | zoneTest =>
    by_cases hdue : 0 ≤ nextTz ∧ nextTz ≤ tick.nowMs <;> simp [workerStep, stepsLeft, hdue]
  | timeTest =>
    by_cases hdue : 0 ≤ nextNtp ∧ nextNtp ≤ tick.nowMs
    · simp [workerStep, stepsLeft, hdue]
    · simp only [workerStep, stepsLeft, hdue, if_false]
      split <;> decide
  | timeRearm =>
    simp only [workerStep, stepsLeft]
    split <;> decide
  | lock => cases hneeds
  | asleep => cases hneeds
  | stopped => exact absurd rfl hlive
  | _ => simp [workerStep, stepsLeft]

/-- The stop was told, and the mutex let go. -/
def StopTold (s : SyncThreads) : Prop := StopSound s ∧ 4 ≤ stopReached s.stopper

/-- INTERNAL: **a step of the sync thread** behind the stop is one of those it has left. -/
theorem StopTold.workerGoes (s : SyncThreads) (h : StopTold s) (clock : Option Timespec) :
    ∃ s', workerGoes s clock = some s' ∧ StopTold s' ∧ stepsLeft s' ≤ stepsLeft s - 1 := by
  obtain ⟨hsound, hreached⟩ := h
  obtain ⟨s', hstep, hsound'⟩ := hsound.workerGoes s clock
  have hreached' : 4 ≤ stopReached s'.stopper := by
    rw [(workerGoes_stopper s s' clock hsound hstep).1]
    exact hreached
  refine ⟨s', hstep, ⟨hsound', hreached'⟩, ?_⟩
  have hnotStopper : s.owner ≠ some .stopper := by
    intro howner
    have := (hsound.stopper_holds.mp howner).2
    omega
  rcases workerGoes_cases s clock hsound with
    ⟨hgoes, hwhy⟩ | ⟨hgoes, hneeds, hfree⟩ | ⟨hgoes, hneeds, hholds⟩ | ⟨hgoes, hneeds, hlive⟩
  · cases hgoes.symm.trans hstep
    rcases hwhy with hstopped | ⟨-, hnotThread, hheld | ⟨hasleep, hwoken⟩⟩
    · have hzero : stepsLeft s = 0 := by
        unfold stepsLeft
        rw [hstopped]
      omega
    · rcases howner : s.owner with _ | _ | _
      · exact absurd howner hheld
      · exact absurd howner hnotThread
      · exact absurd howner hnotStopper
    · have := hsound.told (by omega) hasleep
      rw [hwoken] at this
      cases this
  · cases hgoes.symm.trans hstep
    unfold stepsLeft
    rcases (needsMutex_iff _).mp hneeds with hphase | hphase <;> simp [hphase, hfree]
  · cases hgoes.symm.trans hstep
    have hflag := hsound.flag.mpr (by omega)
    unfold stepsLeft
    rw [hflag, workerStep_flagged _ _ hneeds]
    exact Nat.zero_le _
  · cases hgoes.symm.trans hstep
    have := stepsLeft_awake s ⟨clock, s.stop⟩ hneeds hlive
    omega

/-- INTERNAL: **the steps of the sync thread** behind the stop. -/
theorem paidBy_worker : PaidBy threadStep StopTold isWorkerStep stepsLeft := by
  intro s step h
  cases step with
  | worker clock => exact h.workerGoes s clock
  | stopper =>
    obtain ⟨s', hstep, hsound'⟩ := h.1.stopperGoes s
    obtain ⟨hworker, hreached, howner, -⟩ := stopperGoes_frame s s' hstep
    refine ⟨s', hstep, ⟨hsound', h.2.trans hreached⟩, ?_⟩
    unfold stepsLeft
    rw [hworker, howner h.2]
    exact Nat.le_refl _
  | wakeUp =>
    obtain ⟨s', hstep, hsound'⟩ := h.1.step s .wakeUp
    refine ⟨s', hstep, ?_⟩
    cases hstep
    exact ⟨⟨hsound', h.2⟩, Nat.le_refl _⟩

/-! ## `time_sync_stop` returns -/

/-- How many of its steps lie in front of `time_sync_stop`, up to one that is reached. -/
def stopLeft (upTo : ℕ) (s : SyncThreads) : ℕ := upTo - stopReached s.stopper

/-- INTERNAL: **the steps of `time_sync_stop`** between two places where nothing holds it up. -/
theorem paidBy_stopper (good : SyncThreads → Prop) (upTo : ℕ) (hupTo : upTo ≤ 8)
    (hsound : ∀ s, good s → StopSound s ∧ 1 ≤ stopReached s.stopper)
    (hfree : ∀ s, good s → stopReached s.stopper < upTo →
      stopReached s.stopper < 4 ∨ s.worker.phase = .stopped)
    (hkept : ∀ s step s', good s → threadStep s step = some s' → StopSound s' →
      stopReached s.stopper ≤ stopReached s'.stopper →
      (s.worker.phase = .stopped → s'.worker.phase = .stopped) → good s') :
    PaidBy threadStep good isStopperStep (stopLeft upTo) := by
  intro s step h
  obtain ⟨hs, hbegun⟩ := hsound s h
  obtain ⟨s', hstep, hs'⟩ := hs.step s step
  unfold stopLeft
  cases step with
  | worker clock =>
    have hsame := (workerGoes_stopper s s' clock hs hstep).1
    have hstopped : s.worker.phase = .stopped → s'.worker.phase = .stopped := by
      intro hphase
      have hidle : workerGoes s clock = some s := if_pos hphase
      cases hidle.symm.trans hstep
      exact hphase
    refine ⟨s', hstep, hkept s _ s' h hstep hs' (by rw [hsame]) hstopped, ?_⟩
    rw [hsame]
    exact Nat.le_refl _
  | stopper =>
    obtain ⟨hworker, hreached, -, hnext⟩ := stopperGoes_frame s s' hstep
    refine ⟨s', hstep, hkept s _ s' h hstep hs' hreached (fun hphase => hworker ▸ hphase), ?_⟩
    change upTo - stopReached s'.stopper ≤ upTo - stopReached s.stopper - 1
    by_cases hdone : stopReached s.stopper < upTo
    · have := hnext hbegun (by omega) (hfree s h hdone)
      omega
    · omega
  | wakeUp =>
    have hframe : s'.stopper = s.stopper ∧ s'.worker = s.worker := by
      cases hstep
      exact ⟨rfl, rfl⟩
    refine ⟨s', hstep, hkept s _ s' h hstep hs' (by rw [hframe.1]) (fun hphase => ?_), ?_⟩
    · rw [hframe.2]
      exact hphase
    · rw [hframe.1]
      exact Nat.le_refl _

/-- INTERNAL: **from the mutex to the join**. -/
theorem paidBy_telling :
    PaidBy threadStep (fun s => StopSound s ∧ 1 ≤ stopReached s.stopper) isStopperStep
      (stopLeft 4) :=
  paidBy_stopper _ 4 (by decide) (fun _ h => h) (fun _ _ hlt => Or.inl hlt)
    fun _ _ _ h _ hsound' hreached _ => ⟨hsound', h.2.trans hreached⟩

/-- INTERNAL: **from the end of the thread to the return**. -/
theorem paidBy_freeing :
    PaidBy threadStep (fun s => StopTold s ∧ s.worker.phase = .stopped) isStopperStep
      (stopLeft 8) :=
  paidBy_stopper _ 8 (le_refl 8) (fun _ h => ⟨h.1.1, le_trans (by decide) h.1.2⟩)
    (fun _ h _ => Or.inr h.2)
    fun _ _ _ h _ hsound' hreached hstopped => ⟨⟨hsound', h.1.2.trans hreached⟩, hstopped h.2⟩

/-- INTERNAL: the last place is the one with the memory freed. -/
theorem stopReached_eq_freed (p : StopPhase) (h : 8 ≤ stopReached p) : p = .freed := by
  cases p <;> first | rfl | (exact absurd h (by decide))

/-- INTERNAL: **the call returns**, once it has the mutex. -/
theorem stop_returns (s : SyncThreads) (h : StopSound s) (hbegun : 1 ≤ stopReached s.stopper)
    (first more rest : List ThreadStep) (hfirst : 3 ≤ first.countP isStopperStep)
    (hmore : 8 ≤ more.countP isWorkerStep) (hrest : 4 ≤ rest.countP isStopperStep) :
    ∃ s', threadRun s (first ++ more ++ rest) = some s' ∧ s'.worker.phase = .stopped ∧
      s'.stopper = .freed := by
  have hthree : stopLeft 4 s ≤ first.countP isStopperStep := by
    unfold stopLeft
    omega
  obtain ⟨s₁, hrun₁, ⟨hsound₁, -⟩, hleft₁⟩ := paidBy_telling.spent first s ⟨h, hbegun⟩ hthree
  have htold₁ : StopTold s₁ := by
    refine ⟨hsound₁, ?_⟩
    unfold stopLeft at hleft₁
    omega
  obtain ⟨s₂, hrun₂, htold₂, hleft₂⟩ :=
    paidBy_worker.spent more s₁ htold₁ ((stepsLeft_le s₁).trans hmore)
  have hstopped₂ := stepsLeft_eq_zero s₂ hleft₂
  have hfour : stopLeft 8 s₂ ≤ rest.countP isStopperStep := by
    have := htold₂.2
    unfold stopLeft
    omega
  obtain ⟨s₃, hrun₃, ⟨-, hstopped₃⟩, hleft₃⟩ :=
    paidBy_freeing.spent rest s₂ ⟨htold₂, hstopped₂⟩ hfour
  refine ⟨s₃, ?_, hstopped₃, stopReached_eq_freed _ ?_⟩
  · unfold threadRun
    rw [List.foldlM_append, List.foldlM_append, hrun₁]
    exact (congrArg (· >>= fun t => rest.foldlM threadStep t) hrun₂).trans hrun₃
  · unfold stopLeft at hleft₃
    omega

/-! ## What the thread still does -/

/-- May the worker still start `refresh_zone` in this turn? -/
def zonesLeft (w : Worker) : ℕ :=
  match w.phase with
  | .zoneTest | .zoneCall => 1
  | _ => 0

/-- May the worker still start `refresh_time` in this turn? -/
def timesLeft (w : Worker) : ℕ :=
  match w.phase with
  | .zoneTest | .zoneCall | .zoneRearm | .timeTest | .timeCall => 1
  | _ => 0

/-- INTERNAL: **a step without the mutex** uses up what it starts. -/
theorem workerStep_uses (w : Worker) (tick : WorkerTick) (h : w.needsMutex = false) :
    ∃ done, (workerStep w tick).events = w.events ++ done ∧
      (zoneStarts done).length + zonesLeft (workerStep w tick) ≤ zonesLeft w ∧
      (timeStarts done).length + timesLeft (workerStep w tick) ≤ timesLeft w ∧
      ∀ deltaMs, WorkerEvent.wait deltaMs ∉ done := by
  have hquiet : ∀ w' : Worker, w'.events = w.events → zonesLeft w' ≤ zonesLeft w →
      timesLeft w' ≤ timesLeft w → ∃ done, w'.events = w.events ++ done ∧
        (zoneStarts done).length + zonesLeft w' ≤ zonesLeft w ∧
        (timeStarts done).length + timesLeft w' ≤ timesLeft w ∧
        ∀ deltaMs, WorkerEvent.wait deltaMs ∉ done := by
    intro w' hevents hzones htimes
    refine ⟨[], by rw [hevents, List.append_nil], ?_, ?_, fun _ => List.not_mem_nil⟩
    · rwa [show (zoneStarts []).length = 0 from rfl, Nat.zero_add]
    · rwa [show (timeStarts []).length = 0 from rfl, Nat.zero_add]
  rcases w with ⟨cfg, nextNtp, nextTz, phase, events⟩
  cases phase with
  | zoneCall =>
    refine ⟨[.refreshZone tick.nowMs], rfl, le_refl 1, le_refl 1, fun deltaMs hmem => ?_⟩
    cases List.mem_singleton.mp hmem
  | timeCall =>
    refine ⟨[.refreshTime tick.nowMs], rfl, le_refl 0, le_refl 1, fun deltaMs hmem => ?_⟩
    cases List.mem_singleton.mp hmem
  | zoneTest =>
    apply hquiet
    all_goals
      simp only [workerStep]
      split <;> simp [zonesLeft, timesLeft]
  | timeTest =>
    apply hquiet
    all_goals
      simp only [workerStep]
      split <;> simp [zonesLeft, timesLeft]
  | lock => cases h
  | asleep => cases h
  | _ => exact hquiet _ rfl (by simp [workerStep, zonesLeft]) (by simp [workerStep, timesLeft])

/-- What the thread does once the flag is set, behind what it had done `before`. -/
structure WindsDown (before : List WorkerEvent) (s : SyncThreads) : Prop where
  sound : StopSound s
  flagged : s.stop = true
  done : ∃ done, s.worker.events = before ++ done ∧
    (zoneStarts done).length + zonesLeft s.worker ≤ 1 ∧
    (timeStarts done).length + timesLeft s.worker ≤ 1 ∧
    ∀ deltaMs, WorkerEvent.wait deltaMs ∉ done

/-- INTERNAL: once the flag is set, the worker winds down. -/
theorem windsDown_start (s : SyncThreads) (h : StopSound s) (hflag : s.stop = true) :
    WindsDown s.worker.events s := by
  refine ⟨h, hflag, [], (List.append_nil _).symm, ?_, ?_, fun _ => List.not_mem_nil⟩
  · unfold zonesLeft
    split <;> decide
  · unfold timesLeft
    split <;> decide

/-- INTERNAL: **a step of the sync thread** once the flag is set. -/
theorem WindsDown.workerGoes (before : List WorkerEvent) (s : SyncThreads) (h : WindsDown before s)
    (clock : Option Timespec) : ∃ s', workerGoes s clock = some s' ∧ WindsDown before s' := by
  obtain ⟨hsound, hflag, done, hevents, hzones, htimes, hwaits⟩ := h
  obtain ⟨s', hstep, hsound'⟩ := hsound.workerGoes s clock
  have hflag' : s'.stop = true := (workerGoes_stopper s s' clock hsound hstep).2.trans hflag
  refine ⟨s', hstep, hsound', hflag', ?_⟩
  rcases workerGoes_cases s clock hsound with
    ⟨hgoes, -⟩ | ⟨hgoes, -⟩ | ⟨hgoes, hneeds, -⟩ | ⟨hgoes, hneeds, -⟩
  · cases hgoes.symm.trans hstep
    exact ⟨done, hevents, hzones, htimes, hwaits⟩
  · cases hgoes.symm.trans hstep
    exact ⟨done, hevents, hzones, htimes, hwaits⟩
  · cases hgoes.symm.trans hstep
    refine ⟨done, ?_, ?_, ?_, hwaits⟩
    all_goals
      dsimp only
      rw [hflag, workerStep_flagged _ _ hneeds]
    · exact hevents
    · exact (Nat.le_add_right _ _).trans hzones
    · exact (Nat.le_add_right _ _).trans htimes
  · cases hgoes.symm.trans hstep
    obtain ⟨more, hmore, hzones', htimes', hwaits'⟩ :=
      workerStep_uses s.worker ⟨clock, s.stop⟩ hneeds
    refine ⟨done ++ more, ?_, ?_, ?_, fun deltaMs hmem => ?_⟩
    · rw [← List.append_assoc, ← hevents]
      exact hmore
    · unfold zoneStarts at hzones hzones' ⊢
      rw [List.filterMap_append, List.length_append]
      dsimp only
      omega
    · unfold timeStarts at htimes htimes' ⊢
      rw [List.filterMap_append, List.length_append]
      dsimp only
      omega
    · rcases List.mem_append.mp hmem with hmem | hmem
      · exact hwaits deltaMs hmem
      · exact hwaits' deltaMs hmem

/-- INTERNAL: every step is defined then, and the worker still winds down. -/
theorem paidBy_windsDown (before : List WorkerEvent) :
    PaidBy threadStep (WindsDown before) (fun _ => false) (fun _ => 0) := by
  intro s step h
  have hkept : ∃ s', threadStep s step = some s' ∧ WindsDown before s' := by
    cases step with
    | worker clock => exact h.workerGoes before s clock
    | stopper =>
      obtain ⟨s', hstep, hsound'⟩ := h.sound.stopperGoes s
      obtain ⟨hworker, hreached, -⟩ := stopperGoes_frame s s' hstep
      refine ⟨s', hstep, hsound', ?_, ?_⟩
      · exact hsound'.flag.mpr ((h.sound.flag.mp h.flagged).trans hreached)
      · rw [hworker]
        exact h.done
    | wakeUp =>
      obtain ⟨s', hstep, hsound'⟩ := h.sound.step s .wakeUp
      refine ⟨s', hstep, ?_⟩
      cases hstep
      exact ⟨hsound', h.flagged, h.done⟩
  obtain ⟨s', hstep, hgood'⟩ := hkept
  exact ⟨s', hstep, hgood', Nat.le_refl _⟩

/-- INTERNAL: every step of sound threads is defined, and keeps them sound. -/
theorem paidBy_sound : PaidBy threadStep StopSound (fun _ => false) (fun _ => 0) := by
  intro s step h
  obtain ⟨s', hstep, hsound'⟩ := h.step s step
  exact ⟨s', hstep, hsound', Nat.le_refl _⟩

/-- **The stop of the sync thread is not lost**, however it and `time_sync_stop` take turns, on any
clock and however often the wait ends by itself: no step uses what is destroyed, and nothing is
destroyed that is in use; once the signal was given the thread is not left asleep; once the join is
over it has ended; once the flag is set it starts each refresh once more at most, and no wait; and
once `time_sync_stop` has the mutex, three steps of its own, then eight of the thread and four more
of its own, with any others between them, bring it to its return.
SRCLINE: time_sync.c:227-246, 258-302, 368-384 -/
theorem stop_is_not_lost (cfg : TimeSyncSetup) (steps : List ThreadStep) :
    ∃ s, threadRun (syncThreadsStart cfg) steps = some s ∧
      (stopReached .signalled ≤ stopReached s.stopper → s.worker.phase = .asleep →
        s.woken = true) ∧
      (stopReached .joined ≤ stopReached s.stopper → s.worker.phase = .stopped) ∧
      (s.stop = true → ∀ more, ∃ s' done, threadRun s more = some s' ∧
        s'.worker.events = s.worker.events ++ done ∧ (zoneStarts done).length ≤ 1 ∧
        (timeStarts done).length ≤ 1 ∧ ∀ deltaMs, WorkerEvent.wait deltaMs ∉ done) ∧
      (stopReached .locked ≤ stopReached s.stopper → ∀ first more rest,
        3 ≤ first.countP isStopperStep → 8 ≤ more.countP isWorkerStep →
        4 ≤ rest.countP isStopperStep → ∃ s', threadRun s (first ++ more ++ rest) = some s' ∧
          s'.worker.phase = .stopped ∧ s'.stopper = .freed) := by
  obtain ⟨s, hrun, hsound, -⟩ := paidBy_sound.run steps _ (stopSound_start cfg)
  refine ⟨s, hrun, hsound.told, hsound.ended, fun hflag more => ?_,
    fun hbegun first more rest => stop_returns s hsound hbegun first more rest⟩
  obtain ⟨s', hrun', ⟨-, -, done, hevents, hzones, htimes, hwaits⟩, -⟩ :=
    (paidBy_windsDown s.worker.events).run more s (windsDown_start s hsound hflag)
  exact ⟨s', done, hrun', hevents, (Nat.le_add_right _ _).trans hzones,
    (Nat.le_add_right _ _).trans htimes, hwaits⟩

/-- The stop comes while the thread has found no reason to stop and is about to sleep: it holds the
mutex, so the stop waits until the thread sleeps, and wakes it. -/
example :
    (threadRun (syncThreadsStart {}) ((List.replicate 5 (.worker (some ⟨7, 0⟩))) ++
      [.stopper, .worker none, .stopper, .stopper, .stopper, .stopper, .worker none, .worker none,
        .stopper, .stopper, .stopper, .stopper])).any (fun s => s.stopper = .freed) = true := by
  decide +kernel

end OpenHes.Analysis
