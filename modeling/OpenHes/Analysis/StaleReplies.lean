import OpenHes.Library.Trace
import OpenHes.Model.WizClient

/-!
# Stale datagrams and the requests to a bulb

A datagram that is in the queue when the first request goes out can answer it. The drain that runs
before stops at a datagram without bytes, and does not see what comes in behind it. The calls that
no stale datagram answers are told, and what a call does at most.
-/

set_option autoImplicit false

namespace OpenHes.Analysis

open OpenHes.Library OpenHes.Model

/-- Whether a datagram is taken for the answer. -/
def takenForAnswer (s : WizCall) (d : Datagram) : Bool :=
  replyIsAnswer (respText s.respSz d) s.method

/-- The call has returned. -/
def hasReturned (s : WizCall) : Bool :=
  match s.phase with
  | .draining => false
  | .sending _ => false
  | .receiving _ => false
  | .failed => true
  | .answered _ => true

/-- No datagram from before the first request has answered. -/
def NoStaleAnswer (s : WizCall) : Prop := ∀ d, s.phase = .answered d → d.fresh = true

/-- The datagrams that a call can still read before it gives up are not taken for the answer. -/
def QueueUnrelated (s : WizCall) : Prop :=
  ∀ d ∈ s.queue.take (wizMaxIgnoredReplies + 1), takenForAnswer s d = false

/-- At most two requests have gone out, and at most five datagrams were ignored. -/
structure WithinBounds (s : WizCall) : Prop where
  sends : s.sends ≤ 2
  ignored : s.ignored ≤ 5

/-- The datagrams that come in during a run. -/
def arrivals (events : List WizEvent) : ℕ :=
  (events.filter fun | .arrive _ => true | .proceed _ => false).length

/-- The steps that the call takes in a run. -/
def proceeds (events : List WizEvent) : ℕ :=
  (events.filter fun | .arrive _ => false | .proceed _ => true).length

/-- INTERNAL: in no events nothing arrives. -/
@[simp] theorem arrivals_nil : arrivals [] = 0 := rfl

/-- INTERNAL: and nothing goes on. -/
@[simp] theorem proceeds_nil : proceeds [] = 0 := rfl

/-- INTERNAL: an arrival is counted. -/
@[simp] theorem arrivals_arrive (bytes : List UInt8) (events : List WizEvent) :
    arrivals (.arrive bytes :: events) = arrivals events + 1 := rfl

/-- INTERNAL: a step of the call is none. -/
@[simp] theorem arrivals_proceed (fails : Bool) (events : List WizEvent) :
    arrivals (.proceed fails :: events) = arrivals events := rfl

/-- INTERNAL: an arrival is no step of the call. -/
@[simp] theorem proceeds_arrive (bytes : List UInt8) (events : List WizEvent) :
    proceeds (.arrive bytes :: events) = proceeds events := rfl

/-- INTERNAL: a step is counted. -/
@[simp] theorem proceeds_proceed (fails : Bool) (events : List WizEvent) :
    proceeds (.proceed fails :: events) = proceeds events + 1 := rfl

/-- INTERNAL: a run is its first step, and the rest from there. -/
theorem wizRun_cons (s : WizCall) (e : WizEvent) (events : List WizEvent) :
    s.run (e :: events) = (s.step e).run events := rfl

/-- INTERNAL: a run in two parts. -/
theorem wizRun_append (s : WizCall) (first second : List WizEvent) :
    s.run (first ++ second) = (s.run first).run second :=
  List.foldl_append

/-! ## The moves of a call -/

/-- The ways through a step of `wiz_send_recv`, and what each changes. -/
inductive WizMove (s : WizCall) : WizEvent → WizCall → Prop
  | arrive (bytes : List UInt8) :
    WizMove s (.arrive bytes) { s with queue := s.queue ++ [⟨bytes, 0 < s.sends⟩] }
  | drained (fails : Bool) (rest : List Datagram) (phase : s.phase = .draining)
      (suffix : rest <:+ s.queue) :
    WizMove s (.proceed fails) { s with queue := rest, phase := .sending 1 }
  | dropped (d : Datagram) (rest : List Datagram) (phase : s.phase = .draining)
      (queue : s.queue = d :: rest) :
    WizMove s (.proceed false) { s with queue := rest, dropped := s.dropped + 1 }
  | sent (attempt : ℕ) (phase : s.phase = .sending attempt) :
    WizMove s (.proceed false) { s with phase := .receiving attempt, sends := s.sends + 1 }
  | lost (fails : Bool) (attempt : ℕ)
      (phase : s.phase = .sending attempt ∨ s.phase = .receiving attempt) :
    WizMove s (.proceed fails) { s with phase := .failed }
  | again (attempt : ℕ) (phase : s.phase = .receiving attempt) (more : attempt < 2) :
    WizMove s (.proceed false) { s with phase := .sending (attempt + 1) }
  | answer (attempt : ℕ) (d : Datagram) (rest : List Datagram)
      (phase : s.phase = .receiving attempt) (queue : s.queue = d :: rest)
      (taken : takenForAnswer s d = true) :
    WizMove s (.proceed false) { s with queue := rest, phase := .answered d }
  | ignore (attempt : ℕ) (d : Datagram) (rest : List Datagram)
      (phase : s.phase = .receiving attempt) (queue : s.queue = d :: rest)
      (other : takenForAnswer s d = false) :
    WizMove s (.proceed false)
      { s with
        queue := rest
        ignored := s.ignored + 1
        phase := if 4 < s.ignored + 1 then .failed else .receiving attempt }
  | back (fails : Bool) (returned : hasReturned s = true) : WizMove s (.proceed fails) s

/-- INTERNAL: what a turn of the draining loop does. -/
theorem dropStale_moves (s : WizCall) (fails : Bool) (h : s.phase = .draining) :
    WizMove s (.proceed fails) (dropStale s fails) := by
  unfold dropStale
  cases fails with
  | true => exact .drained true s.queue h (List.suffix_refl _)
  | false =>
    rw [if_neg Bool.false_ne_true]
    cases hqueue : s.queue with
    | nil => exact .drained false [] h List.nil_suffix
    | cons d rest =>
      by_cases hpos : 0 < (d.bytes.take maxPacketBufSize).length
      · simp only [if_pos hpos]
        exact .dropped d rest h hqueue
      · simp only [if_neg hpos]
        exact .drained false rest h (hqueue ▸ List.suffix_cons d rest)

/-- INTERNAL: what a send does. -/
theorem sendRequest_moves (s : WizCall) (attempt : ℕ) (fails : Bool)
    (h : s.phase = .sending attempt) :
    WizMove s (.proceed fails) (sendRequest s attempt fails) := by
  unfold sendRequest
  cases fails with
  | true => exact .lost true attempt (Or.inl h)
  | false => exact .sent attempt h

/-- INTERNAL: what a turn of the receiving loop does. -/
theorem receiveReply_moves (s : WizCall) (attempt : ℕ) (fails : Bool)
    (h : s.phase = .receiving attempt) :
    WizMove s (.proceed fails) (receiveReply s attempt fails) := by
  unfold receiveReply
  cases fails with
  | true => exact .lost true attempt (Or.inr h)
  | false =>
    rw [if_neg Bool.false_ne_true]
    cases hqueue : s.queue with
    | nil =>
      by_cases hmore : attempt < wizSendAttempts
      · simp only [if_pos hmore]
        exact hqueue ▸ .again attempt h hmore
      · simp only [if_neg hmore]
        exact hqueue ▸ .lost false attempt (Or.inr h)
    | cons d rest =>
      cases htaken : takenForAnswer s d with
      | true =>
        unfold takenForAnswer at htaken
        simp only [htaken, if_true]
        exact .answer attempt d rest h hqueue htaken
      | false =>
        unfold takenForAnswer at htaken
        simp only [htaken, Bool.false_eq_true, if_false, h]
        exact .ignore attempt d rest h hqueue htaken

/-- INTERNAL: every step is one of the moves. -/
theorem step_moves (s : WizCall) (e : WizEvent) : WizMove s e (s.step e) := by
  cases e with
  | arrive bytes => exact .arrive bytes
  | proceed fails =>
    unfold WizCall.step
    cases hphase : s.phase with
    | draining => exact dropStale_moves s fails hphase
    | sending attempt => exact sendRequest_moves s attempt fails hphase
    | receiving attempt => exact receiveReply_moves s attempt fails hphase
    | failed => exact .back fails (by rw [hasReturned, hphase])
    | answered d => exact .back fails (by rw [hasReturned, hphase])

/-! ## The counters and the queue -/

/-- What the counters are in each phase. -/
def CountsFit (s : WizCall) : Prop :=
  match s.phase with
  | .draining => s.sends = 0 ∧ s.ignored = 0
  | .sending attempt =>
    1 ≤ attempt ∧ attempt ≤ 2 ∧ s.sends + 1 = attempt ∧ s.ignored ≤ 4 ∧ (attempt = 1 → s.ignored = 0)
  | .receiving attempt => 1 ≤ attempt ∧ attempt ≤ 2 ∧ s.sends = attempt ∧ s.ignored ≤ 4
  | .failed => s.sends ≤ 2 ∧ s.ignored ≤ 5
  | .answered _ => s.sends ≤ 2 ∧ s.ignored ≤ 5

/-- INTERNAL: counts that fit are within the bounds. -/
theorem CountsFit.withinBounds {s : WizCall} (h : CountsFit s) : WithinBounds s := by
  unfold CountsFit at h
  cases hphase : s.phase <;> rw [hphase] at h <;> constructor <;> omega

/-- INTERNAL: while it drains, nothing was sent or ignored. -/
theorem CountsFit.draining {s : WizCall} (h : CountsFit s) (hphase : s.phase = .draining) :
    s.sends = 0 ∧ s.ignored = 0 := by
  rwa [CountsFit, hphase] at h

/-- INTERNAL: in front of an attempt one send less was made. -/
theorem CountsFit.sending {s : WizCall} (h : CountsFit s) {attempt : ℕ}
    (hphase : s.phase = .sending attempt) :
    1 ≤ attempt ∧ attempt ≤ 2 ∧ s.sends + 1 = attempt ∧ s.ignored ≤ 4 ∧
      (attempt = 1 → s.ignored = 0) := by
  rwa [CountsFit, hphase] at h

/-- INTERNAL: behind its send as many as the attempt says. -/
theorem CountsFit.receiving {s : WizCall} (h : CountsFit s) {attempt : ℕ}
    (hphase : s.phase = .receiving attempt) :
    1 ≤ attempt ∧ attempt ≤ 2 ∧ s.sends = attempt ∧ s.ignored ≤ 4 := by
  rwa [CountsFit, hphase] at h

/-- INTERNAL: the counters fit after every move. -/
theorem step_counts {s : WizCall} (h : CountsFit s) (e : WizEvent) : CountsFit (s.step e) := by
  have hmove := step_moves s e
  generalize s.step e = s' at hmove
  cases hmove with
  | arrive bytes => exact h
  | drained fails rest phase suffix =>
    have hcounts := h.draining phase
    unfold CountsFit
    dsimp only
    omega
  | dropped d rest phase queue =>
    have hcounts := h.draining phase
    unfold CountsFit
    dsimp only
    rw [phase]
    exact hcounts
  | sent attempt phase =>
    have hcounts := h.sending phase
    unfold CountsFit
    dsimp only
    omega
  | lost fails attempt phase => exact ⟨h.withinBounds.sends, h.withinBounds.ignored⟩
  | again attempt phase more =>
    have hcounts := h.receiving phase
    unfold CountsFit
    dsimp only
    omega
  | answer attempt d rest phase queue taken => exact ⟨h.withinBounds.sends, h.withinBounds.ignored⟩
  | ignore attempt d rest phase queue other =>
    have hcounts := h.receiving phase
    unfold CountsFit
    dsimp only
    by_cases hmany : 4 < s.ignored + 1
    · rw [if_pos hmany]
      dsimp only
      omega
    · rw [if_neg hmany]
      dsimp only
      omega
  | back fails returned => exact h

/-- Everything that is queued before the first request is stale. -/
def QueuedStale (s : WizCall) : Prop := s.sends = 0 → ∀ d ∈ s.queue, d.fresh = false

/-- INTERNAL: what comes in before the first request is stale, too. -/
theorem step_queuedStale {s : WizCall} (h : QueuedStale s) (e : WizEvent) :
    QueuedStale (s.step e) := by
  have hmove := step_moves s e
  generalize s.step e = s' at hmove
  cases hmove with
  | arrive bytes =>
    intro hsends d hd
    rcases List.mem_append.mp hd with hd | hd
    · exact h hsends d hd
    · have hzero : s.sends = 0 := hsends
      rw [List.mem_singleton.mp hd, hzero]
      rfl
  | drained fails rest phase suffix => exact fun hsends d hd => h hsends d (suffix.subset hd)
  | dropped d rest phase queue =>
    exact fun hsends other hother => h hsends other (queue ▸ List.mem_cons_of_mem d hother)
  | sent attempt phase => exact fun hsends => absurd hsends (Nat.succ_ne_zero _)
  | lost fails attempt phase => exact h
  | again attempt phase more => exact h
  | answer attempt d rest phase queue taken =>
    exact fun hsends other hother => h hsends other (queue ▸ List.mem_cons_of_mem d hother)
  | ignore attempt d rest phase queue other =>
    exact fun hsends d' hd' => h hsends d' (queue ▸ List.mem_cons_of_mem d hd')
  | back fails returned => exact h

/-! ## What can answer -/

/-- The invariant behind a fresh answer: while a request is out, what is stale among the datagrams
that can still be read is not taken for the answer. -/
structure AnswersFresh (s : WizCall) : Prop where
  answer : NoStaleAnswer s
  queued : hasReturned s = false → 0 < s.sends → ∀ d ∈ s.queue.take (5 - s.ignored),
    d.fresh = false → takenForAnswer s d = false

/-- INTERNAL: the datagrams that can still be read, while one is. -/
theorem take_queue {s : WizCall} {d : Datagram} {rest : List Datagram} (h : s.queue = d :: rest)
    (hignored : s.ignored ≤ 4) :
    s.queue.take (5 - s.ignored) = d :: rest.take (5 - (s.ignored + 1)) := by
  rw [h, show 5 - s.ignored = 5 - (s.ignored + 1) + 1 by omega, List.take_succ_cons]

/-- INTERNAL: a move keeps the invariant; the first send brings it about, if the queue allows. -/
theorem step_answersFresh {s : WizCall} (hcounts : CountsFit s) (h : AnswersFresh s) (e : WizEvent)
    (hsend : e = .proceed false → s.phase = .sending 1 → QueueUnrelated s) :
    AnswersFresh (s.step e) := by
  have hmove := step_moves s e
  generalize s.step e = s' at hmove
  cases hmove with
  | arrive bytes =>
    refine ⟨h.answer, fun hrunning hsends d hd hstale => ?_⟩
    rw [List.take_append] at hd
    rcases List.mem_append.mp hd with hd | hd
    · exact h.queued hrunning hsends d hd hstale
    · rw [List.mem_singleton.mp (List.mem_of_mem_take hd)] at hstale
      exact absurd hsends (of_decide_eq_false hstale)
  | drained fails rest phase suffix =>
    refine ⟨fun d hd => (WizPhase.noConfusion hd), fun _ hsends => ?_⟩
    exact absurd (hcounts.draining phase).1 hsends.ne'
  | dropped d rest phase queue =>
    refine ⟨h.answer, fun _ hsends => ?_⟩
    exact absurd (hcounts.draining phase).1 hsends.ne'
  | sent attempt phase =>
    refine ⟨fun d hd => (WizPhase.noConfusion hd), fun _ _ d hd hstale => ?_⟩
    have hattempt := hcounts.sending phase
    by_cases hfirst : attempt = 1
    · subst hfirst
      exact hsend rfl phase d (List.take_subset_take_left _ (Nat.sub_le _ _) hd)
    · have hrunning : hasReturned s = false := by rw [hasReturned, phase]
      exact h.queued hrunning (by omega) d hd hstale
  | lost fails attempt phase =>
    exact ⟨fun d hd => (WizPhase.noConfusion hd), fun hrunning => (Bool.noConfusion hrunning)⟩
  | again attempt phase more =>
    have hrunning : hasReturned s = false := by rw [hasReturned, phase]
    exact ⟨fun d hd => (WizPhase.noConfusion hd), fun _ => h.queued hrunning⟩
  | answer attempt d rest phase queue taken =>
    have hattempt := hcounts.receiving phase
    have hrunning : hasReturned s = false := by rw [hasReturned, phase]
    refine ⟨fun other hother => ?_, fun hreturned => (Bool.noConfusion hreturned)⟩
    have hd : d ∈ s.queue.take (5 - s.ignored) := by
      rw [take_queue queue hattempt.2.2.2]
      exact List.mem_cons_self
    rw [← WizPhase.answered.inj hother]
    by_contra hstale
    have hother := h.queued hrunning (by omega) d hd (Bool.eq_false_of_not_eq_true hstale)
    rw [taken] at hother
    exact Bool.noConfusion hother
  | ignore attempt d rest phase queue other =>
    have hattempt := hcounts.receiving phase
    have hrunning : hasReturned s = false := by rw [hasReturned, phase]
    constructor
    · intro d' hd'
      dsimp only at hd'
      by_cases hmany : 4 < s.ignored + 1
      · rw [if_pos hmany] at hd'
        cases hd'
      · rw [if_neg hmany] at hd'
        cases hd'
    · intro _ hsends d' hd' hstale
      refine h.queued hrunning hsends d' ?_ hstale
      rw [take_queue queue hattempt.2.2.2]
      exact List.mem_cons_of_mem d hd'
  | back fails returned => exact h

/-! ## Runs -/

/-- The sends of a run that are first ones find a queue that is unrelated. -/
def SendsUnrelated (start : WizCall) : List WizEvent → Prop :=
  EveryEvent fun before e =>
    e = .proceed false → (start.run before).phase = .sending 1 → QueueUnrelated (start.run before)

/-- INTERNAL: the counts fit after every run. -/
theorem run_counts {s : WizCall} (h : CountsFit s) (events : List WizEvent) :
    CountsFit (s.run events) := by
  induction events generalizing s with
  | nil => exact h
  | cons e events ih => exact ih (step_counts h e)

/-- INTERNAL: so it is after every run, as long as nothing was sent. -/
theorem run_queuedStale {s : WizCall} (h : QueuedStale s) (events : List WizEvent) :
    QueuedStale (s.run events) := by
  induction events generalizing s with
  | nil => exact h
  | cons e events ih => exact ih (step_queuedStale h e)

/-- INTERNAL: **every answer of a run is fresh** whose first send finds an unrelated queue. -/
theorem run_answersFresh {s : WizCall} (hcounts : CountsFit s) (h : AnswersFresh s)
    (events : List WizEvent) (hsends : SendsUnrelated s events) : AnswersFresh (s.run events) := by
  induction events generalizing s with
  | nil => exact h
  | cons e events ih =>
    obtain ⟨hfirst, hrest⟩ := (everyEvent_cons _ e events).mp hsends
    exact ih (step_counts hcounts e) (step_answersFresh hcounts h e hfirst) hrest

/-- INTERNAL: the counts of a new call fit. -/
theorem wizSendRecv_counts (method : CStr) (respSz : ℕ) (queued : List (List UInt8))
    (goodIp : Bool) : CountsFit (wizSendRecv method respSz queued goodIp) := by
  cases goodIp with
  | true => exact ⟨rfl, rfl⟩
  | false => exact ⟨Nat.zero_le _, Nat.zero_le _⟩

/-- INTERNAL: all that waits for a new call is stale. -/
theorem wizSendRecv_queuedStale (method : CStr) (respSz : ℕ) (queued : List (List UInt8))
    (goodIp : Bool) : QueuedStale (wizSendRecv method respSz queued goodIp) := by
  intro _ d hd
  obtain ⟨bytes, -, rfl⟩ := List.mem_map.mp hd
  rfl

/-- INTERNAL: a new call has no answer yet. -/
theorem wizSendRecv_answersFresh (method : CStr) (respSz : ℕ) (queued : List (List UInt8))
    (goodIp : Bool) : AnswersFresh (wizSendRecv method respSz queued goodIp) := by
  constructor
  · intro d hd
    cases goodIp with
    | true => cases hd
    | false => cases hd
  · exact fun _ hsends => absurd hsends (lt_irrefl 0)

/-! ## The stale answer -/

/-- INTERNAL: an answer that is taken ends the call. -/
theorem step_taken {s : WizCall} {attempt : ℕ} {d : Datagram} {rest : List Datagram}
    (hphase : s.phase = .receiving attempt) (hqueue : s.queue = d :: rest)
    (htaken : takenForAnswer s d = true) :
    s.step (.proceed false) = { s with queue := rest, phase := .answered d } := by
  unfold takenForAnswer at htaken
  rw [WizCall.step, hphase]
  dsimp only
  rw [receiveReply, if_neg Bool.false_ne_true, hqueue]
  dsimp only
  rw [if_pos htaken]

/-- INTERNAL: any other is counted, and the loop turns. -/
theorem step_ignored {s : WizCall} {attempt : ℕ} {d : Datagram} {rest : List Datagram}
    (hphase : s.phase = .receiving attempt) (hqueue : s.queue = d :: rest)
    (hother : takenForAnswer s d = false) (hmore : s.ignored < 4) :
    s.step (.proceed false) =
      { s with queue := rest, ignored := s.ignored + 1, phase := .receiving attempt } := by
  unfold takenForAnswer at hother
  rw [WizCall.step, hphase]
  dsimp only
  rw [receiveReply, if_neg Bool.false_ne_true, hqueue]
  dsimp only
  rw [hother, if_neg Bool.false_ne_true, if_neg (by unfold wizMaxIgnoredReplies; omega), hphase]

/-- INTERNAL: reading on, a call takes the first of the datagrams that looks like an answer. -/
theorem stale_answer_of_queue {s : WizCall} {attempt : ℕ} (hphase : s.phase = .receiving attempt)
    (hstale : ∀ d ∈ s.queue, d.fresh = false)
    (htaken : ∃ d ∈ s.queue.take (5 - s.ignored), takenForAnswer s d = true) :
    ∃ events d, (s.run events).phase = .answered d ∧ d.fresh = false := by
  induction hqueue : s.queue generalizing s with
  | nil =>
    rw [hqueue, List.take_nil] at htaken
    obtain ⟨d, hd, -⟩ := htaken
    cases hd
  | cons d rest ih =>
    cases hd : takenForAnswer s d with
    | true =>
      refine ⟨[.proceed false], d, ?_, hstale d (hqueue ▸ List.mem_cons_self)⟩
      rw [wizRun_cons, step_taken hphase hqueue hd]
      rfl
    | false =>
      obtain ⟨other, hother, htaken⟩ := htaken
      have hpos : 0 < 5 - s.ignored := by
        by_contra hnone
        rw [Nat.eq_zero_of_not_pos hnone, List.take_zero] at hother
        cases hother
      rw [take_queue hqueue (by omega)] at hother
      rcases List.mem_cons.mp hother with rfl | hother
      · exact absurd htaken (hd ▸ Bool.false_ne_true)
      · have hmore : s.ignored < 4 := by
          by_contra hmany
          rw [show 5 - (s.ignored + 1) = 0 by omega, List.take_zero] at hother
          cases hother
        have hstep := step_ignored hphase hqueue hd hmore
        have hrest : ∀ d' ∈ rest, d'.fresh = false :=
          fun d' hd' => hstale d' (hqueue ▸ List.mem_cons_of_mem d hd')
        obtain ⟨events, d', hanswered, hd'⟩ :=
          ih (s := s.step (.proceed false)) (by rw [hstep]) (by rw [hstep]; exact hrest)
            (by rw [hstep]; exact ⟨other, hother, htaken⟩) (by rw [hstep])
        exact ⟨.proceed false :: events, d', hanswered, hd'⟩

/-- INTERNAL: **only an unrelated queue** at the first send keeps every answer fresh. -/
theorem queueUnrelated_of_fresh {s : WizCall} (hcounts : CountsFit s) (hstale : QueuedStale s)
    (hphase : s.phase = .sending 1)
    (hfresh : ∀ after, NoStaleAnswer (s.run (.proceed false :: after))) : QueueUnrelated s := by
  obtain ⟨-, -, hsends, -, hignored⟩ := hcounts.sending hphase
  have hsent : s.step (.proceed false) =
      { s with phase := .receiving 1, sends := s.sends + 1 } := by
    rw [WizCall.step, hphase]
    rfl
  have hreceiving : (s.step (.proceed false)).phase = .receiving 1 := by rw [hsent]
  intro d hd
  by_contra htaken
  have hqueued : ∀ d ∈ (s.step (.proceed false)).queue, d.fresh = false := by
    rw [hsent]
    exact hstale (by omega)
  have hread : ∃ d ∈ (s.step (.proceed false)).queue.take (5 - (s.step (.proceed false)).ignored),
      takenForAnswer (s.step (.proceed false)) d = true := by
    rw [hsent]
    refine ⟨d, ?_, Bool.eq_true_of_not_eq_false htaken⟩
    dsimp only
    rw [hignored rfl]
    exact hd
  obtain ⟨events, stale, hanswered, hno⟩ := stale_answer_of_queue hreceiving hqueued hread
  have := hfresh events stale hanswered
  rw [hno] at this
  cases this

/-! ## The end of a call -/

/-- The steps that are left to a call. -/
def remaining (s : WizCall) : ℕ :=
  match s.phase with
  | .draining => s.queue.length + 9
  | .sending attempt => 2 * (3 - attempt) + (4 - s.ignored)
  | .receiving attempt => 2 * (3 - attempt) - 1 + (4 - s.ignored)
  | .failed => 0
  | .answered _ => 0

/-- INTERNAL: a step of a call that is still running uses one up, a datagram adds one at most. -/
theorem step_remaining {s : WizCall} (hcounts : CountsFit s) (hrunning : hasReturned s = false)
    (e : WizEvent) :
    remaining (s.step e) + proceeds [e] ≤ remaining s + arrivals [e] := by
  have hmove := step_moves s e
  generalize s.step e = s' at hmove
  cases hmove with
  | arrive bytes =>
    rw [proceeds_arrive, arrivals_arrive, arrivals_nil, proceeds_nil]
    unfold remaining
    dsimp only
    rw [List.length_append, List.length_singleton]
    cases s.phase <;> dsimp only <;> omega
  | drained fails rest phase suffix =>
    have hcounts := hcounts.draining phase
    rw [remaining, remaining, phase, proceeds_proceed, arrivals_proceed, arrivals_nil,
      proceeds_nil]
    dsimp only
    omega
  | dropped d rest phase queue =>
    have hlength : s.queue.length = rest.length + 1 := by rw [queue, List.length_cons]
    rw [remaining, remaining, proceeds_proceed, arrivals_proceed, arrivals_nil, proceeds_nil, phase]
    dsimp only
    omega
  | sent attempt phase =>
    have hcounts := hcounts.sending phase
    rw [remaining, remaining, phase, proceeds_proceed, arrivals_proceed, arrivals_nil,
      proceeds_nil]
    dsimp only
    omega
  | lost fails attempt phase =>
    rw [proceeds_proceed, arrivals_proceed, arrivals_nil, proceeds_nil]
    rcases phase with phase | phase
    · have hcounts := hcounts.sending phase
      rw [remaining, remaining, phase]
      dsimp only
      omega
    · have hcounts := hcounts.receiving phase
      rw [remaining, remaining, phase]
      dsimp only
      omega
  | again attempt phase more =>
    have hcounts := hcounts.receiving phase
    rw [remaining, remaining, phase, proceeds_proceed, arrivals_proceed, arrivals_nil,
      proceeds_nil]
    dsimp only
    omega
  | answer attempt d rest phase queue taken =>
    have hcounts := hcounts.receiving phase
    rw [remaining, remaining, phase, proceeds_proceed, arrivals_proceed, arrivals_nil,
      proceeds_nil]
    dsimp only
    omega
  | ignore attempt d rest phase queue other =>
    have hcounts := hcounts.receiving phase
    rw [proceeds_proceed, arrivals_proceed, arrivals_nil, proceeds_nil]
    by_cases hmany : 4 < s.ignored + 1
    · rw [if_pos hmany, remaining, remaining, phase]
      dsimp only
      omega
    · rw [if_neg hmany, remaining, remaining, phase]
      dsimp only
      omega
  | back fails returned =>
    rw [hrunning] at returned
    cases returned

/-- INTERNAL: a call that returned stays so in a step. -/
theorem returned_step {s : WizCall} (h : hasReturned s = true) (e : WizEvent) :
    hasReturned (s.step e) = true := by
  cases e with
  | arrive bytes => exact h
  | proceed fails =>
    unfold hasReturned at h
    cases hphase : s.phase with
    | draining => rw [hphase] at h; cases h
    | sending attempt => rw [hphase] at h; cases h
    | receiving attempt => rw [hphase] at h; cases h
    | failed => rw [WizCall.step, hphase, hasReturned, hphase]
    | answered d => rw [WizCall.step, hphase, hasReturned, hphase]

/-- INTERNAL: and in a run. -/
theorem returned_run {s : WizCall} (h : hasReturned s = true) (events : List WizEvent) :
    hasReturned (s.run events) = true := by
  induction events generalizing s with
  | nil => exact h
  | cons e events ih => exact ih (returned_step h e)

/-- INTERNAL: a run after which the call is still going has not used its steps up. -/
theorem run_remaining {s : WizCall} (hcounts : CountsFit s) (events : List WizEvent)
    (hrunning : hasReturned (s.run events) = false) :
    remaining (s.run events) + proceeds events ≤ remaining s + arrivals events := by
  induction events generalizing s with
  | nil => exact le_refl _
  | cons e events ih =>
    have hnow : hasReturned s = false := by
      by_contra hreturned
      have := returned_run (Bool.eq_true_of_not_eq_false hreturned) (e :: events)
      rw [hrunning] at this
      cases this
    have hstep := step_remaining hcounts hnow e
    have hrest := ih (step_counts hcounts e) hrunning
    rw [wizRun_cons]
    cases e with
    | arrive bytes =>
      rw [proceeds_arrive, arrivals_arrive, proceeds_nil, arrivals_nil] at hstep
      rw [proceeds_arrive, arrivals_arrive]
      omega
    | proceed fails =>
      rw [proceeds_proceed, arrivals_proceed, proceeds_nil, arrivals_nil] at hstep
      rw [proceeds_proceed, arrivals_proceed]
      omega

/-- INTERNAL: a call that goes on has steps left. -/
theorem remaining_pos {s : WizCall} (hcounts : CountsFit s) (hrunning : hasReturned s = false) :
    0 < remaining s := by
  unfold hasReturned at hrunning
  unfold remaining
  cases hphase : s.phase with
  | draining => exact Nat.succ_pos _
  | sending attempt =>
    have := hcounts.sending hphase
    dsimp only
    omega
  | receiving attempt =>
    have := hcounts.receiving hphase
    dsimp only
    omega
  | failed =>
    rw [hphase] at hrunning
    cases hrunning
  | answered d =>
    rw [hphase] at hrunning
    cases hrunning

/-- INTERNAL: **every call returns**. -/
theorem wizSendRecv_returns (method : CStr) (respSz : ℕ) (queued : List (List UInt8))
    (goodIp : Bool) (events : List WizEvent)
    (h : queued.length + arrivals events + 9 ≤ proceeds events) :
    hasReturned ((wizSendRecv method respSz queued goodIp).run events) = true := by
  by_contra hrunning
  have hrunning := Bool.eq_false_of_not_eq_true hrunning
  have hcounts := wizSendRecv_counts method respSz queued goodIp
  have hleft := run_remaining hcounts events hrunning
  have hpos := remaining_pos (run_counts hcounts events) hrunning
  have hstart : remaining (wizSendRecv method respSz queued goodIp) ≤ queued.length + 9 := by
    cases goodIp with
    | true => exact (congrArg (· + 9) (List.length_map _)).le
    | false => exact Nat.zero_le _
  omega

/-! ## What the drain does -/

/-- INTERNAL: a datagram with bytes is dropped in front of the send. -/
theorem step_dropped {s : WizCall} {d : Datagram} {rest : List Datagram}
    (hphase : s.phase = .draining) (hqueue : s.queue = d :: rest) (hbytes : d.bytes ≠ []) :
    s.step (.proceed false) = { s with queue := rest, dropped := s.dropped + 1 } := by
  have hpos : 0 < (d.bytes.take maxPacketBufSize).length := by
    have := List.length_pos_of_ne_nil hbytes
    rw [List.length_take]
    unfold maxPacketBufSize
    omega
  rw [WizCall.step, hphase]
  dsimp only
  rw [dropStale, if_neg Bool.false_ne_true, hqueue]
  dsimp only
  rw [if_pos hpos, hphase]

/-! ## After the first request -/

/-- INTERNAL: no step takes a send back. -/
theorem step_sends (s : WizCall) (e : WizEvent) : s.sends ≤ (s.step e).sends := by
  have hmove := step_moves s e
  generalize s.step e = s' at hmove
  cases hmove with
  | sent attempt phase => exact Nat.le_succ _
  | arrive bytes => exact le_refl _
  | drained fails rest phase suffix => exact le_refl _
  | dropped d rest phase queue => exact le_refl _
  | lost fails attempt phase => exact le_refl _
  | again attempt phase more => exact le_refl _
  | answer attempt d rest phase queue taken => exact le_refl _
  | ignore attempt d rest phase queue other => exact le_refl _
  | back fails returned => exact le_refl _

/-- INTERNAL: so no run does. -/
theorem run_sends (s : WizCall) (events : List WizEvent) : s.sends ≤ (s.run events).sends := by
  induction events generalizing s with
  | nil => exact le_refl _
  | cons e events ih => exact (step_sends s e).trans (ih (s.step e))

/-- INTERNAL: there is one first send. -/
theorem sendsUnrelated_of_sent {s : WizCall} (hcounts : CountsFit s) (hsent : 0 < s.sends)
    (events : List WizEvent) : SendsUnrelated s events := by
  intro before e after _ _ hphase
  have hsends := ((run_counts hcounts before).sending hphase).2.2.1
  have := run_sends s before
  omega

/-- INTERNAL: an unrelated queue at the first send keeps every answer fresh. -/
theorem fresh_of_queueUnrelated {s : WizCall} (hcounts : CountsFit s) (hphase : s.phase = .sending 1)
    (hunrelated : QueueUnrelated s) (after : List WizEvent) :
    NoStaleAnswer (s.run (.proceed false :: after)) := by
  have hsends := (hcounts.sending hphase).2.2.1
  have hnow : AnswersFresh s := by
    refine ⟨fun d hd => ?_, fun _ hpos => by omega⟩
    rw [hphase] at hd
    cases hd
  have hsent : (s.step (.proceed false)).sends = s.sends + 1 := by
    rw [WizCall.step, hphase]
    rfl
  have hnext := step_answersFresh hcounts hnow (.proceed false) fun _ _ => hunrelated
  exact (run_answersFresh (step_counts hcounts _) hnext after
    (sendsUnrelated_of_sent (step_counts hcounts _) (by omega) after)).answer

/-- INTERNAL: while no receive fails, nothing comes in and no datagram is empty, **the drain
empties the queue** before the first request goes out. -/
theorem drain_sendsUnrelated {s : WizCall} (hcounts : CountsFit s) (hphase : s.phase = .draining)
    (hbytes : ∀ d ∈ s.queue, d.bytes ≠ []) (after : List WizEvent) :
    SendsUnrelated s
      (List.replicate (s.queue.length + 1) (.proceed false) ++ .proceed false :: after) := by
  have hnow : s.phase ≠ .sending 1 := by
    rw [hphase]
    exact fun hsending => WizPhase.noConfusion hsending
  induction hqueue : s.queue generalizing s with
  | nil =>
    have hstep : s.step (.proceed false) = { s with queue := [], phase := .sending 1 } := by
      rw [WizCall.step, hphase]
      dsimp only
      rw [dropStale, if_neg Bool.false_ne_true, hqueue]
    have hsending : (s.step (.proceed false)).phase = .sending 1 := by rw [hstep]
    have hcounts' := step_counts hcounts (.proceed false)
    have hsends := (hcounts'.sending hsending).2.2.1
    have hsent : 0 < ((s.step (.proceed false)).step (.proceed false)).sends := by
      have hsent' : ((s.step (.proceed false)).step (.proceed false)).sends =
          (s.step (.proceed false)).sends + 1 := by
        rw [WizCall.step, hsending]
        rfl
      omega
    refine (everyEvent_cons _ _ _).mpr ⟨fun _ hsending => absurd hsending hnow,
      (everyEvent_cons _ _ _).mpr ⟨fun _ _ d hd => ?_, ?_⟩⟩
    · have hempty : (s.run [.proceed false]).queue = [] := by
        show (s.step (.proceed false)).queue = []
        rw [hstep]
      rw [hempty, List.take_nil] at hd
      cases hd
    · exact sendsUnrelated_of_sent (step_counts hcounts' (.proceed false)) hsent after
  | cons d rest ih =>
    have hstep := step_dropped hphase hqueue (hbytes d (hqueue ▸ List.mem_cons_self))
    have hrest : ∀ d' ∈ (s.step (.proceed false)).queue, d'.bytes ≠ [] := by
      rw [hstep]
      exact fun d' hd' => hbytes d' (hqueue ▸ List.mem_cons_of_mem d hd')
    have hphase' : (s.step (.proceed false)).phase = .draining := by
      rw [hstep]
      exact hphase
    refine (everyEvent_cons _ _ _).mpr ⟨fun _ hsending => absurd hsending hnow, ?_⟩
    exact ih (step_counts hcounts _) hphase' hrest (by rw [hphase']; exact fun h => (WizPhase.noConfusion h))
      (by rw [hstep])

/-- INTERNAL: so a call is free of stale answers whose queue has no empty datagram, if nothing comes
in before its first request. -/
theorem sendsUnrelated_of_nonempty (method : CStr) (respSz : ℕ) (queued : List (List UInt8))
    (hbytes : ∀ bytes ∈ queued, bytes ≠ []) (after : List WizEvent) :
    SendsUnrelated (wizSendRecv method respSz queued true)
      (List.replicate (queued.length + 1) (.proceed false) ++ .proceed false :: after) := by
  have hqueued : ∀ d ∈ (wizSendRecv method respSz queued true).queue, d.bytes ≠ [] := by
    intro d hd
    obtain ⟨bytes, hmem, rfl⟩ := List.mem_map.mp hd
    exact hbytes bytes hmem
  have hlength : (wizSendRecv method respSz queued true).queue.length = queued.length :=
    List.length_map _
  rw [← hlength]
  exact drain_sendsUnrelated (wizSendRecv_counts method respSz queued true) rfl hqueued after

/-- **Which calls no stale datagram answers.** In every run a call sends at most two requests,
ignores at most five datagrams and returns; it does not answer with a stale datagram if the queue
is unrelated at the first send, and for every other queue there is a run that does. It is unrelated
if no datagram that is found is empty and nothing comes in before that send.
SRCLINE: wiz_client.c:132-220 -/
theorem stale_replies (method : CStr) (respSz : ℕ) (queued : List (List UInt8)) (goodIp : Bool) :
    (∀ events, WithinBounds ((wizSendRecv method respSz queued goodIp).run events) ∧
      (queued.length + arrivals events + 9 ≤ proceeds events →
        hasReturned ((wizSendRecv method respSz queued goodIp).run events) = true)) ∧
    (∀ events, SendsUnrelated (wizSendRecv method respSz queued goodIp) events →
      NoStaleAnswer ((wizSendRecv method respSz queued goodIp).run events)) ∧
    (∀ before, ((wizSendRecv method respSz queued goodIp).run before).phase = .sending 1 →
      ((∀ after, NoStaleAnswer
          ((wizSendRecv method respSz queued goodIp).run (before ++ .proceed false :: after))) ↔
        QueueUnrelated ((wizSendRecv method respSz queued goodIp).run before))) ∧
    (goodIp = true → (∀ bytes ∈ queued, bytes ≠ []) → ∀ after,
      SendsUnrelated (wizSendRecv method respSz queued goodIp)
        (List.replicate (queued.length + 1) (.proceed false) ++ .proceed false :: after)) := by
  have hcounts := wizSendRecv_counts method respSz queued goodIp
  have hfresh := wizSendRecv_answersFresh method respSz queued goodIp
  refine ⟨fun events => ⟨(run_counts hcounts events).withinBounds,
    wizSendRecv_returns method respSz queued goodIp events⟩,
    fun events hsends => (run_answersFresh hcounts hfresh events hsends).answer, ?_, ?_⟩
  swap
  · rintro rfl hbytes after
    exact sendsUnrelated_of_nonempty method respSz queued hbytes after
  intro before hphase
  have hbefore := run_counts hcounts before
  have hstale := run_queuedStale (wizSendRecv_queuedStale method respSz queued goodIp) before
  constructor
  · intro h
    refine queueUnrelated_of_fresh hbefore hstale hphase fun after => ?_
    rw [← wizRun_append]
    exact h after
  · intro hunrelated after
    rw [wizRun_append]
    exact fresh_of_queueUnrelated hbefore hphase hunrelated after

/-- An earlier reply of the lamp. -/
def earlierReply : CStr :=
  lit "\x7b\"method\":\"getPilot\",\"result\":\x7b\"state\":true\x7d\x7d"

/-- A call that finds the earlier reply alone drops it, and takes the new one. -/
example :
    SendsUnrelated (wizSendRecv (lit "getPilot") 512 [earlierReply] true)
        ([.proceed false, .proceed false] ++ .proceed false :: [.arrive earlierReply, .proceed false]) ∧
      ((wizSendRecv (lit "getPilot") 512 [earlierReply] true).run
        [.proceed false, .proceed false, .proceed false, .arrive earlierReply,
          .proceed false]).phase = .answered ⟨earlierReply, true⟩ :=
  ⟨sendsUnrelated_of_nonempty (lit "getPilot") 512 [earlierReply] (by decide) _, by decide +kernel⟩

/-- A call that finds an empty datagram and an earlier reply, and takes three steps. -/
def staleCall : WizCall :=
  (wizSendRecv (lit "getPilot") 512 [[], earlierReply] true).run
    [.proceed false, .proceed false, .proceed false]

/-- INTERNAL: the drain stops at the empty datagram, and the earlier reply answers. -/
theorem stale_reply_behind_an_empty_datagram :
    staleCall.phase = .answered ⟨earlierReply, false⟩ ∧
      ¬∀ (method : CStr) (respSz : ℕ) (queued : List (List UInt8)) (goodIp : Bool)
        (events : List WizEvent),
        NoStaleAnswer ((wizSendRecv method respSz queued goodIp).run events) := by
  have hanswered : staleCall.phase = .answered ⟨earlierReply, false⟩ := by decide +kernel
  refine ⟨hanswered, fun h => ?_⟩
  have := h _ _ _ _ _ _ hanswered
  cases this

end OpenHes.Analysis
