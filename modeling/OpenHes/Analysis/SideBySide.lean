import OpenHes.Model.Gateway
import OpenHes.Analysis.DeniedFirst

/-!
# Two runs on messages that differ in their credentials

Two runs of the core side by side. They take messages that agree in everything but the
accompanied information, and go the same way as long as the hook answers the same. The
first answers that differ set them apart, and then the answers recorded in the two traces
stay different.
-/

set_option autoImplicit false

namespace OpenHes.Analysis

open OpenHes.Library OpenHes.Model

variable {V α : Type}

/-! ## Messages without their credentials -/

/-- The message without its accompanying information and without the time stamp, which is
made anew whenever the message is sent. -/
def bare (m : HesClmeMsg) : HesClmeMsg := { m with credInfo := [], userName := [], timestampNs := 0 }

/-- INTERNAL: what messages have in common that are the same without their credentials. -/
theorem fields_of_bare {m m' : HesClmeMsg} (h : bare m' = bare m) :
    m'.path = m.path ∧ m'.verb = m.verb ∧ m'.deviceIndex = m.deviceIndex ∧
      m'.query = m.query ∧ m'.payloadLen = m.payloadLen ∧ m'.payload = m.payload := by
  simp only [bare, HesClmeMsg.mk.injEq] at h
  obtain ⟨hpath, hverb, hdevice, hquery, hlen, hpayload, -⟩ := h
  exact ⟨hpath, hverb, hdevice, hquery, hlen, hpayload⟩

/-- The messages are for the same object and device. -/
structure SameAddress (m m' : HesClmeMsg) : Prop where
  path : m'.path = m.path
  verb : m'.verb = m.verb
  deviceIndex : m'.deviceIndex = m.deviceIndex

/-- An event of the evaluator without the credentials of the message it is about. -/
def bareBmEvent : BmEvent V → BmEvent V
  | .authCall i m atAddress verdict => .authCall i (bare m) atAddress verdict
  | e => e

/-- Does the event do anything? A report does not until it is stored. -/
def bmActs : BmEvent V → Bool
  | .report _ => false
  | _ => true

/-- What is done in a trace of the evaluator, without credentials. -/
def bmView (trace : List (BmEvent V)) : List (BmEvent V) := (trace.filter bmActs).map bareBmEvent

/-- An event of the core without credentials; of a relayed message `keep` says what is left. -/
def bareEvent (keep : HesClmeMsg → HesClmeMsg) : CoreEvent V → CoreEvent V
  | .eval e => .eval (bareBmEvent e)
  | .relay m => .relay (keep m)
  | e => e

/-- Does the event do anything? A message does not by being taken. -/
def coreActs : CoreEvent V → Bool
  | .message _ => false
  | .eval e => bmActs e
  | _ => true

/-- What is done in a trace of the core, without credentials. -/
def coreView (keep : HesClmeMsg → HesClmeMsg) (trace : List (CoreEvent V)) :
    List (CoreEvent V) := (trace.filter coreActs).map (bareEvent keep)

/-- INTERNAL: the view of two histories is that of each. -/
theorem bmView_append (trace more : List (BmEvent V)) :
    bmView (trace ++ more) = bmView trace ++ bmView more := by
  simp [bmView]

/-- INTERNAL: so is the view of the core. -/
theorem coreView_append (keep : HesClmeMsg → HesClmeMsg) (trace more : List (CoreEvent V)) :
    coreView keep (trace ++ more) = coreView keep trace ++ coreView keep more := by
  simp [coreView]

/-- The answer of the hook, if the event is a call of it. -/
def verdictOf : BmEvent V → Option Bool
  | .authCall _ _ _ verdict => some verdict
  | _ => none

/-- The answers of the hook, in order. -/
def decisions (trace : List (BmEvent V)) : List Bool := trace.filterMap verdictOf

/-- The same of an event of the core. -/
def coreVerdictOf : CoreEvent V → Option Bool
  | .eval e => verdictOf e
  | _ => none

/-- The answers of the hook in a run of the core. -/
def coreDecisions (trace : List (CoreEvent V)) : List Bool := trace.filterMap coreVerdictOf

/-- Two lists of answers differ at a place that both have. -/
def Apart (answers answers' : List Bool) : Prop :=
  ∃ (k : ℕ) (v : Bool), answers[k]? = some v ∧ answers'[k]? = some (!v)

/-- INTERNAL: answers that come apart differ. -/
theorem Apart.ne {answers answers' : List Bool} (h : Apart answers answers') :
    answers' ≠ answers := by
  rintro rfl
  obtain ⟨k, v, hv, hv'⟩ := h
  rw [hv] at hv'
  simp at hv'

/-- INTERNAL: they stay apart, whatever follows. -/
theorem Apart.append {answers answers' : List Bool} (h : Apart answers answers')
    (more more' : List Bool) : Apart (answers ++ more) (answers' ++ more') := by
  obtain ⟨k, v, hv, hv'⟩ := h
  have hk := (List.getElem?_eq_some_iff.mp hv).1
  have hk' := (List.getElem?_eq_some_iff.mp hv').1
  refine ⟨k, v, ?_, ?_⟩
  · rw [List.getElem?_append_left hk, hv]
  · rw [List.getElem?_append_left hk', hv']

/-- INTERNAL: and behind equal answers. -/
theorem Apart.behind {answers answers' : List Bool} (before : List Bool)
    (h : Apart answers answers') : Apart (before ++ answers) (before ++ answers') := by
  obtain ⟨k, v, hv, hv'⟩ := h
  refine ⟨before.length + k, v, ?_, ?_⟩
  · rw [List.getElem?_append_right (by omega), Nat.add_sub_cancel_left, hv]
  · rw [List.getElem?_append_right (by omega), Nat.add_sub_cancel_left, hv']

/-- INTERNAL: the answers are among what is done. -/
theorem decisions_view (trace : List (BmEvent V)) : decisions (bmView trace) = decisions trace := by
  induction trace with
  | nil => rfl
  | cons e trace ih =>
    have hcons : bmView (e :: trace) = bmView [e] ++ bmView trace := bmView_append [e] trace
    unfold decisions at ih ⊢
    rw [hcons, List.filterMap_append, ih]
    cases e <;> rfl

/-- INTERNAL: a view keeps the decisions. -/
theorem coreDecisions_view (keep : HesClmeMsg → HesClmeMsg) (trace : List (CoreEvent V)) :
    coreDecisions (coreView keep trace) = coreDecisions trace := by
  induction trace with
  | nil => rfl
  | cons e trace ih =>
    have hcons : coreView keep (e :: trace) = coreView keep [e] ++ coreView keep trace :=
      coreView_append keep [e] trace
    unfold coreDecisions at ih ⊢
    rw [hcons, List.filterMap_append, ih]
    cases e with
    | eval e => cases e <;> rfl
    | _ => rfl

/-! ## The evaluator -/

/-- The states agree, and so do their traces without credentials. -/
structure BmAlike (s t : BmState V α) : Prop where
  cache : t.cache = s.cache
  mem : t.mem = s.mem
  app : t.app = s.app
  trace : bmView t.trace = bmView s.trace

/-- The traces record different answers; only runs that may split do. -/
def BmSplit (split : Prop) (s t : BmState V α) : Prop :=
  split ∧ Apart (decisions s.trace) (decisions t.trace)

/-- Events were added to the trace. -/
def BmGrows (s t : BmState V α) : Prop := ∃ evs, t.trace = s.trace ++ evs

/-- INTERNAL: a state grows out of itself. -/
theorem BmGrows.refl (s : BmState V α) : BmGrows s s := ⟨[], by simp⟩

/-- INTERNAL: growing twice is growing. -/
theorem BmGrows.trans (s t u : BmState V α) (h : BmGrows s t) (h' : BmGrows t u) :
    BmGrows s u := by
  obtain ⟨evs, hevs⟩ := h
  obtain ⟨evs', hevs'⟩ := h'
  exact ⟨evs ++ evs', by rw [hevs', hevs, List.append_assoc]⟩

/-- INTERNAL: runs that came apart stay apart while both grow. -/
theorem BmSplit.keep {split : Prop} (s t s' t' : BmState V α) (h : BmSplit split s t)
    (hs : BmGrows s s') (ht : BmGrows t t') : BmSplit split s' t' := by
  obtain ⟨evs, hevs⟩ := hs
  obtain ⟨evs', hevs'⟩ := ht
  refine ⟨h.1, ?_⟩
  unfold decisions
  rw [hevs, hevs', List.filterMap_append, List.filterMap_append]
  exact h.2.append _ _

/-- INTERNAL: the same event added to states that agree. -/
theorem BmAlike.log {s t : BmState V α} (h : BmAlike s t) (evs evs' : List (BmEvent V))
    (hevs : bmView evs' = bmView evs) : bmView (t.trace ++ evs') = bmView (s.trace ++ evs) := by
  rw [bmView_append, bmView_append, h.trace, hevs]

variable [CDouble V] (host : BmHost V α) (bm : BindingMap V) {m m' : HesClmeMsg}

/-- The gates ask the hook about the row. -/
def Asked (op : BmOperation V) : Prop :=
  bm.authzDisabled = false ∧ authorTypeOpen op = true ∧ opRequiresAuthorization op = true

omit [CDouble V] in
/-- INTERNAL: with the same answer of the hook the gates do the same. -/
theorem gates_same (hbare : bare m' = bare m) (i : ℕ) (op : BmOperation V)
    (hsame : hookAccepts host m' op = hookAccepts host m op) :
    outputAuthorized host bm m' op = outputAuthorized host bm m op ∧
      bmView (authEvents host bm m' i op) = bmView (authEvents host bm m i op) := by
  unfold outputAuthorized authEvents
  rw [hsame]
  refine ⟨rfl, ?_⟩
  split
  · show [BmEvent.authCall i (bare m') _ _] = [BmEvent.authCall i (bare m) _ _]
    rw [hbare]
  · rfl

omit [CDouble V] in
/-- INTERNAL: a row the hook is not asked about passes or not, whatever the message. -/
theorem gates_unasked (m : HesClmeMsg) (i : ℕ) (op : BmOperation V) (hask : ¬ Asked bm op) :
    outputAuthorized host bm m op = (bm.authzDisabled || authorTypeOpen op) ∧
      authEvents host bm m i op = [] := by
  unfold Asked at hask
  unfold outputAuthorized authEvents
  cases hauthz : bm.authzDisabled with
  | true => simp
  | false =>
    cases hopen : authorTypeOpen op with
    | false => simp
    | true =>
      cases hreq : opRequiresAuthorization op with
      | false => simp
      | true => exact absurd ⟨hauthz, hopen, hreq⟩ hask

omit [CDouble V] in
/-- INTERNAL: answers that differ are answers of a hook that is there, and one is the other's
opposite. -/
theorem hookAccepts_differ (op : BmOperation V)
    (h : hookAccepts host m' op ≠ hookAccepts host m op) :
    host.authAuthorize.isSome = true ∧
      hookAccepts host m' op = !hookAccepts host m op := by
  refine ⟨?_, ?_⟩
  · cases hh : host.authAuthorize with
    | none => simp [hookAccepts, hh] at h
    | some _ => rfl
  · cases h1 : hookAccepts host m' op <;> cases h2 : hookAccepts host m op <;> simp_all

omit [CDouble V] in
/-- INTERNAL: after an answer that differs, the traces are apart. -/
theorem authEvents_split {split : Prop} (hsplit : split) (i : ℕ) (op : BmOperation V)
    (hask : Asked bm op) (h : hookAccepts host m' op ≠ hookAccepts host m op)
    (s t : BmState V α) (hst : BmAlike s t) :
    BmSplit split { s with trace := s.trace ++ authEvents host bm m i op }
      { t with trace := t.trace ++ authEvents host bm m' i op } := by
  obtain ⟨hhook, hnot⟩ := hookAccepts_differ host op h
  obtain ⟨hauthz, hopen, hreq⟩ := hask
  have hevents : ∀ m, authEvents host bm m i op =
      [.authCall i m (bmAtAddress op) (hookAccepts host m op)] := by
    intro m
    simp [authEvents, hauthz, hopen, hreq, hhook]
  have hbefore : decisions t.trace = decisions s.trace := by
    rw [← decisions_view t.trace, hst.trace, decisions_view]
  refine ⟨hsplit, ?_⟩
  show Apart (decisions (s.trace ++ authEvents host bm m i op))
    (decisions (t.trace ++ authEvents host bm m' i op))
  unfold decisions at hbefore ⊢
  rw [hevents m, hevents m', List.filterMap_append, List.filterMap_append, hbefore]
  apply Apart.behind
  exact ⟨0, hookAccepts host m op, rfl, congrArg some hnot⟩

/-- INTERNAL: **the gates** let the same results pass, unless the hook is asked and answers
differently, and then the answers are in the traces.
SRCLINE: bm.c:573-595 -/
theorem gateOutput_alike (split : Prop) (hbare : bare m' = bare m) (i : ℕ) (op : BmOperation V)
    (hasked : split ∨ (Asked bm op → hookAccepts host m' op = hookAccepts host m op))
    (raw : Option V) (s t : BmState V α) (h : BmAlike s t) :
    BmSplit split (gateOutput host bm m i op raw s).1 (gateOutput host bm m' i op raw t).1 ∨
      BmAlike (gateOutput host bm m i op raw s).1 (gateOutput host bm m' i op raw t).1 ∧
        (gateOutput host bm m' i op raw t).2 = (gateOutput host bm m i op raw s).2 := by
  unfold gateOutput
  cases raw.bind (applyCondition op.outAdjustment) with
  | none => exact Or.inr ⟨h, rfl⟩
  | some result =>
    have hmem : outputUnchanged (t.mem i) result = outputUnchanged (s.mem i) result := by
      rw [h.mem]
    simp only [hmem]
    split
    · exact Or.inr ⟨h, rfl⟩
    split
    · exact Or.inr ⟨h, rfl⟩
    by_cases hdiffer : Asked bm op ∧ hookAccepts host m' op ≠ hookAccepts host m op
    · obtain ⟨hask, hne⟩ := hdiffer
      have hsplit : split := by
        rcases hasked with hsplit | hno
        · exact hsplit
        · exact absurd (hno hask) hne
      have hgo : ∀ (b : Bool) (x : BmState V α),
          (if b = true then (x, some result) else (x, none)).1 = x := by
        intro b x
        cases b <;> rfl
      left
      rw [hgo, hgo]
      exact authEvents_split host bm hsplit i op hask hne s t h
    · have hgates : outputAuthorized host bm m' op = outputAuthorized host bm m op ∧
          bmView (authEvents host bm m' i op) = bmView (authEvents host bm m i op) := by
        by_cases hask : Asked bm op
        · have hsame := not_not.mp fun hne => hdiffer ⟨hask, hne⟩
          exact gates_same host bm hbare i op hsame
        · obtain ⟨hout, hevs⟩ := gates_unasked host bm m i op hask
          obtain ⟨hout', hevs'⟩ := gates_unasked host bm m' i op hask
          exact ⟨hout'.trans hout.symm, by rw [hevs, hevs']⟩
      rw [hgates.1]
      have hlog : BmAlike { s with trace := s.trace ++ authEvents host bm m i op }
          { t with trace := t.trace ++ authEvents host bm m' i op } :=
        ⟨h.cache, h.mem, h.app, h.log _ _ hgates.2⟩
      split
      · exact Or.inr ⟨hlog, rfl⟩
      · exact Or.inr ⟨hlog, rfl⟩

/-- INTERNAL: the operation of a row gives the same in states that agree. -/
theorem computeResult_alike (i : ℕ) (op : BmOperation V) (vs : List V) (s t : BmState V α)
    (h : BmAlike s t) :
    BmAlike (computeResult host i op vs s).1 (computeResult host i op vs t).1 ∧
      (computeResult host i op vs t).2 = (computeResult host i op vs s).2 := by
  unfold computeResult
  split
  · split
    · exact ⟨h, rfl⟩
    next call _ =>
      have hcall : call t.app op (appOperands op vs) = call s.app op (appOperands op vs) := by
        rw [h.app]
      simp only [hcall]
      exact ⟨⟨h.cache, h.mem, rfl, h.log _ _ rfl⟩, trivial⟩
  · exact ⟨h, rfl⟩

/-- INTERNAL: **a look at a row** decides the same, unless the hook's answers differ. -/
theorem decideOutput_alike (split : Prop) (hbare : bare m' = bare m) (i : ℕ)
    (op : BmOperation V) (hasked : split ∨ (op.enabled = true → Asked bm op →
      hookAccepts host m' op = hookAccepts host m op)) (s t : BmState V α) (h : BmAlike s t) :
    BmSplit split (decideOutput host bm m i op s).1 (decideOutput host bm m' i op t).1 ∨
      BmAlike (decideOutput host bm m i op s).1 (decideOutput host bm m' i op t).1 ∧
        (decideOutput host bm m' i op t).2 = (decideOutput host bm m i op s).2 := by
  unfold decideOutput
  rw [h.cache]
  cases hvs : rowOperands bm s.cache op with
  | none => exact Or.inr ⟨h, rfl⟩
  | some vs =>
    have henabled : op.enabled = true := by
      cases he : op.enabled with
      | true => rfl
      | false =>
        rw [rowOperands_disabled bm op s.cache he] at hvs
        cases hvs
    have hread : BmAlike (s.readOperands i vs) (t.readOperands i vs) := by
      refine ⟨h.cache, ?_, h.app, h.log _ _ rfl⟩
      simp only [BmState.readOperands, h.mem]
    have hmem : inputsChanged (t.mem i) vs = inputsChanged (s.mem i) vs := by
      rw [h.mem]
    simp only [hmem]
    split
    · obtain ⟨hcompute, hraw⟩ := computeResult_alike host i op vs _ _ hread
      rw [hraw]
      apply gateOutput_alike host bm split hbare i op
      · rcases hasked with hsplit | hsame
        · exact Or.inl hsplit
        · exact Or.inr (hsame henabled)
      · exact hcompute
    · exact Or.inr ⟨hread, rfl⟩

omit [CDouble V] in
/-- INTERNAL: recording a result keeps states alike. -/
theorem commitOutput_alike (i : ℕ) (op : BmOperation V) (v : V) (s t : BmState V α)
    (h : BmAlike s t) : BmAlike (commitOutput i op v s) (commitOutput i op v t) := by
  refine ⟨?_, ?_, h.app, h.log _ _ rfl⟩
  · simp only [commitOutput, h.cache]
  · simp only [commitOutput, h.mem]

/-- INTERNAL: so does sending it. -/
theorem sendPut_alike (i : ℕ) (op : BmOperation V) (v : V) (s t : BmState V α)
    (h : BmAlike s t) : BmAlike (sendPut i op v s) (sendPut i op v t) := by
  unfold sendPut
  rw [h.cache]
  split
  · exact h
  · exact ⟨h.cache, h.mem, h.app, h.log _ _ rfl⟩

omit [CDouble V] in
/-- INTERNAL: a commit adds its event. -/
theorem commitOutput_grows (i : ℕ) (op : BmOperation V) (v : V) (s : BmState V α) :
    BmGrows s (commitOutput i op v s) := ⟨[.commit i op.outDeviceIndex v], rfl⟩

/-- INTERNAL: so does a send. -/
theorem sendPut_grows (i : ℕ) (op : BmOperation V) (v : V) (s : BmState V α) :
    BmGrows s (sendPut i op v s) := by
  unfold sendPut
  split
  · exact BmGrows.refl s
  · exact ⟨_, rfl⟩

/-- What the evaluation of a row does after it has looked at the row. -/
def afterLook (nested : BmState V α → Outcome (BmState V α)) (row : BmOperation V × ℕ)
    (look : BmState V α × Option V) : Outcome (BmState V α) :=
  match look with
  | (s, none) => .returned s
  | (s, some result) =>
    let s := commitOutput row.2 row.1 result s
    let after := if hasSlot row.1.outDeviceIndex then nested s else .returned s
    after.andThen fun s => .returned (sendPut row.2 row.1 result s)

/-- INTERNAL: a row's evaluation is its decision, and what follows from it. -/
theorem evaluateOp_eq (m : HesClmeMsg) (nested : BmState V α → Outcome (BmState V α))
    (row : BmOperation V × ℕ) (s : BmState V α) :
    evaluateOp host bm m nested row s =
      afterLook nested row (decideOutput host bm m row.2 row.1 s) := by
  unfold evaluateOp afterLook
  rfl

/-- INTERNAL: after the look the trace grows. -/
theorem afterLook_grows (nested : BmState V α → Outcome (BmState V α))
    (hnested : ∀ s, BmGrows s (nested s).state) (row : BmOperation V × ℕ)
    (look : BmState V α × Option V) : BmGrows look.1 (afterLook nested row look).state := by
  obtain ⟨s, result⟩ := look
  cases result with
  | none => exact BmGrows.refl s
  | some v =>
    have hcommit := commitOutput_grows row.2 row.1 v s
    unfold afterLook
    dsimp only
    split
    · have hin := hnested (commitOutput row.2 row.1 v s)
      cases hout : nested (commitOutput row.2 row.1 v s) with
      | overrun w =>
        rw [hout] at hin
        exact hcommit.trans _ _ _ hin
      | returned w =>
        rw [hout] at hin
        exact (hcommit.trans _ _ _ hin).trans _ _ _ (sendPut_grows row.2 row.1 v w)
    · exact hcommit.trans _ _ _ (sendPut_grows row.2 row.1 v _)

/-- INTERNAL: so it does in the whole evaluation of a row. -/
theorem evaluateOp_grows (m : HesClmeMsg) (nested : BmState V α → Outcome (BmState V α))
    (hnested : ∀ s, BmGrows s (nested s).state) (row : BmOperation V × ℕ) (s : BmState V α) :
    BmGrows s (evaluateOp host bm m nested row s).state := by
  obtain ⟨calls, -, htrace⟩ := decideOutput_trace host bm m row.2 row.1 s
  rw [evaluateOp_eq]
  exact BmGrows.trans _ _ _ ⟨_, htrace⟩ (afterLook_grows nested hnested row _)

/-- INTERNAL: after looks that agree, the rows go the same way. -/
theorem afterLook_alike (split : Prop) (nested nested' : BmState V α → Outcome (BmState V α))
    (hnested : ∀ s t, BmAlike s t →
      ReentrantLoop.SideBySide BmAlike (BmSplit split) (nested s) (nested' t))
    (row : BmOperation V × ℕ) (result : Option V) (s t : BmState V α) (h : BmAlike s t) :
    ReentrantLoop.SideBySide BmAlike (BmSplit split) (afterLook nested row (s, result))
      (afterLook nested' row (t, result)) := by
  cases result with
  | none => exact Or.inr ⟨h, rfl⟩
  | some v =>
    have hcommit := commitOutput_alike row.2 row.1 v s t h
    apply ReentrantLoop.andThen_sideBySide BmGrows BmAlike (BmSplit split) BmGrows.refl
      BmSplit.keep
    · split
      · exact hnested _ _ hcommit
      · exact Or.inr ⟨hcommit, rfl⟩
    · exact fun u => sendPut_grows row.2 row.1 v u
    · exact fun u => sendPut_grows row.2 row.1 v u
    · exact fun u w huw => Or.inr ⟨sendPut_alike row.2 row.1 v u w huw, rfl⟩

/-- What the two messages of a step have in common: everything but the credentials, and,
unless the runs may split, the answers of the hook for the rows it is asked about. -/
structure SameAnswers (split : Prop) (m m' : HesClmeMsg) : Prop where
  bare : bare m' = bare m
  asked : split ∨ ∀ op ∈ bm.ops, op.enabled = true → Asked bm op →
    hookAccepts host m' op = hookAccepts host m op

/-- INTERNAL: **the evaluation of the table** goes the same way for both messages. -/
theorem bmEvaluateAll_alike (split : Prop) (hmm : SameAnswers host bm split m m') (depth : ℕ)
    (s t : BmState V α) (h : BmAlike s t) :
    ReentrantLoop.SideBySide BmAlike (BmSplit split) (bmEvaluateAll host bm m depth s)
      (bmEvaluateAll host bm m' depth t) := by
  apply ReentrantLoop.run_sideBySide (evaluateOp host bm m) bm.ops.zipIdx BmGrows BmAlike
    (BmSplit split) BmGrows.refl BmGrows.trans BmSplit.keep (evaluateOp host bm m')
  · exact fun nested hnested row _ s => evaluateOp_grows host bm m nested hnested row s
  · exact fun nested hnested row _ s => evaluateOp_grows host bm m' nested hnested row s
  · rintro nested nested' hgrows hgrows' hnested ⟨op, i⟩ hrow s t hst
    have hmem : op ∈ bm.ops := List.mem_of_getElem? ((mem_rows_iff bm _).mp hrow)
    have hlook := decideOutput_alike host bm split hmm.bare i op
      (hmm.asked.imp id fun hall => hall op hmem) s t hst
    rw [evaluateOp_eq, evaluateOp_eq]
    rcases hlook with hsplit | ⟨halike, hresult⟩
    · have hrest := afterLook_grows nested hgrows (op, i) (decideOutput host bm m i op s)
      have hrest' := afterLook_grows nested' hgrows' (op, i) (decideOutput host bm m' i op t)
      exact Or.inl (hsplit.keep _ _ _ _ hrest hrest')
    · generalize decideOutput host bm m i op s = look at halike hresult ⊢
      generalize decideOutput host bm m' i op t = look' at halike hresult ⊢
      obtain ⟨u, result⟩ := look
      obtain ⟨w, result'⟩ := look'
      obtain rfl : result' = result := hresult
      exact afterLook_alike split nested nested' hnested (op, i) result' u w halike
  · exact h

/-! ## The processor -/

/-- Some input of the map takes the message, if it has a payload. -/
def ReadBy (m : HesClmeMsg) : Prop :=
  (m.verb = .event ∨ m.verb = .get) ∧ ∃ inp ∈ bm.ops.flatMap (·.inputs),
    (attributedTo m inp && hasSlot inp.deviceIndex) = true

/-- The message is a report that some input of the map takes. -/
def WakesMap (m : HesClmeMsg) : Prop :=
  isReport m = true ∧ ∃ inp ∈ bm.ops.flatMap (·.inputs),
    (attributedTo m inp && hasSlot inp.deviceIndex) = true

omit [CDouble V] in
/-- INTERNAL: a reading is stored when some input takes it. -/
theorem storeReading_stored (m : HesClmeMsg) (v : V) (cache : ValueCache V)
    (h : (storeReading bm m v cache).2 = true) : ∃ inp ∈ bm.ops.flatMap (·.inputs),
      (attributedTo m inp && hasSlot inp.deviceIndex) = true := by
  have hloop : ∀ (inputs : List BmInput) (acc : ValueCache V × Bool),
      (inputs.foldl (storeInput m v) acc).2 = true → acc.2 = true ∨
        ∃ inp ∈ inputs, (attributedTo m inp && hasSlot inp.deviceIndex) = true := by
    intro inputs
    induction inputs with
    | nil => exact fun acc hacc => Or.inl hacc
    | cons inp rest ih =>
      intro acc hacc
      by_cases hatt : (attributedTo m inp && hasSlot inp.deviceIndex) = true
      · exact Or.inr ⟨inp, by simp, hatt⟩
      · have hskip : storeInput m v acc inp = acc := by
          unfold storeInput
          rw [if_neg hatt]
        rw [List.foldl_cons, hskip] at hacc
        rcases ih acc hacc with hdone | ⟨inp', hmem, hatt'⟩
        · exact Or.inl hdone
        · exact Or.inr ⟨inp', by simp [hmem], hatt'⟩
  rcases hloop _ _ h with hno | hsome
  · cases hno
  · exact hsome

omit [CDouble V] in
/-- INTERNAL: the credentials apart, what wakes the map is read. -/
theorem WakesMap.readBy (h : WakesMap bm m) : ReadBy bm m := by
  obtain ⟨hrep, htaken⟩ := h
  unfold isReport at hrep
  rw [Bool.and_eq_true, Bool.or_eq_true, decide_eq_true_eq, decide_eq_true_eq] at hrep
  exact ⟨hrep.1, htaken⟩

omit [CDouble V] in
/-- INTERNAL: messages for one object and device are read by the same inputs. -/
theorem SameAddress.readBy (h : SameAddress m m') (hread : ReadBy bm m') : ReadBy bm m := by
  obtain ⟨hverb, inp, hinp, htaken⟩ := hread
  refine ⟨h.verb ▸ hverb, inp, hinp, ?_⟩
  unfold attributedTo at htaken ⊢
  rw [h.path, h.deviceIndex] at htaken
  exact htaken

omit [CDouble V] in
/-- INTERNAL: a reading that no input takes leaves the cache. -/
theorem storeReading_untaken (m : HesClmeMsg) (v : V) (cache : ValueCache V)
    (h : ∀ inp ∈ bm.ops.flatMap (·.inputs),
      (attributedTo m inp && hasSlot inp.deviceIndex) = false) :
    storeReading bm m v cache = (cache, false) := by
  unfold storeReading
  generalize bm.ops.flatMap (·.inputs) = inputs at h ⊢
  induction inputs with
  | nil => rfl
  | cons inp rest ih =>
    have hskip : storeInput m v (cache, false) inp = (cache, false) := by
      unfold storeInput
      rw [h inp (by simp)]
      rfl
    rw [List.foldl_cons, hskip]
    exact ih fun i hi => h i (by simp [hi])

/-- INTERNAL: the processor at most notes a message that no input takes. -/
theorem bmProcessorHandle_untaken (depth : ℕ) (s : BmState V α) (h : ¬ ReadBy bm m) :
    ∃ evs, bmProcessorHandle host bm m depth s =
      .returned { s with trace := s.trace ++ evs } ∧ bmView evs = [] := by
  unfold bmProcessorHandle
  split
  · refine ⟨[], ?_, rfl⟩
    rw [List.append_nil]
  next hrep =>
    have huntaken : storeReading bm m (readingOf m : V) s.cache = (s.cache, false) := by
      apply storeReading_untaken
      intro inp hinp
      rw [Bool.eq_false_iff]
      intro htaken
      exact h (WakesMap.readBy bm ⟨by simpa using hrep, inp, hinp, htaken⟩)
    rw [if_neg (by simp [huntaken])]
    refine ⟨[.report m], ?_, rfl⟩
    unfold takeReading
    rw [huntaken]

/-- INTERNAL: messages that are the same without their credentials report the same. -/
theorem sameReport_of_bare (h : bare m' = bare m) : SameReport m m' := by
  obtain ⟨hpath, hverb, hdevice, -, -, hpayload⟩ := fields_of_bare h
  exact ⟨hverb, hpath, hdevice, hpayload⟩

/-- INTERNAL: the processor goes the same way for both messages, if they are the same without
their credentials and have the same answers or wake no row. -/
theorem bmProcessorHandle_read (split : Prop) (hbare : bare m' = bare m)
    (hmm : WakesMap bm m → SameAnswers host bm split m m') (depth : ℕ) (s t : BmState V α)
    (h : BmAlike s t) :
    ReentrantLoop.SideBySide BmAlike (BmSplit split) (bmProcessorHandle host bm m depth s)
      (bmProcessorHandle host bm m' depth t) := by
  have hsame := sameReport_of_bare hbare
  have htake : BmAlike (takeReading bm m s) (takeReading bm m' t) := by
    refine ⟨?_, h.mem, h.app, h.log _ _ ?_⟩
    · have hcache := hsame.takeReading bm t
      rw [hcache]
      show (storeReading bm m (readingOf m : V) t.cache).1 = _
      rw [h.cache]
      rfl
    · rfl
  unfold bmProcessorHandle
  rw [hsame.isReport]
  split
  · exact Or.inr ⟨h, rfl⟩
  next hrep =>
    have hflag : (storeReading bm m' (readingOf m' : V) t.cache).2 =
        (storeReading bm m (readingOf m : V) s.cache).2 := by
      rw [hsame.readingOf, hsame.storeReading, h.cache]
    rw [hflag]
    split
    next hstored =>
      have hwakes : WakesMap bm m := ⟨by simpa using hrep, storeReading_stored bm m _ _ hstored⟩
      exact bmEvaluateAll_alike host bm split (hmm hwakes) depth _ _ htake
    · exact Or.inr ⟨htake, rfl⟩

/-- INTERNAL: **the processor** goes the same way for messages to one object and device, if
those that some input takes are the same without their credentials and have the same answers.
SRCLINE: bm.c:992-1081 -/
theorem bmProcessorHandle_alike (split : Prop) (haddress : SameAddress m m')
    (hread : ReadBy bm m → bare m' = bare m)
    (hmm : WakesMap bm m → SameAnswers host bm split m m') (depth : ℕ) (s t : BmState V α)
    (h : BmAlike s t) :
    ReentrantLoop.SideBySide BmAlike (BmSplit split) (bmProcessorHandle host bm m depth s)
      (bmProcessorHandle host bm m' depth t) := by
  by_cases htaken : ReadBy bm m
  · exact bmProcessorHandle_read host bm split (hread htaken) hmm depth s t h
  · obtain ⟨evs, hhandled, hevs⟩ := bmProcessorHandle_untaken host bm depth s htaken
    have htaken' : ¬ ReadBy bm m' := fun hread' => htaken (haddress.readBy bm hread')
    obtain ⟨evs', hhandled', hevs'⟩ := bmProcessorHandle_untaken host bm depth t htaken'
    rw [hhandled, hhandled']
    exact Or.inr ⟨⟨h.cache, h.mem, h.app, h.log _ _ (hevs'.trans hevs.symm)⟩, rfl⟩

end OpenHes.Analysis
