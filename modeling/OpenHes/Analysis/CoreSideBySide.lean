import OpenHes.Analysis.SideBySide

/-!
# Two runs of the core's loop

The router answers from what a message asks; no object of the core takes a PUT; and the map
reads a report that one of its inputs takes. So two turns on messages that have in common what
is read of them do the same, but for the struct that a relay passes on, as long as the hook
answers the same.
-/

set_option autoImplicit false

namespace OpenHes.Analysis

open OpenHes.Library OpenHes.Model

variable {V α : Type}

/-! ## The router -/

/-- INTERNAL: the object that is found is one of the table's. -/
theorem mem_of_findObject (objs : List (ServiceObject α)) (path : CStr)
    (so : ServiceObject α) (selector : Option CStr) (h : findObject objs path = some (so, selector)) :
    so ∈ objs := by
  have hloop : ∀ (objs : List (ServiceObject α)) (best : Option (ServiceObject α × Option CStr)),
      objs.foldl (considerObject path) best = some (so, selector) →
        best = some (so, selector) ∨ so ∈ objs := by
    intro objs
    induction objs with
    | nil => exact fun best h => Or.inl h
    | cons o rest ih =>
      intro best h
      rcases ih _ h with hbest | hmem
      · by_cases hkept : considerObject path best o = best
        · exact Or.inl (hkept ▸ hbest)
        · right
          have hown : ∃ sel, considerObject path best o = some (o, sel) := by
            unfold considerObject at hkept ⊢
            split at hkept
            next howns =>
              rw [if_pos howns]
              dsimp only at hkept ⊢
              split at hkept
              · exact absurd rfl hkept
              next hsel =>
                rw [if_neg hsel]
                cases best with
                | none => exact ⟨_, rfl⟩
                | some b =>
                  dsimp only at hkept ⊢
                  split at hkept
                  next hlonger =>
                    rw [if_pos hlonger]
                    exact ⟨_, rfl⟩
                  · exact absurd rfl hkept
            · exact absurd rfl hkept
          obtain ⟨sel, hsel⟩ := hown
          rw [hsel] at hbest
          have hso := (Prod.mk.inj (Option.some.inj hbest)).1
          simp [hso]
      · exact Or.inr (by simp [hmem])
  rcases hloop objs none h with hno | hmem
  · cases hno
  · exact hmem

/-- No object takes anything from a PUT. -/
def IgnorePuts (objs : List (ServiceObject α)) : Prop :=
  ∀ so ∈ objs, ∀ onPut, so.onPut = some onPut → ∀ a m, onPut a m = a

/-- INTERNAL: the objects of the core do not.
SRCLINE: auth.c:370-375, crypto.c:529-535, id.c:626-637, time.c:187-191 -/
theorem coreObjects_ignorePuts (psa : Psa) (services : CoreServices α) :
    IgnorePuts (coreObjects psa services) := by
  intro so hso onPut hput a m
  have hall : ∀ so ∈ coreObjects psa services, so.onPut = some ignorePut := by
    intro so hso
    simp only [coreObjects, List.mem_cons, List.not_mem_nil, or_false] at hso
    rcases hso with rfl | rfl | rfl | rfl | rfl | rfl | rfl | rfl | rfl <;> rfl
  rw [hall so hso] at hput
  obtain rfl := Option.some.inj hput
  rfl

/-- INTERNAL: the answer is prepared from the query and the payload that is copied, where the
copy stays in the payload's array.
SRCLINE: hes_dispatch.c:255-266 -/
theorem answerTo_congr (so : ServiceObject α) {m m' : HesClmeMsg} (hquery : m'.query = m.query)
    (hlen : m'.payloadLen = m.payloadLen) (hfits : m.payloadLen ≤ hesPayloadMax)
    (hpayload : m'.payload.take m.payloadLen = m.payload.take m.payloadLen) :
    answerTo so m' = answerTo so m := by
  unfold answerTo
  rw [hquery, hlen, hpayload]
  simp [Nat.sub_eq_zero_of_le hfits]

/-- An object that is asked by the one message is asked the same by the other. -/
def AsksAlike (objs : List (ServiceObject α)) (m m' : HesClmeMsg) : Prop :=
  m.verb = .get → findObject objs m.path ≠ none →
    m'.query = m.query ∧ ∀ so : ServiceObject α, answerTo so m' = answerTo so m

/-- INTERNAL: **the router** answers from what the message asks.
SRCLINE: hes_dispatch.c:231-281 -/
theorem dispatchToLocalObjects_alike (objs : List (ServiceObject α)) (hputs : IgnorePuts objs)
    {m m' : HesClmeMsg} (haddress : SameAddress m m') (hasks : AsksAlike objs m m') (a : α) :
    dispatchToLocalObjects objs m' a = dispatchToLocalObjects objs m a := by
  unfold dispatchToLocalObjects
  rw [haddress.path, haddress.verb]
  cases hfind : findObject objs m.path with
  | none => rfl
  | some found =>
    obtain ⟨so, selector⟩ := found
    have hmem := mem_of_findObject objs m.path so selector hfind
    dsimp only
    split
    next hverb _ =>
      obtain ⟨hquery, hanswer⟩ := hasks hverb (by rw [hfind]; exact Option.some_ne_none _)
      rw [hquery, hanswer so]
    next onPut _ hput =>
      rw [hputs so hmem onPut hput a m', hputs so hmem onPut hput a m]
    · rfl

/-! ## States of the core -/

/-- The core's states agree, and so do their traces without credentials. -/
structure CoreAlike (keep : HesClmeMsg → HesClmeMsg) (s t : CoreState V α) : Prop where
  cache : t.bm.cache = s.bm.cache
  mem : t.bm.mem = s.bm.mem
  app : t.bm.app = s.bm.app
  trace : coreView keep t.trace = coreView keep s.trace

/-- The traces record different answers of the hook; only runs that may split do. -/
def CoreSplit (split : Prop) (s t : CoreState V α) : Prop :=
  split ∧ Apart (coreDecisions s.trace) (coreDecisions t.trace)

/-- Events were added to the trace. -/
def CoreGrows (s t : CoreState V α) : Prop := ∃ evs, t.trace = s.trace ++ evs

/-- INTERNAL: a trace may stay as it is. -/
theorem CoreGrows.refl (s : CoreState V α) : CoreGrows s s := ⟨[], by simp⟩

/-- INTERNAL: it grows from state to state. -/
theorem CoreGrows.trans {s t u : CoreState V α} (h : CoreGrows s t) (h' : CoreGrows t u) :
    CoreGrows s u := by
  obtain ⟨evs, hevs⟩ := h
  obtain ⟨evs', hevs'⟩ := h'
  exact ⟨evs ++ evs', by rw [hevs', hevs, List.append_assoc]⟩

/-- INTERNAL: runs that have parted stay parted, whatever follows. -/
theorem CoreSplit.keep {split : Prop} (s t s' t' : CoreState V α) (h : CoreSplit split s t)
    (hs : CoreGrows s s') (ht : CoreGrows t t') : CoreSplit split s' t' := by
  obtain ⟨evs, hevs⟩ := hs
  obtain ⟨evs', hevs'⟩ := ht
  refine ⟨h.1, ?_⟩
  unfold coreDecisions
  rw [hevs, hevs', List.filterMap_append, List.filterMap_append]
  exact h.2.append _ _

/-- INTERNAL: a change of the services' state and events, the same on both sides. -/
theorem CoreAlike.log {keep : HesClmeMsg → HesClmeMsg} {s t : CoreState V α}
    (h : CoreAlike keep s t) (a : α) (evs evs' : List (CoreEvent V))
    (hevs : coreView keep evs' = coreView keep evs) :
    CoreAlike keep ((s.setApp a).log evs) ((t.setApp a).log evs') := by
  refine ⟨h.cache, h.mem, rfl, ?_⟩
  show coreView keep (t.trace ++ evs') = coreView keep (s.trace ++ evs)
  rw [coreView_append, coreView_append, h.trace, hevs]

/-- INTERNAL: events alone. -/
theorem CoreAlike.logOnly {keep : HesClmeMsg → HesClmeMsg} {s t : CoreState V α}
    (h : CoreAlike keep s t) (evs evs' : List (CoreEvent V))
    (hevs : coreView keep evs' = coreView keep evs) :
    CoreAlike keep (s.log evs) (t.log evs') := by
  refine ⟨h.cache, h.mem, h.app, ?_⟩
  show coreView keep (t.trace ++ evs') = coreView keep (s.trace ++ evs)
  rw [coreView_append, coreView_append, h.trace, hevs]

/-- Two outcomes of the core side by side. -/
abbrev CoreSideBySide (split : Prop) (keep : HesClmeMsg → HesClmeMsg)
    (x y : Outcome (CoreState V α)) : Prop :=
  ReentrantLoop.SideBySide (CoreAlike keep) (CoreSplit split) x y

section Loop

variable (host : CoreHost V α) (bm : BindingMap V)

/-- The relay would pass the message on. -/
def Relayed (m : HesClmeMsg) : Prop :=
  findObject host.objs m.path = none ∧ m.verb = .put ∧
    bmIsDeclaredDestination bm m.path m.deviceIndex = true

/-- INTERNAL: routing a message adds to the trace. -/
theorem routeMessage_grows (m : HesClmeMsg) (s : CoreState V α) :
    CoreGrows s (routeMessage host bm m s) := by
  unfold routeMessage relayPut
  dsimp only
  split
  · exact ⟨_, List.append_assoc _ _ _⟩
  · exact ⟨_, rfl⟩

/-- INTERNAL: an address that no object owns is not handled. -/
theorem dispatchToLocalObjects_unhandled (objs : List (ServiceObject α)) (m : HesClmeMsg) (a : α)
    (h : (dispatchToLocalObjects objs m a).2.1 = false) : findObject objs m.path = none := by
  unfold dispatchToLocalObjects at h
  split at h
  next hnone => exact hnone
  · split at h <;> cases h

/-- INTERNAL: **the router and the relay** do the same, but for what a relay passes on.
SRCLINE: core.c:606-622 -/
theorem routeMessage_alike (hputs : IgnorePuts host.objs) (keep : HesClmeMsg → HesClmeMsg)
    {m m' : HesClmeMsg} (haddress : SameAddress m m') (hasks : AsksAlike host.objs m m')
    (hrelay : Relayed host bm m → keep m' = keep m) (s t : CoreState V α)
    (h : CoreAlike keep s t) :
    CoreAlike keep (routeMessage host bm m s) (routeMessage host bm m' t) := by
  have hforeign := dispatchToLocalObjects_unhandled host.objs m s.bm.app
  unfold routeMessage
  rw [dispatchToLocalObjects_alike host.objs hputs haddress hasks, h.app]
  generalize dispatchToLocalObjects host.objs m s.bm.app = routed at hforeign ⊢
  obtain ⟨a, handled, answers⟩ := routed
  have hanswered := h.log a (answers.map .answer) (answers.map .answer) rfl
  show CoreAlike keep (relayPut bm m handled ((s.setApp a).log (answers.map .answer)))
    (relayPut bm m' handled ((t.setApp a).log (answers.map .answer)))
  unfold relayPut
  rw [haddress.path, haddress.verb, haddress.deviceIndex]
  split
  next hgo =>
    simp only [Bool.and_eq_true, Bool.not_eq_true', decide_eq_true_eq] at hgo
    obtain ⟨⟨hhandled, hput⟩, hdeclared⟩ := hgo
    have hkeep := hrelay ⟨hforeign hhandled, hput, hdeclared⟩
    apply hanswered.logOnly
    show [CoreEvent.relay (keep m')] = [CoreEvent.relay (keep m)]
    rw [hkeep]
  · exact hanswered

variable [CDouble V]

/-- INTERNAL: so does processing it. -/
theorem processMessage_grows (m : HesClmeMsg) (depth : ℕ) (s : CoreState V α) :
    CoreGrows s (processMessage host bm m depth s).state := by
  unfold processMessage
  rw [Outcome.state_map]
  exact ⟨_, rfl⟩

omit [CDouble V] in
/-- INTERNAL: the answers in a trace of the evaluator are answers in the core's. -/
theorem coreDecisions_eval (trace : List (BmEvent V)) :
    coreDecisions (trace.map (.eval : BmEvent V → CoreEvent V)) = decisions trace := by
  unfold coreDecisions decisions
  rw [List.filterMap_map]
  rfl

omit [CDouble V] in
/-- INTERNAL: what the evaluator does, the core does. -/
theorem coreView_eval (keep : HesClmeMsg → HesClmeMsg) (trace : List (BmEvent V)) :
    coreView keep (trace.map .eval) = (bmView trace).map .eval := by
  unfold coreView bmView
  rw [List.filter_map, List.map_map, List.map_map]
  rfl

/-- INTERNAL: **the processor** in the core goes the same way. -/
theorem processMessage_alike (split : Prop) (keep : HesClmeMsg → HesClmeMsg)
    {m m' : HesClmeMsg} (haddress : SameAddress m m') (hread : ReadBy bm m → bare m' = bare m)
    (hmm : WakesMap bm m → SameAnswers host.bmHost bm split m m') (depth : ℕ)
    (s t : CoreState V α) (h : CoreAlike keep s t) :
    CoreSideBySide split keep (processMessage host bm m depth s)
      (processMessage host bm m' depth t) := by
  have hstart : BmAlike { s.bm with trace := [] } { t.bm with trace := [] } :=
    ⟨h.cache, h.mem, h.app, rfl⟩
  have hhandled := bmProcessorHandle_alike host.bmHost bm split haddress hread hmm depth _ _
    hstart
  unfold processMessage
  generalize bmProcessorHandle host.bmHost bm m depth { s.bm with trace := [] } = x at hhandled ⊢
  generalize bmProcessorHandle host.bmHost bm m' depth { t.bm with trace := [] } = y at hhandled ⊢
  have hbefore : coreDecisions t.trace = coreDecisions s.trace := by
    rw [← coreDecisions_view keep t.trace, h.trace, coreDecisions_view]
  rcases hhandled with ⟨hsplit, hapart⟩ | ⟨halike, hret⟩
  · left
    rw [Outcome.state_map, Outcome.state_map]
    refine ⟨hsplit, ?_⟩
    show Apart (coreDecisions (s.trace ++ x.state.trace.map CoreEvent.eval))
      (coreDecisions (t.trace ++ y.state.trace.map CoreEvent.eval))
    have hx := coreDecisions_eval x.state.trace
    have hy := coreDecisions_eval y.state.trace
    unfold coreDecisions at hbefore hx hy ⊢
    rw [List.filterMap_append, List.filterMap_append, hx, hy, hbefore]
    exact hapart.behind _
  · right
    rw [Outcome.state_map, Outcome.state_map]
    refine ⟨⟨halike.cache, halike.mem, halike.app, ?_⟩, ?_⟩
    · show coreView keep (t.trace ++ y.state.trace.map CoreEvent.eval) =
        coreView keep (s.trace ++ x.state.trace.map CoreEvent.eval)
      rw [coreView_append, coreView_append, h.trace, coreView_eval, coreView_eval, halike.trace]
    · cases x <;> cases y <;> first | rfl | cases hret

/-! ## A turn -/

/-- What the two messages of a turn have in common, as far as it is used. -/
structure TakenAlike (split : Prop) (keep : HesClmeMsg → HesClmeMsg) (m m' : HesClmeMsg) :
    Prop where
  address : SameAddress m m'
  asks : AsksAlike host.objs m m'
  read : ReadBy bm m → bare m' = bare m
  answers : WakesMap bm m → SameAnswers host.bmHost bm split m m'
  relayed : Relayed host bm m → keep m' = keep m

omit [CDouble V] in
/-- INTERNAL: a message has everything in common with itself. -/
theorem TakenAlike.refl (split : Prop) (keep : HesClmeMsg → HesClmeMsg) (m : HesClmeMsg) :
    TakenAlike host bm split keep m m where
  address := ⟨rfl, rfl, rfl⟩
  asks _ _ := ⟨rfl, fun _ => rfl⟩
  read _ := rfl
  answers _ := ⟨rfl, Or.inr fun _ _ _ _ => rfl⟩
  relayed _ := rfl

/-- INTERNAL: so does taking a frame. -/
theorem takeFrame_grows (depth : ℕ) (m : HesClmeMsg) (s : CoreState V α) :
    CoreGrows s (takeFrame host bm depth m s).state :=
  CoreGrows.trans ⟨[.message m], rfl⟩
    ((routeMessage_grows host bm m _).trans (processMessage_grows host bm m depth _))

/-- INTERNAL: **taking a message** from the bus. -/
theorem takeFrame_alike (split : Prop) (keep : HesClmeMsg → HesClmeMsg)
    (hputs : IgnorePuts host.objs) {m m' : HesClmeMsg} (hmm : TakenAlike host bm split keep m m')
    (depth : ℕ) (s t : CoreState V α) (h : CoreAlike keep s t) :
    CoreSideBySide split keep (takeFrame host bm depth m s) (takeFrame host bm depth m' t) := by
  have htaken : CoreAlike keep (s.log [.message m]) (t.log [.message m']) := by
    apply h.logOnly
    rfl
  have hrouted := routeMessage_alike host bm hputs keep hmm.address hmm.asks hmm.relayed _ _
    htaken
  exact processMessage_alike host bm split keep hmm.address hmm.read hmm.answers depth _ _
    hrouted

omit [CDouble V] in
/-- INTERNAL: so do the ticks of the objects. -/
theorem tickObjects_grows (s : CoreState V α) : CoreGrows s (tickObjects host s) := by
  unfold tickObjects
  induction host.objs generalizing s with
  | nil => exact CoreGrows.refl s
  | cons so rest ih =>
    rw [List.foldl_cons]
    refine CoreGrows.trans ?_ (ih _)
    cases so.tick with
    | none => exact CoreGrows.refl s
    | some tick => exact ⟨_, rfl⟩

omit [CDouble V] in
/-- INTERNAL: the ticks see the services' state and nothing else. -/
theorem tickObjects_alike (keep : HesClmeMsg → HesClmeMsg) (s t : CoreState V α)
    (h : CoreAlike keep s t) : CoreAlike keep (tickObjects host s) (tickObjects host t) := by
  unfold tickObjects
  induction host.objs generalizing s t with
  | nil => exact h
  | cons so rest ih =>
    rw [List.foldl_cons, List.foldl_cons]
    apply ih
    cases so.tick with
    | none => exact h
    | some tick =>
      dsimp only
      rw [h.app]
      exact h.log _ _ _ rfl

omit [CDouble V] in
/-- INTERNAL: so does the tick of the app. -/
theorem appTick_grows (s : CoreState V α) : CoreGrows s (appTick host s) := ⟨_, rfl⟩

omit [CDouble V] in
/-- INTERNAL: the app ticks alike in states that are alike. -/
theorem appTick_alike (keep : HesClmeMsg → HesClmeMsg) (s t : CoreState V α)
    (h : CoreAlike keep s t) : CoreAlike keep (appTick host s) (appTick host t) := by
  unfold appTick
  rw [h.app]
  exact h.log _ _ _ rfl

/-- INTERNAL: feeding the time adds to the trace. -/
theorem feedTime_grows (depth : ℕ) (s : CoreState V α) :
    CoreGrows s (feedTime host bm depth s).state :=
  CoreGrows.trans ⟨[.message (selfEvent host s.bm.app).2], rfl⟩
    (processMessage_grows host bm _ depth _)

/-- INTERNAL: the time is fed from the services' state. -/
theorem feedTime_alike (split : Prop) (keep : HesClmeMsg → HesClmeMsg) (depth : ℕ)
    (s t : CoreState V α) (h : CoreAlike keep s t) :
    CoreSideBySide split keep (feedTime host bm depth s) (feedTime host bm depth t) := by
  unfold feedTime
  rw [h.app]
  generalize selfEvent host s.bm.app = fed
  obtain ⟨a, m⟩ := fed
  have hfed := h.log a [.message m] [.message m] rfl
  have hself := TakenAlike.refl host bm split keep m
  exact processMessage_alike host bm split keep hself.address hself.read hself.answers depth _ _
    hfed

omit [CDouble V] in
/-- INTERNAL: growth goes through a sequence. -/
theorem andThen_grows (s : CoreState V α) (x : Outcome (CoreState V α))
    (f : CoreState V α → Outcome (CoreState V α)) (hx : CoreGrows s x.state)
    (hf : ∀ t, CoreGrows t (f t).state) : CoreGrows s (x.andThen f).state := by
  cases x with
  | returned t => exact hx.trans (hf t)
  | overrun t => exact hx

/-- What a turn does after it has taken its message. -/
def afterTaken (depth : ℕ) (newSecond : Bool) (s : CoreState V α) : Outcome (CoreState V α) :=
  let s := tickObjects host s
  let fed := if newSecond then feedTime host bm depth s else .returned s
  fed.andThen fun s => .returned (appTick host s)

/-- INTERNAL: a turn takes a frame, if there is one, and does what is behind it. -/
theorem coreTurn_eq (depth : ℕ) (turn : CoreTurn) (s : CoreState V α) :
    coreTurn host bm depth turn s =
      (turn.frame.elim (.returned s) fun m => takeFrame host bm depth m s).andThen
        (afterTaken host bm depth turn.newSecond) := rfl

/-- INTERNAL: what is behind a frame adds to the trace. -/
theorem afterTaken_grows (depth : ℕ) (newSecond : Bool) (s : CoreState V α) :
    CoreGrows s (afterTaken host bm depth newSecond s).state := by
  have htick := tickObjects_grows host s
  unfold afterTaken
  apply andThen_grows
  · split
    · exact htick.trans (feedTime_grows host bm depth _)
    · exact htick
  · exact fun t => appTick_grows host t

/-- INTERNAL: so does a turn. -/
theorem coreTurn_grows (depth : ℕ) (turn : CoreTurn) (s : CoreState V α) :
    CoreGrows s (coreTurn host bm depth turn s).state := by
  rw [coreTurn_eq]
  apply andThen_grows
  · cases turn.frame with
    | none => exact CoreGrows.refl s
    | some m => exact takeFrame_grows host bm depth m s
  · exact afterTaken_grows host bm depth turn.newSecond

/-- INTERNAL: what follows the message is the same. -/
theorem afterTaken_alike (split : Prop) (keep : HesClmeMsg → HesClmeMsg) (depth : ℕ)
    (newSecond : Bool) (s t : CoreState V α) (h : CoreAlike keep s t) :
    CoreSideBySide split keep (afterTaken host bm depth newSecond s)
      (afterTaken host bm depth newSecond t) := by
  have htick := tickObjects_alike host keep s t h
  unfold afterTaken
  apply ReentrantLoop.andThen_sideBySide CoreGrows (CoreAlike keep) (CoreSplit split)
    CoreGrows.refl CoreSplit.keep
  · split
    · exact feedTime_alike host bm split keep depth _ _ htick
    · exact Or.inr ⟨htick, rfl⟩
  · exact fun u => appTick_grows host u
  · exact fun u => appTick_grows host u
  · exact fun u w huw => Or.inr ⟨appTick_alike host keep u w huw, rfl⟩

/-- Taking the one message or the other goes the same way from states that agree. -/
def TakenSideBySide (depth : ℕ) (split : Prop) (keep : HesClmeMsg → HesClmeMsg)
    (m m' : HesClmeMsg) : Prop :=
  ∀ s t, CoreAlike keep s t →
    CoreSideBySide split keep (takeFrame host bm depth m s) (takeFrame host bm depth m' t)

/-- The turns take messages that go the same way, and begin a new second alike. -/
def TurnsAlike (depth : ℕ) (split : Prop) (keep : HesClmeMsg → HesClmeMsg)
    (turn turn' : CoreTurn) : Prop :=
  turn'.newSecond = turn.newSecond ∧
    Option.Rel (TakenSideBySide host bm depth split keep) turn.frame turn'.frame

/-- INTERNAL: **a turn** on messages that go the same way. -/
theorem coreTurn_alike (split : Prop) (keep : HesClmeMsg → HesClmeMsg) (depth : ℕ)
    (turn turn' : CoreTurn) (hturn : TurnsAlike host bm depth split keep turn turn')
    (s t : CoreState V α) (h : CoreAlike keep s t) :
    CoreSideBySide split keep (coreTurn host bm depth turn s)
      (coreTurn host bm depth turn' t) := by
  obtain ⟨frame, newSecond⟩ := turn
  obtain ⟨frame', newSecond'⟩ := turn'
  obtain ⟨rfl, hframe⟩ := hturn
  rw [coreTurn_eq, coreTurn_eq]
  apply ReentrantLoop.andThen_sideBySide CoreGrows (CoreAlike keep) (CoreSplit split)
    CoreGrows.refl CoreSplit.keep
  · cases hframe with
    | none => exact Or.inr ⟨h, rfl⟩
    | some hmm => exact hmm s t h
  · exact afterTaken_grows host bm depth newSecond'
  · exact afterTaken_grows host bm depth newSecond'
  · exact afterTaken_alike host bm split keep depth newSecond'

end Loop

end OpenHes.Analysis
