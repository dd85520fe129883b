import OpenHes.Model.Core
import OpenHes.Analysis.Emission

/-!
# What the core sends downstream

Three hands put PUTs on the core's bus. The binding map's rows do, each behind its gates;
the relay does, for a declared device of an interface module whatever the rows say; and the
app does with `hes.put`, which names no device. Answers and reports of the service objects
are EVENTs.
-/

set_option autoImplicit false

namespace OpenHes.Analysis

open OpenHes.Library OpenHes.Model
open CDouble

variable {V α : Type}

/-! ## The message being processed -/

/-- The message an event takes up. -/
def messageOf : CoreEvent V → Option HesClmeMsg
  | .message m => some m
  | _ => none

/-- The message being processed after these events: the last one taken up. -/
def currentMsg (events : List (CoreEvent V)) : Option HesClmeMsg :=
  (events.filterMap messageOf).getLast?

/-- INTERNAL: events that take up no message leave the current one. -/
theorem currentMsg_append_none (events more : List (CoreEvent V))
    (h : ∀ e ∈ more, messageOf e = none) : currentMsg (events ++ more) = currentMsg events := by
  unfold currentMsg
  rw [List.filterMap_append, List.filterMap_eq_nil_iff.mpr h, List.append_nil]

/-- INTERNAL: a message that is taken up is the current one. -/
theorem currentMsg_append_message (events : List (CoreEvent V)) (m : HesClmeMsg) :
    currentMsg (events ++ [.message m]) = some m := by
  simp [currentMsg, messageOf]

variable [CDouble V] (host : CoreHost V α) (bm : BindingMap V)

/-! ## The three hands -/

/-- The PUT of a row with a destination whose gates admit it while `m` is processed. -/
def AdmittedPut (m msg : HesClmeMsg) : Prop :=
  ∃ i op v valid evs, IsRow bm i op ∧ op.outDestObject ≠ [] ∧ msg = putMessage op v ∧
    RowAdmitted host.bmHost bm m i op valid evs

omit [CDouble V] in
/-- The message being processed, relayed as it is: no local object owns its address, and the
addressing table has its device behind an interface module. -/
structure RelayedPut (m msg : HesClmeMsg) : Prop where
  same : msg = m
  foreign : findObject host.objs m.path = none
  addressed : m.path ≠ [] ∧ m.deviceIndex ≠ 0
  declared : ∃ addr, bmFindAddr bm m.deviceIndex = some addr ∧
    (addr.moduleType = .hi ∨ addr.moduleType = .wi)

omit [CDouble V] in
/-- The app's script ran: in its tick, or as the operation of a row. -/
def ScriptRan : CoreEvent V → Prop
  | .appPut _ => True
  | .eval (.appCall _ _ _) => True
  | _ => False

/-- Every PUT an event sends comes from a row, from the relay or from the app. -/
def PutMediated (before : List (CoreEvent V)) (e : CoreEvent V) : Prop :=
  ∀ msg ∈ sends e, msg.verb = .put →
    (∃ m, currentMsg before = some m ∧
      (AdmittedPut host bm m msg ∨ RelayedPut host bm m msg)) ∨
    ScriptRan e ∧ ∃ path value, msg = hesPut path value

/-- INTERNAL: events that send no PUT are mediated wherever they stand. -/
theorem everyEvent_mediated_of_no_put (s : CoreState V α) (more : List (CoreEvent V))
    (hs : EveryEvent (PutMediated host bm) s.trace)
    (hmore : ∀ e ∈ more, ∀ msg ∈ sends e, msg.verb = .put →
      ScriptRan e ∧ ∃ path value, msg = hesPut path value) :
    EveryEvent (PutMediated host bm) (s.log more).trace := by
  refine (everyEvent_append _ _ _).mpr ⟨hs, ?_⟩
  refine everyEvent_of_forall _ _ fun e he pre msg hmsg hput => ?_
  exact Or.inr (hmore e he msg hmsg hput)

/-! ## The router and the relay -/

omit [CDouble V] in
/-- INTERNAL: the router answers with EVENTs, and owns what `find_object` finds. -/
theorem dispatchToLocalObjects_spec (objs : List (ServiceObject α)) (m : HesClmeMsg) (a : α) :
    (∀ msg ∈ (dispatchToLocalObjects objs m a).2.2, msg.verb = .event) ∧
      ((dispatchToLocalObjects objs m a).2.1 = false → findObject objs m.path = none) := by
  unfold dispatchToLocalObjects
  split
  next hnone => exact ⟨by simp, fun _ => hnone⟩
  next so selector _ =>
    split
    next onGet _ _ =>
      refine ⟨?_, by simp⟩
      intro msg hmsg
      rw [List.mem_singleton.mp hmsg]
      cases selector.or (daList m.query) <;> rfl
    · simp
    · simp

omit [CDouble V] in
/-- INTERNAL: what the guard of the relay checks.
SRCLINE: bm.c:854-868 -/
theorem bmIsDeclaredDestination_iff (path : CStr) (deviceIndex : ℕ) :
    bmIsDeclaredDestination bm path deviceIndex = true ↔ (path ≠ [] ∧ deviceIndex ≠ 0) ∧
      ∃ addr, bmFindAddr bm deviceIndex = some addr ∧
        (addr.moduleType = .hi ∨ addr.moduleType = .wi) := by
  unfold bmIsDeclaredDestination
  by_cases hnamed : path = [] ∨ deviceIndex = 0
  · rw [if_pos (by simpa using hnamed)]
    constructor
    · intro h
      cases h
    · rintro ⟨⟨hpath, hdev⟩, -⟩
      rcases hnamed with h | h
      · exact absurd h hpath
      · exact absurd h hdev
  · rw [if_neg (by simpa using hnamed)]
    cases bmFindAddr bm deviceIndex with
    | none => simp
    | some addr =>
      obtain ⟨hpath, hdev⟩ := not_or.mp hnamed
      simp [hpath, hdev]

/-- INTERNAL: **the router and the relay** keep every PUT mediated.
SRCLINE: core.c:606-622, hes_dispatch.c:231-281 -/
theorem routeMessage_mediated (m : HesClmeMsg) (s : CoreState V α)
    (hcur : currentMsg s.trace = some m) (hs : EveryEvent (PutMediated host bm) s.trace) :
    EveryEvent (PutMediated host bm) (routeMessage host bm m s).trace ∧
      currentMsg (routeMessage host bm m s).trace = some m := by
  obtain ⟨hanswers, hforeign⟩ := dispatchToLocalObjects_spec host.objs m s.bm.app
  unfold routeMessage
  generalize dispatchToLocalObjects host.objs m s.bm.app = routed at hanswers hforeign
  obtain ⟨a, handled, answers⟩ := routed
  have hanswered : EveryEvent (PutMediated host bm)
      ((s.setApp a).log (answers.map .answer)).trace := by
    refine everyEvent_mediated_of_no_put host bm (s.setApp a) _ hs ?_
    intro e he msg hmsg hput
    obtain ⟨answer, hmem, rfl⟩ := List.mem_map.mp he
    rw [List.mem_singleton.mp hmsg, hanswers answer hmem] at hput
    cases hput
  have hcur' : currentMsg ((s.setApp a).log (answers.map .answer)).trace = some m := by
    refine (currentMsg_append_none _ _ ?_).trans hcur
    intro e he
    obtain ⟨answer, -, rfl⟩ := List.mem_map.mp he
    rfl
  change EveryEvent (PutMediated host bm)
      (relayPut bm m handled ((s.setApp a).log (answers.map .answer))).trace ∧
    currentMsg (relayPut bm m handled ((s.setApp a).log (answers.map .answer))).trace = some m
  unfold relayPut
  by_cases hrelay : (!handled && m.verb = .put &&
      bmIsDeclaredDestination bm m.path m.deviceIndex) = true
  · rw [if_pos hrelay]
    simp only [Bool.and_eq_true, Bool.not_eq_true', decide_eq_true_eq] at hrelay
    obtain ⟨⟨hhandled, -⟩, hdecl⟩ := hrelay
    refine ⟨?_, ?_⟩
    · refine (everyEvent_append _ _ _).mpr ⟨hanswered, (everyEvent_cons _ _ _).mpr ⟨?_,
        everyEvent_nil _⟩⟩
      intro msg hmsg _
      obtain rfl := List.mem_singleton.mp hmsg
      obtain ⟨haddressed, hdeclared⟩ := (bmIsDeclaredDestination_iff bm _ _).mp hdecl
      refine Or.inl ⟨msg, by rw [List.append_nil]; exact hcur', Or.inr ?_⟩
      exact
        { same := rfl
          foreign := hforeign hhandled
          addressed := haddressed
          declared := hdeclared }
    · refine (currentMsg_append_none _ _ ?_).trans hcur'
      intro e he
      rw [List.mem_singleton.mp he]
      rfl
  · rw [if_neg hrelay]
    exact ⟨hanswered, hcur'⟩

/-! ## The binding map -/

/-- The app's calls in a trace put `hes.put` messages on the bus. -/
def AppPuts : BmEvent V → Prop
  | .appCall _ _ sent => ∀ msg ∈ sent, ∃ path value, msg = hesPut path value
  | _ => True

omit [CDouble V] in
/-- INTERNAL: what the app sends during a call is what the script put. -/
theorem bmHost_appSends {records : List (BmOperand V)} {sent : List HesClmeMsg}
    (h : AppSends host.bmHost records sent) :
    ∀ msg ∈ sent, ∃ path value, msg = hesPut path value := by
  obtain ⟨call, a, op, hcall, rfl⟩ := h
  obtain rfl := Option.some.inj hcall
  intro msg hmsg
  obtain ⟨p, -, rfl⟩ := List.mem_map.mp hmsg
  exact ⟨p.1, p.2, rfl⟩

/-- INTERNAL: what the processor does to an empty trace: every PUT is admitted, every call
of the app puts. -/
theorem bmProcessorHandle_events (hauthz : bm.authzDisabled = false) (m : HesClmeMsg)
    (depth : ℕ) (s : BmState V α) (hs : s.trace = []) :
    EveryEvent (PutAdmitted host.bmHost bm m)
        (bmProcessorHandle host.bmHost bm m depth s).state.trace ∧
      ∀ e ∈ (bmProcessorHandle host.bmHost bm m depth s).state.trace, AppPuts e := by
  have htake : (takeReading bm m s).trace = [.report m] := by simp [takeReading, hs]
  have hreport : EveryEvent (PutAdmitted host.bmHost bm m) [(.report m : BmEvent V)] :=
    (everyEvent_cons _ _ _).mpr ⟨trivial, everyEvent_nil _⟩
  unfold bmProcessorHandle
  split
  · rw [Outcome.state_returned, hs]
    exact ⟨everyEvent_nil _, by simp⟩
  · split
    · obtain ⟨-, evs, htrace, hadm⟩ :=
        bmEvaluateAll_admitted host.bmHost bm m hauthz depth (takeReading bm m s)
      obtain ⟨evs', htrace', happ⟩ := bmEvaluateAll_events host.bmHost bm m AppPuts
        (fun _ _ => trivial) (fun _ _ _ hsends => bmHost_appSends host hsends)
        (fun _ _ _ _ => trivial) (fun _ _ _ => trivial) (fun _ _ _ => trivial) depth
        (takeReading bm m s)
      refine ⟨?_, ?_⟩
      · rw [htrace, htake]
        exact hreport.append _ (PutAdmitted.append host.bmHost bm m) _ _ hadm
      · rw [htrace', htake]
        intro e he
        rcases List.mem_append.mp he with he | he
        · rw [List.mem_singleton.mp he]
          trivial
        · exact happ e he
    · rw [Outcome.state_returned, htake]
      refine ⟨hreport, ?_⟩
      intro e he
      rw [List.mem_singleton.mp he]
      trivial

/-- INTERNAL: **the processor** keeps every PUT mediated.
SRCLINE: core.c:624-631, bm.c:992-1081 -/
theorem processMessage_mediated (hauthz : bm.authzDisabled = false) (m : HesClmeMsg)
    (depth : ℕ) (s : CoreState V α) (hcur : currentMsg s.trace = some m)
    (hs : EveryEvent (PutMediated host bm) s.trace) :
    EveryEvent (PutMediated host bm) (processMessage host bm m depth s).state.trace := by
  obtain ⟨hadm, happ⟩ := bmProcessorHandle_events host bm hauthz m depth
    { s.bm with trace := [] } rfl
  unfold processMessage
  rw [Outcome.state_map]
  refine (everyEvent_append _ _ _).mpr ⟨hs, ?_⟩
  intro pre e post hsplit msg hmsg _
  obtain ⟨first, second, htrace, rfl, hrest⟩ := List.map_eq_append_iff.mp hsplit
  obtain ⟨e', post', rfl, rfl, -⟩ := List.map_eq_cons_iff.mp hrest
  have hstill : currentMsg (s.trace ++ first.map .eval) = some m := by
    refine (currentMsg_append_none _ _ ?_).trans hcur
    intro e he
    obtain ⟨x, -, rfl⟩ := List.mem_map.mp he
    rfl
  have hput := hadm first e' post' htrace
  have hcall := happ e' (by rw [htrace]; simp)
  cases e' with
  | put i sent valid =>
    obtain rfl : msg = sent := List.mem_singleton.mp hmsg
    obtain ⟨op, v, hrow, hmsg, hdest, hrowAdm⟩ := hput
    exact Or.inl ⟨m, hstill, Or.inl ⟨i, op, v, valid, first, hrow, hdest, hmsg, hrowAdm⟩⟩
  | appCall i records sent => exact Or.inr ⟨trivial, hcall msg hmsg⟩
  | _ => cases hmsg

/-! ## The loop -/

/-- INTERNAL: taking a message from the bus. -/
theorem takeFrame_mediated (hauthz : bm.authzDisabled = false) (depth : ℕ) (m : HesClmeMsg)
    (s : CoreState V α) (hs : EveryEvent (PutMediated host bm) s.trace) :
    EveryEvent (PutMediated host bm) (takeFrame host bm depth m s).state.trace := by
  have htaken : EveryEvent (PutMediated host bm) (s.log [.message m]).trace := by
    refine everyEvent_mediated_of_no_put host bm s _ hs ?_
    intro e he msg hmsg
    rw [List.mem_singleton.mp he] at hmsg
    cases hmsg
  obtain ⟨hrouted, hcur⟩ := routeMessage_mediated host bm m (s.log [.message m])
    (currentMsg_append_message s.trace m) htaken
  exact processMessage_mediated host bm hauthz m depth _ hcur hrouted

/-- INTERNAL: the feed of the time. -/
theorem feedTime_mediated (hauthz : bm.authzDisabled = false) (depth : ℕ)
    (s : CoreState V α) (hs : EveryEvent (PutMediated host bm) s.trace) :
    EveryEvent (PutMediated host bm) (feedTime host bm depth s).state.trace := by
  unfold feedTime
  generalize selfEvent host s.bm.app = fed
  obtain ⟨a, m⟩ := fed
  refine processMessage_mediated host bm hauthz m depth _
    (currentMsg_append_message s.trace m) ?_
  refine everyEvent_mediated_of_no_put host bm (s.setApp a) _ hs ?_
  intro e he msg hmsg
  rw [List.mem_singleton.mp he] at hmsg
  cases hmsg

/-- INTERNAL: the service objects report with EVENTs when they tick. -/
theorem tickObjects_mediated (s : CoreState V α)
    (hs : EveryEvent (PutMediated host bm) s.trace) :
    EveryEvent (PutMediated host bm) (tickObjects host s).trace := by
  unfold tickObjects
  induction host.objs generalizing s with
  | nil => exact hs
  | cons so rest ih =>
    rw [List.foldl_cons]
    apply ih
    cases so.tick with
    | none => exact hs
    | some tick =>
      refine everyEvent_mediated_of_no_put host bm _ _ hs ?_
      intro e he msg hmsg hput
      obtain ⟨r, -, rfl⟩ := List.mem_map.mp he
      rw [List.mem_singleton.mp hmsg] at hput
      cases hput

/-- INTERNAL: the app's tick puts what the script puts. -/
theorem appTick_mediated (s : CoreState V α) (hs : EveryEvent (PutMediated host bm) s.trace) :
    EveryEvent (PutMediated host bm) (appTick host s).trace := by
  refine everyEvent_mediated_of_no_put host bm _ _ hs ?_
  intro e he msg hmsg _
  obtain ⟨p, -, rfl⟩ := List.mem_map.mp he
  exact ⟨trivial, p.1, p.2, List.mem_singleton.mp hmsg⟩

omit [CDouble V] in
/-- INTERNAL: an assertion on states goes through a sequence. -/
theorem andThen_state (P : CoreState V α → Prop) (x : Outcome (CoreState V α))
    (f : CoreState V α → Outcome (CoreState V α)) (hx : P x.state)
    (hf : ∀ s, P s → P (f s).state) : P (x.andThen f).state := by
  cases x with
  | returned s => exact hf s hx
  | overrun s => exact hx

/-- INTERNAL: **one turn of the loop** keeps every PUT mediated.
SRCLINE: core.c:595-675 -/
theorem coreTurn_mediated (hauthz : bm.authzDisabled = false) (depth : ℕ) (turn : CoreTurn)
    (s : CoreState V α) (hs : EveryEvent (PutMediated host bm) s.trace) :
    EveryEvent (PutMediated host bm) (coreTurn host bm depth turn s).state.trace := by
  let P : CoreState V α → Prop := fun s => EveryEvent (PutMediated host bm) s.trace
  have htaken : P (turn.frame.elim (.returned s) fun m => takeFrame host bm depth m s).state := by
    cases turn.frame with
    | none => exact hs
    | some m => exact takeFrame_mediated host bm hauthz depth m s hs
  refine andThen_state P _ _ htaken fun t ht => ?_
  have htick : P (tickObjects host t) := tickObjects_mediated host bm t ht
  have hfed : P (if turn.newSecond then feedTime host bm depth (tickObjects host t)
      else .returned (tickObjects host t)).state := by
    split
    · exact feedTime_mediated host bm hauthz depth _ htick
    · exact htick
  exact andThen_state P _ _ hfed fun u hu => appTick_mediated host bm u hu

/-- Every PUT the core sends, in any run of its loop, is the PUT of a row whose gates admit
it while the message is processed, or that message itself, relayed to a declared device
that no local object fronts, or a `hes.put` of the app, which names no device.
SRCLINE: core.c:601-631, bm.c:573-595, bm.c:854-868 -/
theorem coreLoop_puts_mediated (hauthz : bm.authzDisabled = false) (depth : ℕ)
    (turns : List CoreTurn) (app : α) :
    EveryEvent (PutMediated host bm)
      (coreLoop host bm depth turns (CoreState.start app)).state.trace := by
  let P : CoreState V α → Prop := fun s => EveryEvent (PutMediated host bm) s.trace
  have hrun : ∀ (turns : List CoreTurn) (s : CoreState V α), P s →
      P (coreLoop host bm depth turns s).state := by
    intro turns
    induction turns with
    | nil => exact fun s hs => hs
    | cons turn turns ih =>
      intro s hs
      exact andThen_state P _ _ (coreTurn_mediated host bm hauthz depth turn s hs) ih
  exact hrun turns _ (everyEvent_nil _)

/-! ## A lamp the policy has blocked -/

/-- A clock as the only service object. -/
def clockObject : ServiceObject Unit where
  path := lit "/lx/ob/so/ti/rt/st/cv"
  onGet := some fun a _ => (a, lit "va=1785612345")

/-- A core with the clock, an app that does nothing, and the lamp's policy. -/
def lampCore : CoreHost Binary64 Unit where
  objs := [clockObject]
  timeRealtime := clockObject
  callOp := fun a _ _ => (a, none, [])
  onTick := fun a => (a, [])
  authorize := fun m _ => m.credInfo = lit "un=a"

/-- The lamp's row, blocked. -/
def blockedRow : BmOperation Binary64 := { lampRow with outAuthorType := lit "bk" }

/-- The map with that row, and the lamp behind an interface module. -/
def blockedMap : BindingMap Binary64 :=
  { ops := [blockedRow], addrs := [{ deviceIndex := 2, moduleType := .hi }] }

/-- A leaf's own command to the lamp. -/
def leafCommand : HesClmeMsg :=
  { verb := .put, deviceIndex := 2, path := lit "/lx/ob/uo/li/ll/da/cv"
    payload := lit "1", payloadLen := 1 }

/-- The core passes the command on, to the destination of the blocked row. -/
theorem blocked_lamp_commanded :
    blockedMap.authzDisabled = false ∧ IsRow blockedMap 0 blockedRow ∧
      blockedRow.enabled = true ∧ blockedRow.outAuthorType = lit "bk" ∧
      ∃ s, coreLoop lampCore blockedMap 2 [{ frame := some leafCommand, newSecond := false }]
          (CoreState.start ()) = .returned s ∧
        s.trace.flatMap sends = [leafCommand] ∧ leafCommand.verb = .put ∧
        leafCommand.path = blockedRow.outDestObject ∧
        leafCommand.deviceIndex = blockedRow.outDeviceIndex :=
  ⟨rfl, rfl, rfl, rfl, _, Outcome.eq_returned_state _ (by decide), by decide, rfl, rfl, rfl⟩

/-- A granted press sends the lamp's PUT through the core, and it is mediated. -/
theorem coreLoop_puts_mediated_lamp :
    (coreLoop lampCore lampMap 2
        [{ frame := some (press (lit "un=a") (lit "1")), newSecond := true }]
        (CoreState.start ())).state.trace.flatMap sends = [putMessage lampRow one] ∧
      EveryEvent (PutMediated lampCore lampMap) (coreLoop lampCore lampMap 2
        [{ frame := some (press (lit "un=a") (lit "1")), newSecond := true }]
        (CoreState.start ())).state.trace :=
  ⟨by decide +kernel, coreLoop_puts_mediated lampCore lampMap rfl 2
    [{ frame := some (press (lit "un=a") (lit "1")), newSecond := true }] ()⟩

end OpenHes.Analysis
