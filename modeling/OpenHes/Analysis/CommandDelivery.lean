import OpenHes.Analysis.CommandPath

/-!
# Commands are carried out

The way of a command forwards: where no frame is lost, the WiFi module takes each frame that the
core sends past its subscriptions, once and in order, and carries out what it asks for before it
takes the next one. No other call to a lamp is made than these and the readings.
-/

set_option autoImplicit false

namespace OpenHes.Analysis

open OpenHes.Library OpenHes.Model

/-! ## The notes of a run -/

/-- The notes of some messages, each with the registry that it met. -/
def notesOfAll (devs : List WifiDev) (taken : List (HesClmeMsg × HesDevreg)) : List WifiNote :=
  taken.flatMap fun p => notesFor devs p.1 p.2

/-- INTERNAL: the notes for messages are taken piece by piece. -/
theorem notesOfAll_append (devs : List WifiDev) (first second : List (HesClmeMsg × HesDevreg)) :
    notesOfAll devs (first ++ second) = notesOfAll devs first ++ notesOfAll devs second :=
  List.flatMap_append

/-- INTERNAL: each message has one note of itself. -/
theorem messages_notesOfAll (devs : List WifiDev) (taken : List (HesClmeMsg × HesDevreg)) :
    (notesOfAll devs taken).filterMap WifiNote.message = taken.map Prod.fst := by
  induction taken with
  | nil => rfl
  | cons p rest ih =>
    show (notesFor devs p.1 p.2 ++ notesOfAll devs rest).filterMap _ = _
    rw [List.filterMap_append, message_notesFor, ih]
    rfl

/-- What the module has done is what it was asked for: message by message, over the devices of its
start. -/
def DoneAsAsked (start s : WifiState) (taken : List (HesClmeMsg × HesDevreg)) : Prop :=
  notesOf s.trace = notesOfAll start.devs taken ∧
    ∀ p ∈ taken, identities p.2 = identities start.sys.reg

/-- INTERNAL: the messages that were taken. -/
theorem DoneAsAsked.frames (start s : WifiState) (taken : List (HesClmeMsg × HesDevreg))
    (h : DoneAsAsked start s taken) : framesOf s.trace = taken.map Prod.fst := by
  rw [framesOf_eq, h.1, messages_notesOfAll]

/-- INTERNAL: **a pass** does what its message asks for. -/
theorem wifiTurn_done (lamp : ℕ → Option CStr) (exchange : ℕ → Exchange) (start s : WifiState)
    (hfollows : Follows start s) (taken : List (HesClmeMsg × HesDevreg))
    (h : DoneAsAsked start s taken) (turn : WifiTurn) (s' : WifiState)
    (hturn : wifiTurn lamp exchange s turn = some s') :
    DoneAsAsked start s' (taken ++ turn.frame.toList.map fun m => (m, s.sys.reg)) := by
  constructor
  · rw [wifiTurn_notes lamp exchange s turn s' hturn, h.1, notesOfAll_append, hfollows.devs]
    unfold notesOfAll
    rw [List.flatMap_map]
  · intro p hp
    rcases List.mem_append.mp hp with hp | hp
    · exact h.2 p hp
    · obtain ⟨m, -, rfl⟩ := List.mem_map.mp hp
      exact hfollows.devices

/-! ## Runs in which nothing is lost -/

section Runs

variable {V α : Type} [CDouble V] (host : CoreHost V α) (bm : BindingMap V) (depth : ℕ)
  (topics : List CStr) (lamp : ℕ → Option CStr) (exchange : ℕ → Exchange)

/-- The frames that the core has handed over, of which those that pass the subscriptions were taken
or are on their way. -/
structure HandedOver (s : GatewaySystem V α) (taken : List (HesClmeMsg × HesDevreg))
    (frames : List (List UInt8)) : Prop where
  sent : List.Forall₂ SentAs (s.core.trace.flatMap sends) frames
  kept : taken.map Prod.fst ++ s.wire.map receivedMsg =
    (frames.filter (leafReceives topics)).map receivedMsg

/-- What holds in a run: the module has done what it was asked for, and, if nothing was lost, was
asked for all that the core has sent. -/
structure CarriedOut (start : WifiState) (lossless : Prop) (s : GatewaySystem V α)
    (taken : List (HesClmeMsg × HesDevreg)) : Prop where
  follows : Follows start s.wifi
  done : DoneAsAsked start s.wifi taken
  handedOver : lossless → ∃ frames, HandedOver topics s taken frames

/-- INTERNAL: **a step** of a run. -/
theorem systemStep_carriedOut (start : WifiState) (lossless : Prop) (s : GatewaySystem V α)
    (taken : List (HesClmeMsg × HesDevreg)) (h : CarriedOut topics start lossless s taken)
    (step : SystemStep) (hlossless : lossless → ∀ k, step ≠ .lose k) (s' : GatewaySystem V α)
    (hstep : systemStep host bm depth topics lamp exchange s step = some s') :
    ∃ more, CarriedOut topics start lossless s' (taken ++ more) := by
  cases step with
  | core turn frames =>
    obtain ⟨evs, hevs⟩ := coreTurn_grows host bm depth turn s.core
    unfold systemStep at hstep
    dsimp only at hstep
    rw [hevs, List.drop_left] at hstep
    split at hstep
    next hsent =>
      cases hstep
      refine ⟨[], h.follows, ?_, fun hl => ?_⟩
      · rw [List.append_nil]
        exact h.done
      · obtain ⟨before, hbefore⟩ := h.handedOver hl
        refine ⟨before ++ frames, ?_, ?_⟩
        · dsimp only
          rw [hevs, List.flatMap_append]
          exact List.rel_append hbefore.sent hsent
        · dsimp only
          rw [List.append_nil, List.map_append, List.filter_append, List.map_append,
            ← List.append_assoc, hbefore.kept]
    · cases hstep
  | lose k =>
    cases hstep
    refine ⟨[], h.follows, ?_, fun hl => absurd rfl (hlossless hl k)⟩
    rw [List.append_nil]
    exact h.done
  | wifi receives notified now =>
    obtain ⟨wifi, hwifi, rfl⟩ := Option.map_eq_some_iff.mp hstep
    refine ⟨_, Follows.step start s.wifi wifi
      (wifiTurn_attributed lamp exchange start s.wifi h.follows _ wifi hwifi) h.follows,
      wifiTurn_done lamp exchange start s.wifi h.follows taken h.done _ wifi hwifi, fun hl => ?_⟩
    obtain ⟨frames, hframes⟩ := h.handedOver hl
    refine ⟨frames, hframes.sent, ?_⟩
    rw [← hframes.kept]
    dsimp only
    cases receives with
    | false =>
      rw [if_neg (by simp), if_neg (by simp), Option.map_none, Option.toList_none, List.map_nil,
        List.append_nil]
    | true =>
      rw [if_pos rfl, if_pos rfl]
      cases s.wire with
      | nil => rw [List.head?_nil, Option.map_none, Option.toList_none, List.map_nil,
          List.append_nil, List.tail_nil]
      | cons frame rest =>
        rw [List.head?_cons, Option.map_some, Option.toList_some, List.tail_cons, List.map_append,
          List.map_cons, List.append_assoc]
        rfl

/-- INTERNAL: **a run**. -/
theorem systemRun_carriedOut (start : WifiState) (lossless : Prop) (steps : List SystemStep)
    (hlossless : lossless → ∀ k, .lose k ∉ steps) (s : GatewaySystem V α)
    (taken : List (HesClmeMsg × HesDevreg)) (h : CarriedOut topics start lossless s taken)
    (s' : GatewaySystem V α)
    (hrun : systemRun host bm depth topics lamp exchange s steps = some s') :
    ∃ taken', CarriedOut topics start lossless s' taken' := by
  induction steps generalizing s taken with
  | nil =>
    cases hrun
    exact ⟨taken, h⟩
  | cons step rest ih =>
    unfold systemRun at hrun
    rw [List.foldlM_cons] at hrun
    obtain ⟨t, ht, hrun⟩ := Option.bind_eq_some_iff.mp hrun
    obtain ⟨more, hmore⟩ := systemStep_carriedOut host bm depth topics lamp exchange start lossless
      s taken h step (fun hl k heq => hlossless hl k (heq ▸ List.mem_cons_self)) t ht
    exact ih (fun hl k hk => hlossless hl k (List.mem_cons_of_mem _ hk)) t _ hmore hrun

end Runs

variable {V α : Type} [CDouble V] (host : CoreHost V α) (bm : BindingMap V)

/-- **Commands are carried out**, in every run of the core module beside the WiFi module: what the
module does beside reading is, message by message, to take it and to make the calls that it asks
for; and where no frame is lost, the messages that it has taken, and behind them those that wait on
the wire, are the frames that the core has sent past the module's subscriptions, each once and in
their order.
SRCLINE: common/hes_bus.c:165-205, han/wifi/wifi.c:211-228, 382-412 -/
theorem commands_carried_out (depth : ℕ) (app : α) (pf : MsProfile) (moduleRef : ℕ)
    (bulbIp : CStr) (t : Exchange) (opened : ℕ → Bool) (start : WifiState)
    (hboot : hanWifiBoot pf moduleRef bulbIp t opened = some start) (lamp : ℕ → Option CStr)
    (exchange : ℕ → Exchange) (steps : List SystemStep) (s : GatewaySystem V α)
    (hrun : systemRun host bm depth (wifiTopics start) lamp exchange
      ⟨CoreState.start app, [], start⟩ steps = some s) :
    ∃ taken : List (HesClmeMsg × HesDevreg),
      DoneAsAsked start s.wifi taken ∧
        ((∀ k, .lose k ∉ steps) → ∃ frames, HandedOver (wifiTopics start) s taken frames) := by
  obtain ⟨hstart, hempty⟩ := hanWifiBoot_follows pf moduleRef bulbIp t opened start hboot
  have hinit : CarriedOut (wifiTopics start) start (∀ k, .lose k ∉ steps)
      (⟨CoreState.start app, [], start⟩ : GatewaySystem V α) [] := by
    refine ⟨hstart, ⟨?_, fun p hp => absurd hp List.not_mem_nil⟩, fun _ => ⟨[], .nil, rfl⟩⟩
    dsimp only
    rw [hempty]
    rfl
  obtain ⟨taken, h⟩ := systemRun_carriedOut host bm depth _ lamp exchange start _ steps
    (fun hl => hl) _ [] hinit s hrun
  exact ⟨taken, h.done, h.handedOver⟩

/-- A leaf's command is relayed and carried out by the module. -/
theorem commands_carried_out_leaf :
    ∃ start s taken frames,
      hanWifiBoot ⟨[oneLamp]⟩ 2 (lit "192.168.1.142") .answered (fun _ => true) = some start ∧
        systemRun lampCore blockedMap 2 (wifiTopics start) (fun _ => some lampReplyOn)
          (fun _ => .answered) ⟨CoreState.start (), [], start⟩ leafSteps = some s ∧
        DoneAsAsked start s.wifi taken ∧ HandedOver (wifiTopics start) s taken frames := by
  obtain ⟨start, s, hboot, hrun, -⟩ := leafSteps_run
  obtain ⟨taken, hdone, hhanded⟩ := commands_carried_out lampCore blockedMap 2 () _ 2 _ .answered _
    start hboot _ _ leafSteps s hrun
  obtain ⟨frames, hframes⟩ := hhanded fun k => by simp [leafSteps]
  exact ⟨start, s, taken, frames, hboot, hrun, hdone, hframes⟩

end OpenHes.Analysis
