import OpenHes.Analysis.CoreSideBySide
import OpenHes.Analysis.Frames
import OpenHes.Analysis.Mediation
import OpenHes.Analysis.WifiAttribution
import OpenHes.Library.LossyChannel
import OpenHes.Model.GatewaySystem

/-!
# The path of a command

From a command that a lamp receives back to what made the core send it. The WiFi module takes what
the core has sent, in its order and never twice; so behind each command stands a PUT of the core,
and behind that PUT a row whose gates admit it, the relay, or the app.
-/

set_option autoImplicit false

namespace OpenHes.Analysis

open OpenHes.Library OpenHes.Model

/-! ## The frames of a pass -/

/-- The messages that were taken from the bus. -/
def framesOf (evs : List WifiEvent) : List HesClmeMsg :=
  evs.filterMap fun e =>
    match e with
    | .frame m _ => some m
    | _ => none

/-- INTERNAL: the frames of a trace are taken piece by piece. -/
theorem framesOf_append (first second : List WifiEvent) :
    framesOf (first ++ second) = framesOf first ++ framesOf second := List.filterMap_append

/-- INTERNAL: a frame of the trace is one of them. -/
theorem mem_framesOf (evs : List WifiEvent) (m : HesClmeMsg) (reg : HesDevreg)
    (h : .frame m reg ∈ evs) : m ∈ framesOf evs := List.mem_filterMap.mpr ⟨_, h, rfl⟩

/-- INTERNAL: no PUT asks for a reading. -/
theorem getPilot_not_commanded (path payload : CStr) :
    WizRequest.getPilot ∉ commandsOf path payload := by
  unfold commandsOf
  split
  · simp
  · split
    · split <;> simp
    · simp

/-- What is noted of a run: a message that was taken, with the registry that it met, and a command
to a lamp. -/
inductive WifiNote
  | taken (m : HesClmeMsg) (reg : HesDevreg)
  | command (w : WifiDev) (req : WizRequest)
  deriving DecidableEq

/-- What is noted of an event: nothing of a reading, of what is sent, and of a report. -/
def noteOf : WifiEvent → Option WifiNote
  | .frame m reg => some (.taken m reg)
  | .request w req _ => if req = .getPilot then none else some (.command w req)
  | .send _ | .report _ _ => none

/-- What is noted of a run. -/
def notesOf (evs : List WifiEvent) : List WifiNote := evs.filterMap noteOf

/-- The message of a note. -/
def WifiNote.message : WifiNote → Option HesClmeMsg
  | .taken m _ => some m
  | .command _ _ => none

/-- The client and the calls that a message asks for, given what it meets: a PUT that addresses an
object which is written, of a device with a client. -/
def askedBy (devs : List WifiDev) (m : HesClmeMsg) (reg : HesDevreg) :
    List (WifiDev × WizRequest) :=
  ((resolveIndex reg m.path m.deviceIndex).bind fun i =>
    (findOpen devs i).bind fun w =>
      (reg.devices[i]?).bind fun dev =>
        (hesDevObjectFind dev m.path).map fun obj =>
          if m.verb = .put && obj.isWritten then
            (commandsOf m.path m.payload).map fun req => (w, req)
          else []).getD []

/-- The notes of a message: it, and what it asks for. -/
def notesFor (devs : List WifiDev) (m : HesClmeMsg) (reg : HesDevreg) : List WifiNote :=
  .taken m reg :: (askedBy devs m reg).map fun c => .command c.1 c.2

/-- INTERNAL: the notes of a trace are taken piece by piece. -/
theorem notesOf_append (first second : List WifiEvent) :
    notesOf (first ++ second) = notesOf first ++ notesOf second := List.filterMap_append

/-- INTERNAL: the frames are the messages of the notes. -/
theorem framesOf_eq (evs : List WifiEvent) :
    framesOf evs = (notesOf evs).filterMap WifiNote.message := by
  unfold framesOf notesOf
  rw [List.filterMap_filterMap]
  congr 1
  funext e
  cases e with
  | request w req reply =>
    show none = (if req = .getPilot then none else some (WifiNote.command w req)).bind _
    split <;> rfl
  | frame m reg => rfl
  | send m => rfl
  | report reg t => rfl

/-- INTERNAL: the calls of a PUT are noted as its commands. -/
theorem notesOf_requestsOf (w : WifiDev) (calls : List (WizRequest × Option CStr))
    (path payload : CStr) (h : calls.map Prod.fst = commandsOf path payload) :
    notesOf (requestsOf w calls) =
      (commandsOf path payload).map fun req => WifiNote.command w req := by
  have hreq : ∀ c ∈ calls, c.1 ≠ .getPilot := fun c hc hpilot =>
    getPilot_not_commanded path payload (h ▸ hpilot ▸ List.mem_map_of_mem hc)
  rw [← h, List.map_map]
  clear h
  induction calls with
  | nil => rfl
  | cons c rest ih =>
    have hhead : noteOf (.request w c.1 c.2) = some (.command w c.1) :=
      if_neg (hreq c List.mem_cons_self)
    show notesOf (.request w c.1 c.2 :: requestsOf w rest) = _
    unfold notesOf
    rw [List.filterMap_cons_some hhead]
    exact congrArg _ (ih fun c hc => hreq c (List.mem_cons_of_mem _ hc))

/-- INTERNAL: an event of another kind adds no note. -/
theorem notesOf_log (s : WifiState) (e : WifiEvent) (h : noteOf e = none) :
    notesOf (s.log e).trace = notesOf s.trace := by
  show notesOf (s.trace ++ [e]) = _
  rw [notesOf_append]
  unfold notesOf
  rw [List.filterMap_cons_none h, List.filterMap_nil, List.append_nil]

/-- INTERNAL: **a loop** whose turns keep something keeps it. -/
theorem foldlM_keeps {σ α γ : Type} (g : σ → γ) (turn : σ → α → Option σ)
    (hturn : ∀ t a t', turn t a = some t' → g t' = g t) (items : List α) (s s' : σ)
    (hloop : items.foldlM turn s = some s') : g s' = g s := by
  induction items generalizing s with
  | nil =>
    cases hloop
    rfl
  | cons a rest ih =>
    rw [List.foldlM_cons] at hloop
    obtain ⟨t, ht, hloop⟩ := Option.bind_eq_some_iff.mp hloop
    exact (ih t hloop).trans (hturn s a t ht)

section passes

variable (lamp : ℕ → Option CStr) (exchange : ℕ → Exchange)

/-- INTERNAL: reading an object is not noted. -/
theorem wifiReadObject_notes (w : WifiDev) (obj : HesDevObject) (s : WifiState)
    (read : WifiState × Option CStr) (h : wifiReadObject lamp w obj s = some read) :
    notesOf read.1.trace = notesOf s.trace := by
  obtain ⟨u, val⟩ := read
  rcases wifiReadObject_some lamp w obj s u val h with ⟨rfl, -⟩ | ⟨reply, rfl, -⟩
  · rfl
  · exact notesOf_log s _ rfl

/-- INTERNAL: what a message asks for is asked of its target, if that may be written. -/
theorem askedBy_target (s : WifiState) (m : HesClmeMsg) :
    askedBy s.devs m s.sys.reg =
      ((s.target m).map fun found =>
        if m.verb = .put && found.2.2.isWritten then
          (commandsOf m.path m.payload).map fun req => (found.2.1, req)
        else []).getD [] := by
  unfold askedBy WifiState.target
  rw [Option.bind_eq_bind]
  cases resolveIndex s.sys.reg m.path m.deviceIndex with
  | none => rfl
  | some i =>
    rw [Option.bind_some, Option.bind_some, Option.bind_eq_bind]
    cases findOpen s.devs i with
    | none => rfl
    | some w =>
      rw [Option.bind_some, Option.bind_some, Option.bind_eq_bind]
      cases s.sys.reg.devices[i]? with
      | none => rfl
      | some dev =>
        rw [Option.bind_some, Option.bind_some, Option.bind_eq_bind]
        cases hesDevObjectFind dev m.path <;> rfl

/-- INTERNAL: a PUT has the calls that it asks for. -/
theorem wifiPut_notes (m : HesClmeMsg) (s : WifiState) (hput : m.verb = .put) :
    notesOf (wifiPut lamp m s).trace =
      notesOf s.trace ++ (askedBy s.devs m s.sys.reg).map fun c => WifiNote.command c.1 c.2 := by
  rw [askedBy_target, hput]
  unfold wifiPut
  cases ht : s.target m with
  | none => exact (List.append_nil _).symm
  | some found =>
    obtain ⟨dev, w, obj⟩ := found
    rw [Option.map_some, Option.getD_some, decide_eq_true rfl, Bool.true_and]
    dsimp only
    split
    next hwritten =>
      obtain ⟨calls, hcalls, hasked⟩ := wifiWriteObject_trace lamp w obj m.payload s
      have hpath : obj.path = m.path := by
        unfold WifiState.target at ht
        simp only [Option.bind_eq_bind, Option.bind_eq_some_iff, Option.some.injEq,
          Prod.mk.injEq] at ht
        obtain ⟨-, -, -, -, dev', -, obj', hobj, rfl, rfl, rfl⟩ := ht
        unfold hesDevObjectFind at hobj
        simpa using List.find?_some hobj
      rw [hpath] at hasked
      rw [hcalls, List.map_map]
      dsimp only
      rw [notesOf_append, notesOf_requestsOf w calls m.path m.payload hasked]
      rfl
    · exact (List.append_nil _).symm

/-- INTERNAL: only a PUT asks for calls. -/
theorem askedBy_of_ne_put (s : WifiState) (m : HesClmeMsg) (h : m.verb ≠ .put) :
    askedBy s.devs m s.sys.reg = [] := by
  rw [askedBy_target, decide_eq_false h]
  cases s.target m <;> rfl

/-- INTERNAL: **a message is taken**: it is noted, and what it asks for. -/
theorem wifiTakeFrame_notes (m : HesClmeMsg) (s s' : WifiState)
    (h : wifiTakeFrame lamp m s = some s') :
    notesOf s'.trace = notesOf s.trace ++ notesFor s.devs m s.sys.reg := by
  let t := s.log (.frame m s.sys.reg)
  have hlog : notesOf t.trace = notesOf s.trace ++ [.taken m s.sys.reg] := notesOf_append _ _
  by_cases hput : m.verb = .put
  · have hs' : s' = wifiPut lamp m t := by
      unfold wifiTakeFrame at h
      rw [hput] at h
      exact (Option.some.inj h).symm
    rw [hs', wifiPut_notes lamp m t hput, hlog, List.append_assoc]
    rfl
  · unfold notesFor
    rw [askedBy_of_ne_put s m hput, List.map_nil, ← hlog]
    unfold wifiTakeFrame at h
    dsimp only at h
    split at h
    · next hverb => exact absurd hverb hput
    · unfold wifiGet at h
      split at h
      · split at h
        · obtain ⟨read, hread, rfl⟩ := Option.map_eq_some_iff.mp h
          have hnotes := wifiReadObject_notes lamp _ _ t read hread
          split
          · exact (notesOf_log _ _ rfl).trans hnotes
          · exact hnotes
        · cases h
          rfl
      · cases h
        rfl
    · cases h
      rfl

/-- INTERNAL: polling an object is not noted. -/
theorem pollObject_notes (w : WifiDev) (dev : HesDevice) (acc : WifiState × Bool)
    (obj : HesDevObject) (acc' : WifiState × Bool) (h : pollObject lamp w dev acc obj = some acc') :
    notesOf acc'.1.trace = notesOf acc.1.trace := by
  unfold pollObject at h
  split at h
  · obtain ⟨read, hread, rfl⟩ := Option.map_eq_some_iff.mp h
    have hnotes := wifiReadObject_notes lamp w obj acc.1 read hread
    split
    · exact (notesOf_log _ _ rfl).trans hnotes
    · exact hnotes
  · cases h
    rfl

/-- INTERNAL: nor is polling a device. -/
theorem wifiPollDev_notes (s : WifiState) (w : WifiDev) (s' : WifiState)
    (h : wifiPollDev lamp exchange s w = some s') : notesOf s'.trace = notesOf s.trace := by
  unfold wifiPollDev at h
  split at h
  · cases h
    rfl
  next dev _ =>
    obtain ⟨polled, hpolled, rfl⟩ := Option.map_eq_some_iff.mp h
    have hnotes := foldlM_keeps (fun acc : WifiState × Bool => notesOf acc.1.trace) _
      (fun t obj t' ht => pollObject_notes lamp w dev t obj t' ht) _ _ polled hpolled
    split
    · exact hnotes
    · exact (notesOf_log _ _ rfl).trans hnotes

/-- INTERNAL: **a pass** takes the message that it is given, and no other, and does what it asks
for. -/
theorem wifiTurn_notes (s : WifiState) (turn : WifiTurn) (s' : WifiState)
    (h : wifiTurn lamp exchange s turn = some s') :
    notesOf s'.trace =
      notesOf s.trace ++ turn.frame.toList.flatMap fun m => notesFor s.devs m s.sys.reg := by
  obtain ⟨t, ht, hpolled⟩ := Option.bind_eq_some_iff.mp h
  have hlisten : notesOf t.trace =
      notesOf s.trace ++ turn.frame.toList.flatMap fun m => notesFor s.devs m s.sys.reg := by
    obtain ⟨u, hu, rfl⟩ := Option.map_eq_some_iff.mp ht
    have htaken : notesOf u.trace =
        notesOf s.trace ++ turn.frame.toList.flatMap fun m => notesFor s.devs m s.sys.reg := by
      cases hf : turn.frame with
      | none =>
        rw [hf] at hu
        cases hu
        exact (List.append_nil _).symm
      | some m =>
        rw [hf] at hu
        rw [Option.toList_some, List.flatMap_singleton]
        exact wifiTakeFrame_notes lamp m s u hu
    split
    · exact htaken
    · exact htaken
  rw [← hlisten]
  split at hpolled
  · exact foldlM_keeps (fun u : WifiState => notesOf u.trace) _
      (fun u w u' hu => wifiPollDev_notes lamp exchange u w u' hu) t.devs
      { t with lastPoll := turn.now } s' hpolled
  · cases hpolled
    rfl

/-- INTERNAL: a message has one note of itself. -/
theorem message_notesFor (devs : List WifiDev) (m : HesClmeMsg) (reg : HesDevreg) :
    (notesFor devs m reg).filterMap WifiNote.message = [m] := by
  unfold notesFor
  rw [List.filterMap_cons, List.filterMap_map]
  exact congrArg _ (List.filterMap_eq_nil_iff.mpr fun _ _ => rfl)

/-- INTERNAL: taking a frame adds its message. -/
theorem wifiTakeFrame_frames (m : HesClmeMsg) (s s' : WifiState)
    (h : wifiTakeFrame lamp m s = some s') : framesOf s'.trace = framesOf s.trace ++ [m] := by
  rw [framesOf_eq, framesOf_eq, wifiTakeFrame_notes lamp m s s' h, List.filterMap_append,
    message_notesFor]

/-- INTERNAL: the messages of a pass. -/
theorem wifiTurn_frames (s : WifiState) (turn : WifiTurn) (s' : WifiState)
    (h : wifiTurn lamp exchange s turn = some s') :
    framesOf s'.trace = framesOf s.trace ++ turn.frame.toList := by
  rw [framesOf_eq, framesOf_eq, wifiTurn_notes lamp exchange s turn s' h, List.filterMap_append]
  cases turn.frame with
  | none => rfl
  | some m => rw [Option.toList_some, List.flatMap_singleton, message_notesFor]

end passes

/-! ## The channel -/

/-- INTERNAL: what is received of the frames sent is the messages, in their order. -/
theorem sentAs_received (sent : List HesClmeMsg) (frames : List (List UInt8))
    (h : List.Forall₂ SentAs sent frames) (keep : List UInt8 → Bool) :
    List.SublistForall₂ SameMessage ((frames.filter keep).map receivedMsg) sent := by
  have hall : List.Forall₂ SameMessage (frames.map receivedMsg) sent := by
    rw [List.forall₂_map_left_iff]
    exact h.flip.imp fun _ _ hsent => hsent.2
  exact SublistForall₂.of_sublist (List.sublistForall₂_iff.mpr ⟨sent, hall, List.Sublist.refl _⟩)
    (List.filter_sublist.map receivedMsg)

variable {V α : Type} [CDouble V] (host : CoreHost V α) (bm : BindingMap V)

/-- What holds in a run: every PUT of the core is mediated, the module takes what the core sends,
and what happens in the module is attributed. -/
structure Coupled (start : WifiState) (s : GatewaySystem V α) : Prop where
  mediated : EveryEvent (PutMediated host bm) s.core.trace
  carried : Carried SameMessage (s.core.trace.flatMap sends) (s.wire.map receivedMsg)
    (framesOf s.wifi.trace)
  follows : AttributedStep start start s.wifi

/-- INTERNAL: **a step** keeps the two modules coupled. -/
theorem systemStep_coupled (hauthz : bm.authzDisabled = false) (depth : ℕ) (topics : List CStr)
    (lamp : ℕ → Option CStr) (exchange : ℕ → Exchange) (start : WifiState)
    (hstart : Follows start start) (s : GatewaySystem V α) (h : Coupled host bm start s)
    (step : SystemStep) (s' : GatewaySystem V α)
    (hstep : systemStep host bm depth topics lamp exchange s step = some s') :
    Coupled host bm start s' := by
  cases step with
  | core turn frames =>
    obtain ⟨evs, hevs⟩ := coreTurn_grows host bm depth turn s.core
    unfold systemStep at hstep
    dsimp only at hstep
    rw [hevs, List.drop_left] at hstep
    split at hstep
    next hsent =>
      cases hstep
      refine ⟨coreTurn_mediated host bm hauthz depth turn s.core h.mediated, ?_, h.follows⟩
      dsimp only
      rw [hevs, List.flatMap_append, List.map_append]
      exact h.carried.send (sentAs_received _ frames hsent _)
    · cases hstep
  | lose k =>
    cases hstep
    exact ⟨h.mediated, h.carried.lose ((List.eraseIdx_sublist _ _).map receivedMsg), h.follows⟩
  | wifi receives notified now =>
    obtain ⟨wifi, hwifi, rfl⟩ := Option.map_eq_some_iff.mp hstep
    have hfollows := Follows.step start start s.wifi h.follows hstart
    have hframes := wifiTurn_frames lamp exchange s.wifi _ wifi hwifi
    refine ⟨h.mediated, ?_, AttributedStep.trans start start s.wifi wifi h.follows
      (wifiTurn_attributed lamp exchange start s.wifi hfollows _ wifi hwifi)⟩
    dsimp only
    rw [hframes]
    cases receives with
    | false =>
      rw [if_neg (by simp), if_neg (by simp), Option.map_none, Option.toList_none, List.append_nil]
      exact h.carried
    | true =>
      rw [if_pos rfl, if_pos rfl]
      have hcarried := h.carried
      cases hwire : s.wire with
      | nil =>
        rw [hwire] at hcarried
        rw [List.head?_nil, Option.map_none, Option.toList_none, List.append_nil]
        exact hcarried
      | cons frame rest =>
        rw [hwire] at hcarried
        exact hcarried.take

/-- INTERNAL: **a run** keeps them coupled. -/
theorem systemRun_coupled (hauthz : bm.authzDisabled = false) (depth : ℕ) (topics : List CStr)
    (lamp : ℕ → Option CStr) (exchange : ℕ → Exchange) (start : WifiState)
    (hstart : Follows start start) (steps : List SystemStep) (s s' : GatewaySystem V α)
    (h : Coupled host bm start s)
    (hrun : systemRun host bm depth topics lamp exchange s steps = some s') :
    Coupled host bm start s' := by
  induction steps generalizing s with
  | nil =>
    cases hrun
    exact h
  | cons step rest ih =>
    unfold systemRun at hrun
    rw [List.foldlM_cons] at hrun
    obtain ⟨t, ht, hrun⟩ := Option.bind_eq_some_iff.mp hrun
    exact ih t (systemStep_coupled host bm hauthz depth topics lamp exchange start hstart s h step t
      ht) hrun

/-! ## Commands -/

/-- The message is a PUT that the core sent at some event of its trace: the PUT of a row whose gates
admit it, the message being processed, relayed to a declared device, or a `hes.put` of the app. -/
def PutOfCore (trace : List (CoreEvent V)) (m : HesClmeMsg) : Prop :=
  ∃ told e later sent, trace = told ++ e :: later ∧ sent ∈ sends e ∧ SameMessage m sent ∧
    ((∃ cause, currentMsg told = some cause ∧
      (AdmittedPut host bm cause sent ∨ RelayedPut host bm cause sent)) ∨
    ScriptRan e ∧ ∃ path value, sent = hesPut path value)

/-- **The command comes from the core**: it stands for a PUT in front of it, as each command of the
module does, and that PUT is one of the core. -/
def CommandOfCore (start : WifiState) (trace : List (CoreEvent V)) (pre : List WifiEvent)
    (w : WifiDev) (req : WizRequest) : Prop :=
  ∃ before m reg calls rest dev obj boot,
    pre = before ++ .frame m reg :: requestsOf w calls ∧ m.verb = .put ∧
      commandsOf m.path m.payload = calls.map Prod.fst ++ req :: rest ∧
      Addresses reg m w.regIdx dev obj ∧ obj.isWritten = true ∧
      OpenedFor start w boot ∧ boot.deviceIndex = dev.deviceIndex ∧
      PutOfCore host bm trace m

/-- INTERNAL: the same message has the same verb. -/
theorem sameMessage_verb {m n : HesClmeMsg} (h : SameMessage m n) : m.verb = n.verb := by
  have hverb := congrArg HesClmeMsg.verb h
  exact hverb

/-- INTERNAL: a PUT that the module took is one of the core. -/
theorem putOfCore_of_taken (start : WifiState) (s : GatewaySystem V α)
    (h : Coupled host bm start s) (m : HesClmeMsg) (hm : m ∈ framesOf s.wifi.trace)
    (hput : m.verb = .put) : PutOfCore host bm s.core.trace m := by
  obtain ⟨sent, hsent, hsame⟩ := h.carried.origin hm
  obtain ⟨e, he, hsends⟩ := List.mem_flatMap.mp hsent
  obtain ⟨told, later, htrace⟩ := List.append_of_mem he
  refine ⟨told, e, later, sent, htrace, hsends, hsame, ?_⟩
  exact h.mediated told e later htrace sent hsends ((sameMessage_verb hsame).symm.trans hput)

/-- **The path of a command**, in every run of the core module beside the WiFi module, with
authorization enabled, whatever frames come to the core, whichever of its own are lost, whatever the
lamps answer and the service tells: the module takes messages of the core only, in their order and
none twice; and each command to a lamp goes to the address of the online device that a PUT in front
of it resolves to, is one that the PUT asks for, and that PUT was sent by the core, for a row whose
gates admitted it, as the relay of a command to a declared device, or for the app.
SRCLINE: modules/core/core.c:595-675, common/hes_bus.c:183-205, han/wifi/wifi.c:372-410 -/
theorem commands_come_from_core (hauthz : bm.authzDisabled = false) (depth : ℕ) (app : α)
    (pf : MsProfile) (moduleRef : ℕ) (bulbIp : CStr) (t : Exchange) (opened : ℕ → Bool)
    (start : WifiState) (hboot : hanWifiBoot pf moduleRef bulbIp t opened = some start)
    (lamp : ℕ → Option CStr) (exchange : ℕ → Exchange) (steps : List SystemStep)
    (s : GatewaySystem V α)
    (hrun : systemRun host bm depth (wifiTopics start) lamp exchange
      ⟨CoreState.start app, [], start⟩ steps = some s) :
    List.SublistForall₂ SameMessage (framesOf s.wifi.trace) (s.core.trace.flatMap sends) ∧
      ∀ pre w req reply post, s.wifi.trace = pre ++ .request w req reply :: post →
        req ≠ .getPilot → CommandOfCore host bm start s.core.trace pre w req := by
  obtain ⟨hstart, hempty⟩ := hanWifiBoot_follows pf moduleRef bulbIp t opened start hboot
  have hinit : Coupled host bm start ⟨CoreState.start app, [], start⟩ := by
    refine ⟨everyEvent_nil _, ?_, AttributedStep.refl start start⟩
    dsimp only
    rw [hempty]
    exact carried_nil
  have hcoupled := systemRun_coupled host bm hauthz depth _ lamp exchange start hstart steps _ s
    hinit hrun
  refine ⟨hcoupled.carried.got, fun pre w req reply post htrace hreq => ?_⟩
  obtain ⟨evs, hevs, hattributed⟩ := hcoupled.follows.events
  rw [hempty, List.nil_append] at hevs
  rw [hevs] at htrace
  obtain ⟨before, m, reg, calls, rest, dev, obj, boot, hpre, hput, hcommand⟩ :=
    hattributed pre _ post htrace hreq
  have hm : m ∈ framesOf s.wifi.trace := by
    apply mem_framesOf _ m reg
    rw [hevs, htrace, hpre]
    simp
  obtain ⟨hcalls, haddresses, hwritten, hopened, hsame⟩ := hcommand
  exact ⟨before, m, reg, calls, rest, dev, obj, boot, hpre, hput, hcalls, haddresses, hwritten,
    hopened, hsame, putOfCore_of_taken host bm start s hcoupled m hm hput⟩

/-- The frame of the leaf's command. -/
def leafFrame : List UInt8 :=
  textField leafCommand.path hesPathMax ++ [2, 0, 0, 0] ++ [2, 0, 0, 0] ++
    List.replicate hesQueryMax 0 ++ [1, 0, 0, 0] ++ textField leafCommand.payload hesPayloadMax ++
    List.replicate 556 0

/-- The core relays the command, and the module takes it. -/
def leafSteps : List SystemStep :=
  [.core { frame := some leafCommand, newSecond := false } [leafFrame], .wifi true true 5]

/-- INTERNAL: a run in which the command comes to the lamp. -/
theorem leafSteps_run :
    ∃ start s, hanWifiBoot ⟨[oneLamp]⟩ 2 (lit "192.168.1.142") .answered (fun _ => true) =
        some start ∧
      systemRun lampCore blockedMap 2 (wifiTopics start) (fun _ => some lampReplyOn)
        (fun _ => .answered) ⟨CoreState.start (), [], start⟩ leafSteps = some s ∧
      s.wifi.trace[1]? = some (.request lampClient (.setState true) (some lampReplyOn)) := by
  have hrun : ((hanWifiBoot ⟨[oneLamp]⟩ 2 (lit "192.168.1.142") .answered fun _ => true).any
      fun start => (systemRun lampCore blockedMap 2 (wifiTopics start) (fun _ => some lampReplyOn)
        (fun _ => .answered) ⟨CoreState.start (), [], start⟩ leafSteps).any fun s =>
          s.wifi.trace[1]? = some (.request lampClient (.setState true) (some lampReplyOn))) =
      true := by
    decide +kernel
  obtain ⟨start, hboot, hrun⟩ := Option.any_eq_true _ _ |>.mp hrun
  obtain ⟨s, hs, hevent⟩ := Option.any_eq_true _ _ |>.mp hrun
  exact ⟨start, s, hboot, hs, of_decide_eq_true hevent⟩

/-- A leaf's command reaches the lamp behind the core's relay. -/
theorem commands_come_from_core_leaf :
    ∃ start trace pre, hanWifiBoot ⟨[oneLamp]⟩ 2 (lit "192.168.1.142") .answered (fun _ => true) =
        some start ∧
      CommandOfCore lampCore blockedMap start trace pre lampClient (.setState true) := by
  obtain ⟨start, s, hboot, hrun, hcommand⟩ := leafSteps_run
  obtain ⟨pre, post, htrace⟩ := List.append_of_mem (List.mem_of_getElem? hcommand)
  have hpath := commands_come_from_core lampCore blockedMap rfl 2 () _ 2 _ .answered _ start hboot _
    _ leafSteps s hrun
  exact ⟨start, s.core.trace, pre, hboot, hpath.2 pre lampClient _ _ post htrace (by decide)⟩

end OpenHes.Analysis
