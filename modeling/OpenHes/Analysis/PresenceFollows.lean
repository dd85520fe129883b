import OpenHes.Analysis.BlePresence
import OpenHes.Analysis.ButtonEvents

/-!
# Presence from the link to the service

The connection manager tells its module each change of a link, the module reports it, and the
manifest service stores it and sends it back. As long as the manager tells nothing while a
notification is waiting, and no report gets lost, the service stores for each device whether the
manager has it online.
-/

set_option autoImplicit false

namespace OpenHes.Analysis

open OpenHes.Library OpenHes.Model

variable {M A : Type}

/-! ## Calm runs -/

/-- What `hes_ble.h` promises of a backend, in every run of a manager whose polls have room. -/
def KeepsPromise (b : BleBackend M A) : Prop :=
  ∀ steps, (∀ step ∈ steps, PollsAll step) → ∀ m log, b.run (b.init, []) steps = some (m, log) →
    ∃ gap, LinksTold b gap m log

section Loop

variable (b : BleBackend M A) (temp : ℕ → CStr)

/-- **A calm pass**: if its poll tells a change, no notification is waiting then and every report
reaches the service. -/
def calmTurn (s : BleLoop M) (turn : BleTurn A) : Bool :=
  (b.poll (bleListen b temp turn s).mgr turn.pollAt turn.answers hesDevregMaxDevices).all
    fun polled => polled.2 = [] ||
      (bleListen b temp turn s).sys.inbox = [] &&
        polled.2.zipIdx.all fun ev => turn.exchange ev.2 ≠ .unsent

/-- Every pass of the run is calm. -/
def calmRun (s : BleLoop M) : List (BleTurn A) → Bool
  | [] => true
  | turn :: turns =>
    calmTurn b temp s turn && (bleTurn b temp s turn).all fun next => calmRun next turns

/-! ## The links behind a log -/

/-- The links of the devices of a set as they were told last. -/
def toldLast (dis : List ℕ) (log : List (ℤ × HesBleEvent)) (di : ℕ) : Bool :=
  decide (di ∈ dis) && ((linkHistory di log).getLast?.map Prod.snd).getD false

/-- INTERNAL: an event adds to the history of its own device. -/
theorem linkHistory_snoc (di : ℕ) (log : List (ℤ × HesBleEvent)) (now : ℤ) (ev : HesBleEvent) :
    linkHistory di (log ++ [(now, ev)]) =
      linkHistory di log ++ if ev.deviceIndex = di then [(now, ev.isOnline)] else [] := by
  unfold linkHistory
  rw [List.filter_append, List.map_append]
  congr 1
  by_cases hdi : ev.deviceIndex = di
  · simp [hdi]
  · simp [hdi]

/-- INTERNAL: it is what was told last of it. -/
theorem toldLast_snoc (dis : List ℕ) (log : List (ℤ × HesBleEvent)) (now : ℤ) (ev : HesBleEvent)
    (hdi : ev.deviceIndex ∈ dis) : toldLast dis (log ++ [(now, ev)]) =
      Function.update (toldLast dis log) ev.deviceIndex ev.isOnline := by
  funext di
  unfold toldLast
  rw [linkHistory_snoc]
  by_cases hsame : di = ev.deviceIndex
  · rw [hsame, Function.update_self, if_pos rfl, List.getLast?_concat, decide_eq_true hdi]
    rfl
  · rw [Function.update_of_ne hsame, if_neg (Ne.symm hsame), List.append_nil]

/-- INTERNAL: an event of another device leaves the links of the set. -/
theorem toldLast_outside (dis : List ℕ) (log : List (ℤ × HesBleEvent)) (now : ℤ)
    (ev : HesBleEvent) (hdi : ev.deviceIndex ∉ dis) :
    toldLast dis (log ++ [(now, ev)]) = toldLast dis log := by
  funext di
  unfold toldLast
  by_cases hmem : di ∈ dis
  · rw [linkHistory_snoc, if_neg fun heq : ev.deviceIndex = di => hdi (heq.symm ▸ hmem),
      List.append_nil]
  · rw [decide_eq_false hmem, Bool.false_and, Bool.false_and]

/-! ## Steps -/

/-- A system follows a log: the module and the service have their devices, and the flags of the
service are the links as they were told last. -/
structure SysFollows (mi : ℕ) (dis : List ℕ) (sys : BleSystem) (log : List (ℤ × HesBleEvent)) :
    Prop where
  inStep : InStep mi dis sys
  consistent : (flagsOf sys).Consistent (toldLast dis log)

/-- **The invariant** of the module: its system follows what its manager has told. -/
def FollowsManager (mi : ℕ) (dis : List ℕ) (s : BleLoop M) : Prop :=
  ∃ steps log, (∀ step ∈ steps, PollsAll step) ∧ b.run (b.init, []) steps = some (s.mgr, log) ∧
    SysFollows mi dis s.sys log

/-- INTERNAL: a run in two parts. -/
theorem mgrRun_append (first second : List (BleMgrStep A)) (s : M × List (ℤ × HesBleEvent)) :
    b.run s (first ++ second) = (b.run s first).bind fun t => b.run t second := by
  induction first generalizing s with
  | nil => rfl
  | cons step rest ih =>
    show (b.step s step).bind _ = ((b.step s step).bind _).bind _
    rw [Option.bind_assoc]
    exact congrArg _ (funext fun t => ih t)

variable (mi : ℕ) (hmi : mi < 2 ^ 32) (dis : List ℕ) (hdis : DeviceSet dis)

/-- INTERNAL: a link event is one step of the system. -/
theorem takeLink_sys (exchange : ℕ → Exchange) (s : BleLoop M) (ev : HesBleEvent × ℕ) :
    (takeLink exchange s ev).sys = s.sys.takeLinkEvent ev.1 (exchange ev.2) ∧
      (takeLink exchange s ev).mgr = s.mgr := by
  unfold takeLink
  split
  · next hnone =>
    refine ⟨?_, rfl⟩
    have hnone : indexByDi s.sys.reg ev.1.deviceIndex = none := by
      unfold indexByDi
      unfold HesDevreg.indexByDi at hnone
      rw [List.findIdx?_eq_none_iff] at hnone
      rw [List.find?_eq_none]
      intro d hd
      rw [hnone d hd]
      exact Bool.false_ne_true
    unfold BleSystem.takeLinkEvent
    rw [hnone]
  · dsimp only
    split
    · exact ⟨rfl, rfl⟩
    · exact ⟨rfl, rfl⟩

include hmi hdis

/-- INTERNAL: **the events of a calm poll**: each is reported and stored. -/
theorem takeLinks_follow (exchange : ℕ → Exchange) (now : ℤ) (evs : List (HesBleEvent × ℕ))
    (hreach : ∀ ev ∈ evs, exchange ev.2 ≠ .unsent) (s : BleLoop M) (log : List (ℤ × HesBleEvent))
    (h : SysFollows mi dis s.sys log) (hagreed : (flagsOf s.sys).held = (flagsOf s.sys).stored) :
    SysFollows mi dis (evs.foldl (takeLink exchange) s).sys
        (log ++ evs.map fun ev => (now, ev.1)) ∧
      (evs.foldl (takeLink exchange) s).mgr = s.mgr := by
  induction evs generalizing s log with
  | nil =>
    rw [List.map_nil, List.append_nil]
    exact ⟨h, rfl⟩
  | cons ev rest ih =>
    obtain ⟨hin, hconsistent⟩ := h
    obtain ⟨hsys, hmgr⟩ := takeLink_sys exchange s ev
    obtain ⟨hin', hflags⟩ := step_flags mi hmi dis hdis s.sys hin (.link ev.1 (exchange ev.2))
    have hflags : flagsOf (s.sys.takeLinkEvent ev.1 (exchange ev.2)) = (flagsOf s.sys).run
        (if ev.1.deviceIndex ∈ dis then
          [.event ev.1.deviceIndex ev.1.isOnline (decide (exchange ev.2 ≠ .unsent))] else []) :=
      hflags
    have hlog : log ++ (ev :: rest).map (fun ev => (now, ev.1)) =
        (log ++ [(now, ev.1)]) ++ rest.map fun ev => (now, ev.1) := by
      rw [List.map_cons, List.append_assoc]
      rfl
    have hrest := fun ev hev => hreach ev (List.mem_cons_of_mem _ hev)
    rw [List.foldl_cons, hlog, ← hmgr]
    by_cases hdi : ev.1.deviceIndex ∈ dis
    · rw [if_pos hdi, decide_eq_true (hreach ev List.mem_cons_self)] at hflags
      obtain ⟨hkeeps, hagreed'⟩ := EchoedFlags.step_agreed _ ev.1.deviceIndex ev.1.isOnline hagreed
      refine ih hrest _ _ ⟨hsys ▸ hin', ?_⟩ ?_
      · rw [hsys, hflags, toldLast_snoc dis log now ev.1 hdi]
        exact EchoedFlags.step_consistent _ _ hconsistent _ hkeeps
      · rw [hsys, hflags]
        exact hagreed'
    · rw [if_neg hdi] at hflags
      refine ih hrest _ _ ⟨hsys ▸ hin', ?_⟩ ?_
      · rw [hsys, hflags, toldLast_outside dis log now ev.1 hdi]
        exact hconsistent
      · rw [hsys, hflags]
        exact hagreed

/-- INTERNAL: a notification is taken over. -/
theorem takeNotification_follow (sys : BleSystem) (log : List (ℤ × HesBleEvent))
    (h : SysFollows mi dis sys log) : SysFollows mi dis sys.takeNotification log := by
  obtain ⟨hin, hflags⟩ := step_flags mi hmi dis hdis sys h.inStep .notification
  refine ⟨hin, ?_⟩
  have hflags : flagsOf sys.takeNotification = (flagsOf sys).step .merge := hflags
  rw [hflags]
  exact EchoedFlags.step_consistent _ _ h.consistent .merge trivial

omit hmi hdis in
/-- INTERNAL: a message from the bus touches neither the system nor the manager. -/
theorem bleTakeFrame_sys (now : ℤ) (m : HesClmeMsg) (s : BleLoop M) :
    (bleTakeFrame b temp now m s).sys = s.sys ∧ (bleTakeFrame b temp now m s).mgr = s.mgr := by
  unfold bleTakeFrame
  dsimp only
  split
  · unfold bleGet
    split
    · exact ⟨rfl, rfl⟩
    · split
      · dsimp only
        split
        · exact ⟨rfl, rfl⟩
        · exact ⟨rfl, rfl⟩
      · exact ⟨rfl, rfl⟩
  · exact ⟨rfl, rfl⟩

/-- INTERNAL: a pass up to its poll. -/
theorem bleListen_follow (s : BleLoop M) (log : List (ℤ × HesBleEvent))
    (h : SysFollows mi dis s.sys log) (turn : BleTurn A) :
    SysFollows mi dis (bleListen b temp turn s).sys log ∧
      (bleListen b temp turn s).mgr = s.mgr := by
  have hframe : ∀ u : BleLoop M, u = (turn.frame.elim s fun m =>
      bleTakeFrame b temp turn.getAt m s) → u.sys = s.sys ∧ u.mgr = s.mgr := by
    rintro u rfl
    cases turn.frame with
    | none => exact ⟨rfl, rfl⟩
    | some m => exact bleTakeFrame_sys b temp turn.getAt m s
  obtain ⟨hsys, hmgr⟩ := hframe _ rfl
  unfold bleListen
  dsimp only
  split
  · refine ⟨?_, hmgr⟩
    show SysFollows mi dis (BleLoop.sys _).takeNotification log
    rw [hsys]
    exact takeNotification_follow mi hmi dis hdis s.sys log h
  · rw [hsys]
    exact ⟨h, hmgr⟩

omit hmi hdis in
/-- INTERNAL: the publications touch neither the system nor the manager. -/
theorem publishButton_sys (now : ℕ → ℤ) (s : BleLoop M) (p : HesDevice × ℕ) :
    (publishButton b now s p).sys = s.sys ∧ (publishButton b now s p).mgr = s.mgr := by
  unfold publishButton
  split
  · split
    · exact ⟨rfl, rfl⟩
    · dsimp only
      split
      · exact ⟨rfl, rfl⟩
      · exact ⟨rfl, rfl⟩
  · exact ⟨rfl, rfl⟩

omit hmi hdis in
/-- INTERNAL: publishing an object leaves the registry and the manager. -/
theorem publishObject_sys (now : ℤ) (p : HesDevice × ℕ) (s : BleLoop M) (obj : HesDevObject) :
    (publishObject b temp now p s obj).sys = s.sys ∧
      (publishObject b temp now p s obj).mgr = s.mgr := by
  rcases publishObject_cases b temp now p s obj with hnone | ⟨-, -, val, hpub⟩
  · rw [hnone]
    exact ⟨rfl, rfl⟩
  · rw [hpub]
    exact ⟨rfl, rfl⟩

omit hmi hdis in
/-- INTERNAL: a loop whose turns touch neither. -/
theorem foldl_sys {α : Type} (turn : BleLoop M → α → BleLoop M)
    (hturn : ∀ s a, (turn s a).sys = s.sys ∧ (turn s a).mgr = s.mgr) (items : List α)
    (s : BleLoop M) : (items.foldl turn s).sys = s.sys ∧ (items.foldl turn s).mgr = s.mgr := by
  induction items generalizing s with
  | nil => exact ⟨rfl, rfl⟩
  | cons a rest ih =>
    obtain ⟨hsys, hmgr⟩ := ih (turn s a)
    exact ⟨hsys.trans (hturn s a).1, hmgr.trans (hturn s a).2⟩

omit hmi hdis in
/-- INTERNAL: so does the periodic publication. -/
theorem publishPeriodic_sys (now : ℤ) (s : BleLoop M) :
    (publishPeriodic b temp now s).sys = s.sys ∧ (publishPeriodic b temp now s).mgr = s.mgr := by
  refine foldl_sys _ (fun t p => ?_) _ s
  split
  · exact foldl_sys _ (publishObject_sys b temp now p) _ t
  · exact ⟨rfl, rfl⟩

/-- INTERNAL: **a calm pass** keeps the invariant. -/
theorem bleTurn_follow (s s' : BleLoop M) (h : FollowsManager b mi dis s) (turn : BleTurn A)
    (hcalm : calmTurn b temp s turn = true) (hturn : bleTurn b temp s turn = some s') :
    FollowsManager b mi dis s' := by
  obtain ⟨steps, log, hroom, hrun, hfollow⟩ := h
  obtain ⟨hlisten, hmgr⟩ := bleListen_follow b temp mi hmi dis hdis s log hfollow turn
  obtain ⟨⟨mgr, evs⟩, hpoll, rfl⟩ := Option.map_eq_some_iff.mp hturn
  unfold calmTurn at hcalm
  rw [hpoll, Option.all_some, Bool.or_eq_true, Bool.and_eq_true, decide_eq_true_iff,
    decide_eq_true_iff, List.all_eq_true] at hcalm
  generalize bleListen b temp turn s = u at hlisten hmgr hpoll hcalm ⊢
  have hlinks : SysFollows mi dis (evs.zipIdx.foldl (takeLink turn.exchange)
        { u with mgr := mgr }).sys (log ++ evs.map fun ev => (turn.pollAt, ev)) ∧
      (evs.zipIdx.foldl (takeLink turn.exchange) { u with mgr := mgr }).mgr = mgr := by
    have hevs : evs.map (fun ev => (turn.pollAt, ev)) =
        evs.zipIdx.map fun ev => (turn.pollAt, ev.1) := by
      conv_lhs => rw [← List.zipIdx_map_fst 0 evs, List.map_map]
      rfl
    rw [hevs]
    rcases hcalm with hnone | ⟨hinbox, hreach⟩
    · have hnone : evs = [] := hnone
      rw [hnone, List.zipIdx_nil, List.map_nil, List.append_nil]
      exact ⟨hlisten, rfl⟩
    · refine takeLinks_follow mi hmi dis hdis turn.exchange turn.pollAt evs.zipIdx
        (fun ev hev => of_decide_eq_true (hreach ev hev)) { u with mgr := mgr } log hlisten
        (hlisten.consistent.settled ?_)
      show List.map _ u.sys.inbox = []
      rw [hinbox, List.map_nil]
  obtain ⟨hfollow', hmgr'⟩ := hlinks
  have hend : ∀ v : BleLoop M, v.sys = (evs.zipIdx.foldl (takeLink turn.exchange)
      { u with mgr := mgr }).sys → v.mgr = mgr → FollowsManager b mi dis v := by
    intro v hsys hvm
    refine ⟨steps ++ [.poll turn.pollAt turn.answers hesDevregMaxDevices], _, fun step hstep => ?_,
      ?_, hsys ▸ hfollow'⟩
    · rcases List.mem_append.mp hstep with hstep | hstep
      · exact hroom step hstep
      · rw [List.mem_singleton.mp hstep]
        exact le_refl 16
    · rw [mgrRun_append, hrun, Option.bind_some, hvm]
      show ((b.poll s.mgr _ _ _).map _).bind _ = _
      rw [← hmgr, hpoll]
      rfl
  dsimp only
  obtain ⟨hsys, hbuttons⟩ := foldl_sys (publishButton b turn.buttonAt)
    (publishButton_sys b turn.buttonAt) _ (evs.zipIdx.foldl (takeLink turn.exchange)
      { u with mgr := mgr })
  split
  · obtain ⟨hsys', hperiodic⟩ := publishPeriodic_sys b temp turn.publishAt
      { publishButtons b turn.buttonAt (evs.zipIdx.foldl (takeLink turn.exchange)
        { u with mgr := mgr }) with lastPublish := turn.publishAt }
    exact hend _ (hsys'.trans hsys) (hperiodic.trans (hbuttons.trans hmgr'))
  · exact hend _ hsys (hbuttons.trans hmgr')

/-- INTERNAL: **a calm run** keeps the invariant. -/
theorem bleLoop_follow (turns : List (BleTurn A)) (s s' : BleLoop M)
    (h : FollowsManager b mi dis s) (hcalm : calmRun b temp s turns = true)
    (hrun : bleLoop b temp s turns = some s') : FollowsManager b mi dis s' := by
  induction turns generalizing s with
  | nil =>
    cases hrun
    exact h
  | cons turn rest ih =>
    unfold bleLoop at hrun
    rw [List.foldlM_cons] at hrun
    obtain ⟨t, ht, hrest⟩ := Option.bind_eq_some_iff.mp hrun
    unfold calmRun at hcalm
    rw [Bool.and_eq_true, ht, Option.all_some] at hcalm
    exact ih t (bleTurn_follow b temp mi hmi dis hdis s t h turn hcalm.1 ht) hcalm.2 hrest

omit hmi hdis in
/-- INTERNAL: **the start**: the manager has the devices and has told nothing. -/
theorem hanBleStart_follow (armed : Bool) (pf : MsProfile) (macOverride : Option CStr)
    (t : Exchange) (now : ℤ) (start : BleLoop M)
    (hstart : hanBleStart b armed pf mi macOverride t now = some start)
    (hsys : ∀ sys, hanBleBoot pf mi macOverride t = some sys →
      InStep mi dis sys ∧ (flagsOf sys).Consistent fun _ => false) :
    FollowsManager b mi dis start := by
  obtain ⟨sys, hboot, rfl⟩ := Option.map_eq_some_iff.mp hstart
  obtain ⟨hin, hconsistent⟩ := hsys sys hboot
  have hquiet : (fun _ => false) = toldLast dis [] := by
    funext di
    exact (Bool.and_false _).symm
  refine ⟨sys.reg.devices.map fun d => .add now d.deviceIndex d.address, [], ?_, ?_, hin,
    hquiet ▸ hconsistent⟩
  · intro step hstep
    obtain ⟨d, -, rfl⟩ := List.mem_map.mp hstep
    trivial
  · have hadds : ∀ (devices : List HesDevice) (m : M), b.run (m, [])
        (devices.map fun d => .add now d.deviceIndex d.address) =
          some (devices.foldl (fun m d => b.add m now d.deviceIndex d.address) m, []) := by
      intro devices
      induction devices with
      | nil => exact fun m => rfl
      | cons d rest ih => exact fun m => ih (b.add m now d.deviceIndex d.address)
    exact hadds sys.reg.devices b.init

end Loop

/-- **Presence follows the manager.** In every calm run of the module over a backend that keeps the
promise of `hes_ble.h`, behind every pass the service stores for each device of the module whether
the manager has it online; and where no notification is waiting, the module's own flag says so too.
SRCLINE: han/ble/ble.c:425-452, dm/dm.c:520-577, common/hes_mreg.c:332-378 -/
theorem presence_follows_manager (b : BleBackend M A) (hb : KeepsPromise b) (txt : CStr)
    (pf : MsProfile) (hload : loadProfile txt = some pf) (requests : List (List UInt8))
    (moduleRef : ℕ) (href : moduleRef < 2 ^ 32) (mod : MsModule)
    (hfind : findModule (serveRequests pf requests) hesMtInterface moduleRef = some mod)
    (macOverride : Option CStr) (t : Exchange) (hcarried : BleCarried mod macOverride t)
    (armed : Bool) (now : ℤ) (start : BleLoop M)
    (hstart : hanBleStart b armed (serveRequests pf requests) moduleRef macOverride t now =
      some start)
    (temp : ℕ → CStr) (turns : List (BleTurn A)) (hcalm : calmRun b temp start turns = true)
    (s : BleLoop M) (hrun : bleLoop b temp start turns = some s) :
    ∀ d ∈ s.sys.reg.devices,
      s.sys.stored d.deviceIndex =
          some (decide ((d.deviceIndex, HesBleState.online) ∈ b.states s.mgr)) ∧
        (s.sys.inbox = [] →
          d.online = decide ((d.deviceIndex, HesBleState.online) ∈ b.states s.mgr)) := by
  have hmem := (findModule_is _ _ _ mod hfind).1
  have htype : (hesMregOpen hesMtInterface moduleRef).moduleType = hesMtInterface := by
    show boundedCopy 8 hesMtInterface = hesMtInterface
    decide +kernel
  obtain ⟨sys, hboot, -⟩ := Option.map_eq_some_iff.mp hstart
  obtain ⟨dis, hdis, hin, hconsistent⟩ := boot_consistent _ moduleRef href mod (htype ▸ hfind)
    (serveRequests_fits txt pf hload requests mod hmem)
    (serveRequests_bound txt pf hload requests mod hmem) macOverride t hcarried sys hboot
  have hfollow := hanBleStart_follow b moduleRef dis armed _ macOverride t now start hstart
    fun sys' hboot' => by
      rw [← Option.some.inj (hboot.symm.trans hboot')]
      exact ⟨hin, hconsistent⟩
  obtain ⟨steps, log, hroom, hsteps, hend⟩ :=
    bleLoop_follow b temp moduleRef href dis hdis turns start s hfollow hcalm hrun
  obtain ⟨gap, htold⟩ := hb steps hroom s.mgr log hsteps
  intro d hd
  have hdi : d.deviceIndex ∈ dis := by
    rw [← hend.inStep.fronts.indexes]
    exact List.mem_map_of_mem hd
  have hlast : toldLast dis log d.deviceIndex =
      decide ((d.deviceIndex, HesBleState.online) ∈ b.states s.mgr) := by
    unfold toldLast
    rw [decide_eq_true hdi, Bool.true_and]
    exact Bool.eq_iff_iff.mpr ((htold.last _).trans decide_eq_true_iff.symm)
  have hstored : (flagsOf s.sys).stored d.deviceIndex = toldLast dis log d.deviceIndex := by
    rw [hend.consistent.stored]
  refine ⟨?_, fun hinbox => ?_⟩
  · rw [stored_some moduleRef dis s.sys hend.inStep hdis _ hdi, hstored, hlast]
  · have hheld : (flagsOf s.sys).held d.deviceIndex = d.online :=
      heldOf_found s.sys.reg _ d (hend.inStep.fronts.found dis s.sys.reg hdis d hd)
    have hsettled : (flagsOf s.sys).held = (flagsOf s.sys).stored := by
      apply hend.consistent.settled
      show List.map _ s.sys.inbox = []
      rw [hinbox, List.map_nil]
    rw [← hheld, hsettled, hstored, hlast]

/-- A pass at an instant that merges the notification that has come. -/
def mergingTurn (now : ℤ) (answers : BluezAnswers) : BleTurn BluezAnswers :=
  { tagTurn now answers with notified := true }

/-- A tag is found and comes up; the other one is never seen. -/
def calmTurns : List (BleTurn BluezAnswers) :=
  [mergingTurn 0 { device := fun i => if i = 0 then tagAnswers true else {} },
    mergingTurn 3 { device := fun i => if i = 0 then tagAnswers true else {} }]

/-- Two tags over BlueZ, of which one is connected. -/
theorem presence_follows_manager_tags :
    ∃ start s, hanBleStart (bluezBackend true) false ⟨[twoTags]⟩ 1 none .answered 0 = some start ∧
      bleLoop (bluezBackend true) (fun _ => lit "22.00") start calmTurns = some s ∧
      s.sys.stored 6 = some true ∧ s.sys.stored 7 = some false ∧
      ∀ d ∈ s.sys.reg.devices, s.sys.stored d.deviceIndex =
        some (decide ((d.deviceIndex, HesBleState.online) ∈ (bluezBackend true).states s.mgr)) := by
  have hrun : ((hanBleStart (bluezBackend true) false ⟨[twoTags]⟩ 1 none .answered 0).any
      fun start => (bleLoop (bluezBackend true) (fun _ => lit "22.00") start calmTurns).any
        fun s => calmRun (bluezBackend true) (fun _ => lit "22.00") start calmTurns &&
          s.sys.stored 6 = some true && s.sys.stored 7 = some false) = true := by
    decide +kernel
  obtain ⟨start, hstart, hrun⟩ := Option.any_eq_true _ _ |>.mp hrun
  obtain ⟨s, hs, hrun⟩ := Option.any_eq_true _ _ |>.mp hrun
  rw [Bool.and_eq_true, Bool.and_eq_true, decide_eq_true_iff, decide_eq_true_iff] at hrun
  refine ⟨start, s, hstart, hs, hrun.1.2, hrun.2, fun d hd => ?_⟩
  have hpromise : KeepsPromise (bluezBackend true) := fun steps hroom m log hsteps =>
    ⟨_, (bluezBackend_watches true).told steps hroom m log hsteps⟩
  exact (presence_follows_manager (bluezBackend true) hpromise twoTagsProfile ⟨[twoTags]⟩
    twoTags_loaded [] 1 (by decide) twoTags (by decide +kernel) none .answered twoTags_carried false
    0 start hstart (fun _ => lit "22.00") calmTurns hrun.1.1 s hs d hd).1

end OpenHes.Analysis
