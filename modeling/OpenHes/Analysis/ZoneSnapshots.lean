import OpenHes.Model.TimeSync

/-!
# The zone of the sync thread's snapshot

Whatever the network, the host and the database answer, and whenever a snapshot is read: its
zone is the result of one call of `geo_tz_offsets`, and which one follows the precedence of the
sources.
-/

set_option autoImplicit false

namespace OpenHes.Analysis

open OpenHes.Library OpenHes.Model

/-! ## Names -/

/-- INTERNAL: a name that is sane fits the array. -/
theorem length_of_sane (name : CStr) (h : zoneNameIsSane name = true) :
    name.length < geoTzNameMax := by
  unfold zoneNameIsSane at h
  simp only [Bool.and_eq_true, decide_eq_true_eq] at h
  exact h.1.1.1.1.2

/-- INTERNAL: a name with offsets fits the field of the snapshot. -/
theorem copy_of_offsets (probe : TzProbe) (name : CStr) (offsets : ℤ × ℤ)
    (h : geoTzOffsets probe name = some offsets) : hesStrlcpy geoTzNameMax name = name := by
  have hsane : zoneNameIsSane name = true := by
    unfold geoTzOffsets at h
    split at h
    · cases h
    next hsane => simpa using hsane
  exact List.take_of_length_le (Nat.le_sub_one_of_lt (length_of_sane name hsane))

/-! ## The precedence -/

/-- Is the result of the call the zone of the snapshot? -/
def IsZone (call : ZoneCall) (snap : TimeSnapshot) : Prop :=
  snap.tzName = call.name ∧ snap.stdOffsetMin = call.stdMin ∧ snap.dstOffsetMin = call.dstMin

/-- The call whose result is being taken over. -/
def inFlight : ZonePhase → List ZoneCall
  | .resolved call => [call]
  | _ => []

/-- May the call follow the ones before it? The operator's zone is the only one where one is
configured; without one, the host is asked only while there is none. -/
def MayFollow (forcedTz : CStr) (before : List ZoneCall) (call : ZoneCall) : Prop :=
  if forcedTz ≠ [] then call.source = .operator ∧ call.name = forcedTz
  else call.source = .provider ∨ call.source = .host ∧ before = []

/-- INTERNAL: with a zone that is forced only the operator names it. -/
theorem mayFollow_forced {forcedTz : CStr} (h : forcedTz ≠ []) (before : List ZoneCall)
    (call : ZoneCall) :
    MayFollow forcedTz before call ↔ call.source = .operator ∧ call.name = forcedTz := by
  unfold MayFollow
  rw [if_pos h]

/-- INTERNAL: without one the providers do, and the host in front of them. -/
theorem mayFollow_free {forcedTz : CStr} (h : forcedTz = []) (before : List ZoneCall)
    (call : ZoneCall) :
    MayFollow forcedTz before call ↔
      call.source = .provider ∨ call.source = .host ∧ before = [] := by
  unfold MayFollow
  rw [if_neg (not_not.mpr h)]

/-- Does the place of `refresh_zone` agree with the configuration and what was adopted? -/
def PhaseAgrees (forcedTz : CStr) (adopted : List ZoneCall) : ZonePhase → Prop
  | .idle => True
  | .answered _ => forcedTz = []
  | .unnamed => forcedTz = []
  | .unknown => forcedTz = [] ∧ adopted = []
  | .named source name => ∀ stdMin dstMin, MayFollow forcedTz adopted ⟨source, name, stdMin, dstMin⟩
  | .resolved call => MayFollow forcedTz adopted call

/-- What holds whenever the lock is free: the calls are those adopted and the one in flight,
each was allowed by the precedence, and the last one adopted is the snapshot's zone. -/
structure ZoneInvariant (ts : TimeSync) : Prop where
  forced : hesStrlcpy geoTzNameMax ts.forcedTz = ts.forcedTz
  calls : ts.calls = ts.adopted ++ inFlight ts.phase
  fits : ∀ call ∈ ts.calls, hesStrlcpy geoTzNameMax call.name = call.name
  ordered : ∀ before call after, ts.adopted = before ++ call :: after →
    MayFollow ts.forcedTz before call
  phase : PhaseAgrees ts.forcedTz ts.adopted ts.phase
  valid : ts.snap.tzValid = if ts.adopted = [] then 0 else 1
  last : ∀ call ∈ ts.adopted.getLast?, IsZone call ts.snap

/-- INTERNAL: the invariant holds of the state at the start. -/
theorem zoneInvariant_start (cfg : TimeSyncConfig) : ZoneInvariant (timeSyncStart cfg) where
  forced := List.take_of_length_le (List.length_take_le _ _)
  calls := rfl
  fits call hcall := absurd hcall List.not_mem_nil
  ordered before call after h := by simp [timeSyncStart] at h
  phase := trivial
  valid := rfl
  last call hcall := nomatch hcall

variable {ts : TimeSync}

/-- INTERNAL: what is in flight agrees with the phase. -/
theorem ZoneInvariant.agrees (h : ZoneInvariant ts) {phase : ZonePhase} (hphase : ts.phase = phase) :
    PhaseAgrees ts.forcedTz ts.adopted phase := hphase ▸ h.phase

/-- INTERNAL: a change of the thread's place alone. -/
theorem ZoneInvariant.move (h : ZoneInvariant ts) (phase : ZonePhase)
    (hnone : inFlight ts.phase = []) (hnone' : inFlight phase = [])
    (hphase : PhaseAgrees ts.forcedTz ts.adopted phase) :
    ZoneInvariant { ts with phase := phase } where
  forced := h.forced
  calls := by
    have hcalls := h.calls
    rw [hnone] at hcalls
    dsimp only
    rw [hnone', hcalls]
  fits := h.fits
  ordered := h.ordered
  phase := hphase
  valid := h.valid
  last := h.last

/-- INTERNAL: a refresh that begins agrees with the zone that is forced. -/
theorem beginRefresh_agrees (ts : TimeSync) (answer : CStr → Option Json)
    (hforced : hesStrlcpy geoTzNameMax ts.forcedTz = ts.forcedTz) :
    inFlight (beginRefresh ts answer) = [] ∧
      PhaseAgrees ts.forcedTz ts.adopted (beginRefresh ts answer) := by
  unfold beginRefresh
  split
  next hset =>
    refine ⟨rfl, fun stdMin dstMin => ?_⟩
    rw [mayFollow_forced hset, hforced]
    exact ⟨rfl, rfl⟩
  next hnot =>
    have hempty : ts.forcedTz = [] := not_not.mp hnot
    split
    · split
      · exact ⟨rfl, hempty⟩
      · exact ⟨rfl, hempty⟩
    · exact ⟨rfl, hempty⟩

/-- INTERNAL: a refresh of the zone keeps the invariant. -/
theorem ZoneInvariant.refreshZone (h : ZoneInvariant ts) (answer : CStr → Option Json) :
    ZoneInvariant (syncStep ts (.refreshZone answer)) := by
  rw [syncStep]
  split
  next hphase =>
    obtain ⟨hnone, hagrees⟩ := beginRefresh_agrees ts answer h.forced
    exact h.move _ (by rw [hphase]; rfl) hnone hagrees
  · exact h

/-- INTERNAL: what is said of the zone does not depend on the rest of the snapshot. -/
theorem ZoneInvariant.resnap (h : ZoneInvariant ts) (snap : TimeSnapshot)
    (hvalid : snap.tzValid = ts.snap.tzValid) (hname : snap.tzName = ts.snap.tzName)
    (hstd : snap.stdOffsetMin = ts.snap.stdOffsetMin)
    (hdst : snap.dstOffsetMin = ts.snap.dstOffsetMin) :
    ZoneInvariant { ts with snap := snap } where
  forced := h.forced
  calls := h.calls
  fits := h.fits
  ordered := h.ordered
  phase := h.phase
  valid := hvalid.trans h.valid
  last call hcall := by
    obtain ⟨hcallName, hcallStd, hcallDst⟩ := h.last call hcall
    exact ⟨hname.trans hcallName, hstd.trans hcallStd, hdst.trans hcallDst⟩

/-- INTERNAL: marking the provider reachable does. -/
theorem ZoneInvariant.markReachable (h : ZoneInvariant ts) :
    ZoneInvariant (syncStep ts .markReachable) := by
  rw [syncStep]
  split
  next name hphase =>
    have hempty : ts.forcedTz = [] := h.agrees hphase
    have hmoved := h.move (.named .provider name) (by rw [hphase]; rfl) rfl fun stdMin dstMin =>
      (mayFollow_free hempty _ _).mpr (Or.inl rfl)
    exact hmoved.resnap { ts.snap with reachable := 1 } rfl rfl rfl rfl
  · exact h

/-- INTERNAL: nothing was adopted where no zone is known. -/
theorem ZoneInvariant.adopted_iff (h : ZoneInvariant ts) :
    ts.snap.tzValid ≠ 0 ↔ ts.adopted ≠ [] := by
  rw [h.valid]
  split
  next hnil => simp [hnil]
  next hne => simp [hne]

/-- INTERNAL: looking whether a zone is known does. -/
theorem ZoneInvariant.checkKnown (h : ZoneInvariant ts) :
    ZoneInvariant (syncStep ts .checkKnown) := by
  rw [syncStep]
  split
  next hphase =>
    have hempty : ts.forcedTz = [] := h.agrees hphase
    split
    · exact h.move .idle (by rw [hphase]; rfl) rfl trivial
    next hunknown =>
      have hnil : ts.adopted = [] := not_not.mp fun hne => hunknown (h.adopted_iff.mpr hne)
      exact h.move .unknown (by rw [hphase]; rfl) rfl ⟨hempty, hnil⟩
  · exact h

/-- INTERNAL: asking the host does. -/
theorem ZoneInvariant.askHost (h : ZoneInvariant ts) (tz localtime : Option CStr) :
    ZoneInvariant (syncStep ts (.askHost tz localtime)) := by
  rw [syncStep]
  split
  next hphase =>
    obtain ⟨hempty, hnil⟩ := h.agrees hphase
    split
    next name _ =>
      apply h.move (.named .host name) (by rw [hphase]; rfl) rfl
      exact fun stdMin dstMin => (mayFollow_free hempty _ _).mpr (Or.inr ⟨rfl, hnil⟩)
    · exact h.move .idle (by rw [hphase]; rfl) rfl trivial
  · exact h

/-- INTERNAL: **a look-up** that has offsets puts its result on the way. -/
theorem ZoneInvariant.lookUp (h : ZoneInvariant ts) (probe : TzProbe) :
    ZoneInvariant (syncStep ts (.lookUp probe)) := by
  rw [syncStep]
  split
  next source name hphase =>
    have hcalls := h.calls
    have hagrees := h.agrees hphase
    rw [hphase] at hcalls
    split
    next stdMin dstMin hoffsets =>
      constructor
      · exact h.forced
      · dsimp only
        rw [hcalls]
        simp [inFlight]
      · intro call hcall
        rcases List.mem_append.mp hcall with hold | hnew
        · exact h.fits call hold
        · rw [List.mem_singleton.mp hnew]
          exact copy_of_offsets probe name _ hoffsets
      · exact h.ordered
      · exact hagrees stdMin dstMin
      · exact h.valid
      · exact h.last
    · exact h.move .idle (by rw [hphase]; rfl) rfl trivial
  · exact h

/-- INTERNAL: **the update** makes the result on the way the zone of the snapshot. -/
theorem ZoneInvariant.store (h : ZoneInvariant ts) : ZoneInvariant (syncStep ts .store) := by
  rw [syncStep]
  split
  next call hphase =>
    have hcalls := h.calls
    have hagrees := h.agrees hphase
    rw [hphase] at hcalls
    have hfits := h.fits call (by rw [hcalls]; simp [inFlight])
    constructor
    · exact h.forced
    · dsimp only
      rw [hcalls]
      simp [inFlight]
    · exact h.fits
    · intro before other after hsplit
      dsimp only at hsplit
      rcases List.eq_nil_or_concat after with rfl | ⟨init, lastCall, rfl⟩
      · obtain ⟨rfl, hsame⟩ := List.append_inj' hsplit rfl
        obtain rfl := List.singleton_inj.mp hsame
        exact hagrees
      · rw [List.concat_eq_append, ← List.cons_append, ← List.append_assoc] at hsplit
        obtain ⟨hinit, -⟩ := List.append_inj' hsplit rfl
        exact h.ordered before other init hinit
    · trivial
    · simp [storeZone]
    · intro lastCall hlast
      dsimp only at hlast
      rw [List.getLast?_concat] at hlast
      obtain rfl := Option.some.inj hlast
      exact ⟨hfits, rfl, rfl⟩
  · exact h

/-- INTERNAL: a refresh of the time does. -/
theorem ZoneInvariant.refreshTime (h : ZoneInvariant ts) (r : SntpResult) (now : ℤ) :
    ZoneInvariant (syncStep ts (.refreshTime r now)) := by
  rw [syncStep]
  split
  · exact h.resnap _ rfl rfl rfl rfl
  · exact h

/-- INTERNAL: **one step.** -/
theorem ZoneInvariant.step (h : ZoneInvariant ts) (step : SyncStep) :
    ZoneInvariant (syncStep ts step) := by
  cases step with
  | refreshZone answer => exact h.refreshZone answer
  | markReachable => exact h.markReachable
  | checkKnown => exact h.checkKnown
  | askHost tz localtime => exact h.askHost tz localtime
  | lookUp probe => exact h.lookUp probe
  | store => exact h.store
  | refreshTime r now => exact h.refreshTime r now

/-- INTERNAL: **a run.** -/
theorem ZoneInvariant.run (h : ZoneInvariant ts) (steps : List SyncStep) :
    ZoneInvariant (syncRun ts steps) := by
  induction steps generalizing ts with
  | nil => exact h
  | cons step steps ih => exact ih (h.step step)

/-- INTERNAL: no step touches the configuration. -/
theorem syncStep_config (ts : TimeSync) (step : SyncStep) :
    (syncStep ts step).forcedTz = ts.forcedTz ∧ (syncStep ts step).tzUrls = ts.tzUrls := by
  cases step <;> rw [syncStep] <;> split <;> first | exact ⟨rfl, rfl⟩ | (split <;> exact ⟨rfl, rfl⟩)

/-- INTERNAL: no run changes the configuration. -/
theorem syncRun_config (ts : TimeSync) (steps : List SyncStep) :
    (syncRun ts steps).forcedTz = ts.forcedTz ∧ (syncRun ts steps).tzUrls = ts.tzUrls := by
  induction steps generalizing ts with
  | nil => exact ⟨rfl, rfl⟩
  | cons step steps ih =>
    obtain ⟨hforced, hurls⟩ := ih (syncStep ts step)
    obtain ⟨hforcedStep, hurlsStep⟩ := syncStep_config ts step
    exact ⟨hforced.trans hforcedStep, hurls.trans hurlsStep⟩

/-! ## Where the calls come from -/

/-- Does the name come from where its source says: the configuration, a provider's answer or the
host, at one of the steps? -/
def NamedBy (forcedTz tzUrls : CStr) (steps : List SyncStep) : ZoneSource → CStr → Prop
  | .operator, name => name = hesStrlcpy geoTzNameMax forcedTz
  | .provider, name => ∃ answer, SyncStep.refreshZone answer ∈ steps ∧
      detectZone answer (tzUrls.length + 1) tzUrls = some name
  | .host, name => ∃ tz localtime, SyncStep.askHost tz localtime ∈ steps ∧
      geoTzSystemName tz localtime geoTzNameMax = some name

/-- A call for a name that its source told, with the pair that the look-up of one of the steps
returned for that name. -/
structure CallTold (forcedTz tzUrls : CStr) (steps : List SyncStep) (call : ZoneCall) : Prop where
  named : NamedBy forcedTz tzUrls steps call.source call.name
  returned : ∃ probe, SyncStep.lookUp probe ∈ steps ∧
    geoTzOffsets probe call.name = some (call.stdMin, call.dstMin)

/-- Was the name that the thread holds told by its source? -/
def PhaseNamed (forcedTz tzUrls : CStr) (steps : List SyncStep) : ZonePhase → Prop
  | .answered name => NamedBy forcedTz tzUrls steps .provider name
  | .named source name => NamedBy forcedTz tzUrls steps source name
  | _ => True

/-- What is known of the calls and of the thread's place in a run that takes the steps. -/
structure ZoneTold (steps : List SyncStep) (ts : TimeSync) : Prop where
  calls : ∀ call ∈ ts.calls, CallTold ts.forcedTz ts.tzUrls steps call
  phase : PhaseNamed ts.forcedTz ts.tzUrls steps ts.phase

/-- INTERNAL: what a refresh has in flight is named by the answer it was given. -/
theorem beginRefresh_named (ts : TimeSync) (answer : CStr → Option Json) (steps : List SyncStep)
    (hmem : SyncStep.refreshZone answer ∈ steps) :
    PhaseNamed ts.forcedTz ts.tzUrls steps (beginRefresh ts answer) := by
  unfold beginRefresh
  split
  · rfl
  · split
    · split
      next name hdetect => exact ⟨answer, hmem, hdetect⟩
      · trivial
    · trivial

/-- INTERNAL: **one step** of those that the run takes. -/
theorem ZoneTold.step {steps : List SyncStep} (h : ZoneTold steps ts) (step : SyncStep)
    (hmem : step ∈ steps) : ZoneTold steps (syncStep ts step) := by
  have hphase := h.phase
  cases step with
  | refreshZone answer =>
    rw [syncStep]
    split
    · exact ⟨h.calls, beginRefresh_named ts answer steps hmem⟩
    · exact h
  | markReachable =>
    rw [syncStep]
    split
    next name hanswered =>
      rw [hanswered] at hphase
      exact ⟨h.calls, hphase⟩
    · exact h
  | checkKnown =>
    rw [syncStep]
    split
    · split
      · exact ⟨h.calls, trivial⟩
      · exact ⟨h.calls, trivial⟩
    · exact h
  | askHost tz localtime =>
    rw [syncStep]
    split
    · split
      next name hname => exact ⟨h.calls, tz, localtime, hmem, hname⟩
      · exact ⟨h.calls, trivial⟩
    · exact h
  | lookUp probe =>
    rw [syncStep]
    split
    next source name hnamed =>
      rw [hnamed] at hphase
      split
      next stdMin dstMin hoffsets =>
        refine ⟨fun call hcall => ?_, trivial⟩
        rcases List.mem_append.mp hcall with hold | hnew
        · exact h.calls call hold
        · obtain rfl := List.mem_singleton.mp hnew
          exact ⟨hphase, probe, hmem, hoffsets⟩
      · exact ⟨h.calls, trivial⟩
    · exact h
  | store =>
    rw [syncStep]
    split
    · exact ⟨h.calls, trivial⟩
    · exact h
  | refreshTime r now =>
    rw [syncStep]
    split
    next hidle =>
      rw [hidle] at hphase
      exact ⟨h.calls, by dsimp only; rw [hidle]; exact hphase⟩
    · exact h

/-- INTERNAL: **a run.** -/
theorem ZoneTold.run {steps : List SyncStep} (h : ZoneTold steps ts) (taken : List SyncStep)
    (hsub : taken ⊆ steps) : ZoneTold steps (syncRun ts taken) := by
  induction taken generalizing ts with
  | nil => exact h
  | cons step taken ih =>
    exact ih (h.step step (hsub List.mem_cons_self)) fun other hother =>
      hsub (List.mem_cons_of_mem _ hother)

/-- INTERNAL: nothing was told at the start. -/
theorem zoneTold_start (cfg : TimeSyncConfig) (steps : List SyncStep) :
    ZoneTold steps (timeSyncStart cfg) :=
  ⟨fun _ hcall => absurd hcall List.not_mem_nil, trivial⟩

/-! ## Every snapshot -/

/-- The operator's zone as the sync thread holds it. -/
def operatorZone (cfg : TimeSyncConfig) : CStr := hesStrlcpy geoTzNameMax (cfg.tzName.getD [])

/-- The zone of a snapshot that is read after the steps: one call returned it for its name; it is
the operator's where one is configured, and else that of the last call adopted, which a provider
named, or the host where no zone was known before. All calls are adopted, up to the one whose
update is still to come, each was for a name that its source told, and only a provider's follows a
known zone. -/
structure ZonePrecedence (cfg : TimeSyncConfig) (steps : List SyncStep) (ts : TimeSync)
    (snap : TimeSnapshot) : Prop where
  coherent : ∃ probe, SyncStep.lookUp probe ∈ steps ∧
    geoTzOffsets probe snap.tzName = some (snap.stdOffsetMin, snap.dstOffsetMin)
  operator : operatorZone cfg ≠ [] → snap.tzName = operatorZone cfg
  recent : operatorZone cfg = [] → ∃ before call, ts.adopted = before ++ [call] ∧
    IsZone call snap ∧ (call.source = .provider ∨ call.source = .host ∧ before = [])
  adopted : ts.calls = ts.adopted ++ inFlight ts.phase
  told : ∀ call ∈ ts.calls, CallTold (operatorZone cfg) (timeSyncStart cfg).tzUrls steps call
  kept : operatorZone cfg = [] → ∀ call ∈ ts.adopted.tail, call.source = .provider

/-- **Precedence and coherence of the zone**, for every configuration, whatever the steps of the
sync thread meet, and wherever between them the snapshot is read.
SRCLINE: time_sync.c:164-223 -/
theorem zone_precedence (cfg : TimeSyncConfig) (steps : List SyncStep)
    (hvalid : (timeSyncGet (some (syncRun (timeSyncStart cfg) steps))).tzValid ≠ 0) :
    ZonePrecedence cfg steps (syncRun (timeSyncStart cfg) steps)
      (timeSyncGet (some (syncRun (timeSyncStart cfg) steps))) := by
  have hinv := (zoneInvariant_start cfg).run steps
  have htold := ((zoneTold_start cfg steps).run steps (List.Subset.refl steps)).calls
  obtain ⟨hforced, hurls⟩ := syncRun_config (timeSyncStart cfg) steps
  rw [hforced, hurls] at htold
  replace hforced : (syncRun (timeSyncStart cfg) steps).forcedTz = operatorZone cfg := hforced
  change ∀ call ∈ _, CallTold (operatorZone cfg) _ _ call at htold
  clear hurls
  generalize syncRun (timeSyncStart cfg) steps = ts at hvalid hinv hforced htold
  obtain ⟨before, call, hadopted⟩ := List.eq_nil_or_concat ts.adopted |>.resolve_left
    (hinv.adopted_iff.mp hvalid)
  rw [List.concat_eq_append] at hadopted
  have hlast : call ∈ ts.adopted.getLast? := by
    rw [hadopted, List.getLast?_concat]
    rfl
  have hzone := hinv.last call hlast
  have hmay := hinv.ordered before call [] hadopted
  rw [hforced] at hmay
  constructor
  · have hmem : call ∈ ts.calls := by
      rw [hinv.calls, hadopted]
      simp
    obtain ⟨hname, hstd, hdst⟩ := hzone
    obtain ⟨probe, hstep, hoffsets⟩ := (htold call hmem).returned
    refine ⟨probe, hstep, ?_⟩
    change geoTzOffsets probe ts.snap.tzName = some (ts.snap.stdOffsetMin, ts.snap.dstOffsetMin)
    rw [hname, hstd, hdst]
    exact hoffsets
  · intro hset
    exact hzone.1.trans ((mayFollow_forced hset _ _).mp hmay).2
  · intro hempty
    exact ⟨before, call, hadopted, hzone, (mayFollow_free hempty _ _).mp hmay⟩
  · exact hinv.calls
  · exact htold
  · intro hempty other hother
    obtain ⟨front, back, hsplit⟩ := List.append_of_mem hother
    have hne : ts.adopted ≠ [] := hinv.adopted_iff.mp hvalid
    have hmayOther := hinv.ordered (ts.adopted.head hne :: front) other back (by
      rw [List.cons_append, ← hsplit, List.cons_head_tail])
    rw [hforced, mayFollow_free hempty] at hmayOther
    exact hmayOther.resolve_right fun hhost => List.cons_ne_nil _ _ hhost.2

/-- The database on a zone eight hours east of UTC. -/
def eastProbe : TzProbe := ⟨true, some ⟨28800, 0⟩, some ⟨28800, 0⟩⟩

/-- A provider answers, and is silent at the next refresh. -/
def silentProvider : List SyncStep :=
  [.refreshZone fun _ => some (.object [(lit "timezone", .string (lit "Asia/Taipei"))]),
    .markReachable, .lookUp eastProbe, .store, .refreshZone fun _ => none, .checkKnown]

/-- A provider that is silent, and a host with a zone. -/
theorem zone_precedence_silent :
    ZonePrecedence { tzUrls := some (lit "u"), tzEnabled := true } silentProvider
      (syncRun (timeSyncStart { tzUrls := some (lit "u"), tzEnabled := true }) silentProvider)
      (timeSyncGet (some (syncRun (timeSyncStart { tzUrls := some (lit "u"), tzEnabled := true })
        silentProvider))) :=
  zone_precedence { tzUrls := some (lit "u"), tzEnabled := true } silentProvider (by decide +kernel)

/-- A configured zone that is longer than its array. -/
theorem long_zone_is_cut :
    ¬∀ (cfg : TimeSyncConfig) (zone : CStr) (steps : List SyncStep),
      cfg.tzName = some zone → zone ≠ [] →
        (timeSyncGet (some (syncRun (timeSyncStart cfg) steps))).tzValid ≠ 0 →
          (timeSyncGet (some (syncRun (timeSyncStart cfg) steps))).tzName = zone := by
  intro h
  have hzone := h { tzName := some (List.replicate 64 65) } (List.replicate 64 65)
    [.refreshZone fun _ => none, .lookUp eastProbe, .store] rfl (by decide) (by decide +kernel)
  exact absurd hzone (by decide +kernel)

end OpenHes.Analysis
