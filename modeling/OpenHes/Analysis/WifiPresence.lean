import OpenHes.Analysis.BlePresence
import OpenHes.Analysis.WifiAttribution
import Mathlib.Data.List.Sigma

/-!
# Presence in the WiFi module and in the service

The WiFi module asks its lamps again and again, where the BLE module waits for events. A poll sets
every flag of a lamp anew, so it puts right what stale notifications have made of the flags; the
service follows as soon as the poll reports, or if nothing was on its way when it began.
-/

set_option autoImplicit false

namespace OpenHes.Analysis

open OpenHes.Library OpenHes.Library.Json OpenHes.Model

/-! ## Reports -/

/-- What became of the reports of a trace. -/
def reportsOf (evs : List WifiEvent) : List Exchange :=
  evs.filterMap fun e =>
    match e with
    | .report _ t => some t
    | _ => none

/-- The last report of the trace, if there is one, has reached the service. -/
def LastReached (evs : List WifiEvent) : Prop :=
  ∀ t, (reportsOf evs).getLast? = some t → t ≠ .unsent

/-- INTERNAL: the reports of two histories are those of each. -/
theorem reportsOf_append (first second : List WifiEvent) :
    reportsOf (first ++ second) = reportsOf first ++ reportsOf second := List.filterMap_append

/-- INTERNAL: requests are no reports. -/
theorem reportsOf_callsOf (w : WifiDev) (calls : List (WizRequest × Option CStr)) :
    reportsOf (requestsOf w calls) = [] := by
  induction calls with
  | nil => rfl
  | cons c rest ih => exact ih

/-- INTERNAL: what reports nothing leaves the last report. -/
theorem lastReached_silent (first second : List WifiEvent) (h : reportsOf second = []) :
    LastReached (first ++ second) ↔ LastReached first := by
  unfold LastReached
  rw [reportsOf_append, h, List.append_nil]

/-- INTERNAL: what reports something has the last one. -/
theorem lastReached_told (first second : List WifiEvent) (h : reportsOf second ≠ []) :
    LastReached (first ++ second) ↔ LastReached second := by
  unfold LastReached
  rw [reportsOf_append, List.getLast?_append_of_ne_nil _ h]

/-! ## Places -/

/-- INTERNAL: the flag of the device at a place is the one of its index. -/
theorem setOnlineAt_eq (dis : List ℕ) (hdis : DeviceSet dis) (reg : HesDevreg)
    (hreg : Fronts dis reg) (i : ℕ) (dev : HesDevice) (hdev : reg.devices[i]? = some dev)
    (online : Bool) : setOnlineAt reg i online = setOnline reg dev.deviceIndex online := by
  have hnodup : (reg.devices.map HesDevice.deviceIndex).Nodup := hreg.indexes ▸ hdis.distinct
  obtain ⟨hi, rfl⟩ := List.getElem?_eq_some_iff.mp hdev
  have hplace : reg.devices.findIdx (fun d => d.deviceIndex = reg.devices[i].deviceIndex) = i := by
    refine (List.findIdx_eq hi).mpr ⟨decide_eq_true rfl, fun j hj => ?_⟩
    apply decide_eq_false
    intro heq
    have hj' : j < (reg.devices.map HesDevice.deviceIndex).length := by
      rw [List.length_map]
      exact hj.trans hi
    have hsame : (reg.devices.map HesDevice.deviceIndex)[j]? =
        (reg.devices.map HesDevice.deviceIndex)[i]? := by
      rw [List.getElem?_map, List.getElem?_map, List.getElem?_eq_getElem hi,
        List.getElem?_eq_getElem (hj.trans hi), Option.map_some, Option.map_some, heq]
    exact absurd (List.getElem?_inj hj' hnodup |>.mp hsame) (Nat.ne_of_lt hj)
  unfold setOnlineAt setOnline updateFirst
  rw [hplace]

/-- INTERNAL: the device at the place of an index has that index. -/
theorem Fronts.place (dis : List ℕ) (reg : HesDevreg) (h : Fronts dis reg) (i di : ℕ)
    (hplace : dis[i]? = some di) : ∃ dev, reg.devices[i]? = some dev ∧ dev.deviceIndex = di := by
  rw [← h.indexes, List.getElem?_map, Option.map_eq_some_iff] at hplace
  exact hplace

/-! ## The poll of a device -/

section polls

variable (lamp : ℕ → Option CStr)

/-- INTERNAL: **the objects of a device**: the EVENTs name the device, and it was reached if there
is one. -/
theorem pollObjects_trace (w : WifiDev) (dev : HesDevice) (objs : List HesDevObject)
    (acc acc' : WifiState × Bool)
    (hpoll : objs.foldlM (pollObject lamp w dev) acc = some acc') :
    ∃ evs, acc'.1 = { acc.1 with trace := acc.1.trace ++ evs } ∧ reportsOf evs = [] ∧
      (∀ m, .send m ∈ evs → m.deviceIndex = dev.deviceIndex) ∧
      (acc'.2 = true ↔ acc.2 = true ∨ ∃ m, .send m ∈ evs) := by
  induction objs generalizing acc with
  | nil =>
    cases hpoll
    exact ⟨[], by rw [List.append_nil], rfl, by simp, by simp⟩
  | cons obj rest ih =>
    rw [List.foldlM_cons] at hpoll
    obtain ⟨mid, hmid, hpoll⟩ := Option.bind_eq_some_iff.mp hpoll
    have hone : ∃ evs, mid.1 = { acc.1 with trace := acc.1.trace ++ evs } ∧ reportsOf evs = [] ∧
        (∀ m, .send m ∈ evs → m.deviceIndex = dev.deviceIndex) ∧
        (mid.2 = true ↔ acc.2 = true ∨ ∃ m, .send m ∈ evs) := by
      unfold pollObject at hmid
      split at hmid
      · obtain ⟨⟨u, val⟩, hcall, rfl⟩ := Option.map_eq_some_iff.mp hmid
        rcases wifiReadObject_some lamp w obj acc.1 u val hcall with ⟨rfl, rfl⟩ | ⟨reply, rfl, -⟩
        · exact ⟨[], by rw [List.append_nil], rfl, by simp, by simp⟩
        · cases val with
          | none => exact ⟨[.request w .getPilot reply], rfl, rfl, by simp, by simp⟩
          | some val =>
            refine ⟨[.request w .getPilot reply, .send (pollEvent dev obj.path val)], ?_, rfl, ?_, ?_⟩
            · unfold WifiState.log
              dsimp only
              rw [List.append_assoc]
              rfl
            · intro m hm
              simp only [List.mem_cons, reduceCtorEq, WifiEvent.send.injEq, List.not_mem_nil,
                or_false, false_or] at hm
              rw [hm]
              rfl
            · simp
      · cases hmid
        exact ⟨[], by rw [List.append_nil], rfl, by simp, by simp⟩
    obtain ⟨first, hfirst, hsilent, hnamed, hreached⟩ := hone
    obtain ⟨second, hsecond, hsilent', hnamed', hreached'⟩ := ih mid hpoll
    refine ⟨first ++ second, ?_, ?_, fun m hm => ?_, ?_⟩
    · rw [hsecond, hfirst, List.append_assoc]
    · rw [reportsOf_append, hsilent, hsilent', List.append_nil]
    · rcases List.mem_append.mp hm with hm | hm
      · exact hnamed m hm
      · exact hnamed' m hm
    · rw [hreached', hreached, or_assoc]
      refine or_congr_right ⟨?_, ?_⟩
      · rintro (⟨m, hm⟩ | ⟨m, hm⟩)
        · exact ⟨m, List.mem_append_left _ hm⟩
        · exact ⟨m, List.mem_append_right _ hm⟩
      · rintro ⟨m, hm⟩
        rcases List.mem_append.mp hm with hm | hm
        · exact Or.inl ⟨m, hm⟩
        · exact Or.inr ⟨m, hm⟩

/-- Module and service are in step, and linked where the last report has reached the service. -/
structure Tracked (mi : ℕ) (dis : List ℕ) (s : WifiState) : Prop where
  inStep : InStep mi dis s.sys
  linked : LastReached s.trace → (flagsOf s.sys).Linked

/-- What the poll of some clients leaves: the EVENTs name their devices; a device of theirs is
online if there is an EVENT of it, and the others are as they were; without a report nothing has
changed, and if the last one has reached the service, that stores the flags of the module. -/
structure Polled (dis : List ℕ) (ws : List WifiDev) (s s' : WifiState) (evs : List WifiEvent) :
    Prop where
  trace : s'.trace = s.trace ++ evs
  named : ∀ m, .send m ∈ evs → ∃ w ∈ ws, dis[w.regIdx]? = some m.deviceIndex
  seen : ∀ w ∈ ws, ∀ di, dis[w.regIdx]? = some di →
    (heldOf s'.sys.reg di = true ↔ ∃ m, .send m ∈ evs ∧ m.deviceIndex = di)
  others : ∀ di, (∀ w ∈ ws, dis[w.regIdx]? ≠ some di) →
    heldOf s'.sys.reg di = heldOf s.sys.reg di
  silent : reportsOf evs = [] → s'.sys = s.sys
  told : reportsOf evs ≠ [] → LastReached evs →
    (flagsOf s'.sys).stored = heldOf s'.sys.reg

section steps

variable (exchange : ℕ → Exchange) (mi : ℕ) (hmi : mi < 2 ^ 32) (dis : List ℕ)
  (hdis : DeviceSet dis)

include hmi hdis

/-- INTERNAL: **the poll of a device** is a link event with what it has seen. -/
theorem wifiPollDev_polled (s : WifiState) (h : Tracked mi dis s) (w : WifiDev) (di : ℕ)
    (hplace : dis[w.regIdx]? = some di) (s' : WifiState)
    (hpoll : wifiPollDev lamp exchange s w = some s') :
    Tracked mi dis s' ∧ ∃ evs, Polled dis [w] s s' evs := by
  obtain ⟨dev, hdev, rfl⟩ := h.inStep.fronts.place dis s.sys.reg w.regIdx di hplace
  have hfind := h.inStep.fronts.found dis s.sys.reg hdis dev (List.mem_of_getElem? hdev)
  have hdi : dev.deviceIndex ∈ dis := List.mem_of_getElem? hplace
  unfold wifiPollDev at hpoll
  rw [hdev] at hpoll
  obtain ⟨⟨u, reached⟩, hpolled, rfl⟩ := Option.map_eq_some_iff.mp hpoll
  obtain ⟨evs, hu, hsilent, hnamed, hreached⟩ :=
    pollObjects_trace lamp w dev dev.objects (s, false) (u, reached) hpolled
  dsimp only at hu hreached ⊢
  subst hu
  have hsent : reached = true ↔ ∃ m, .send m ∈ evs := by simpa using hreached
  have hown : ∀ m, .send m ∈ evs → ∃ w' ∈ [w], dis[w'.regIdx]? = some m.deviceIndex :=
    fun m hm => ⟨w, List.mem_singleton_self w, by rw [hplace, hnamed m hm]⟩
  have hseen : ∀ (evs' : List WifiEvent) (sys : BleSystem),
      (∀ m, .send m ∈ evs' ↔ .send m ∈ evs) → heldOf sys.reg dev.deviceIndex = reached →
      ∀ w' ∈ [w], ∀ di, dis[w'.regIdx]? = some di →
        (heldOf sys.reg di = true ↔ ∃ m, .send m ∈ evs' ∧ m.deviceIndex = di) := by
    intro evs' sys hevs hheld w' hw' di hdi'
    rw [List.mem_singleton.mp hw', hplace, Option.some.injEq] at hdi'
    rw [← hdi', hheld, hsent]
    constructor
    · rintro ⟨m, hm⟩
      exact ⟨m, (hevs m).mpr hm, hnamed m hm⟩
    · rintro ⟨m, hm, -⟩
      exact ⟨m, (hevs m).mp hm⟩
  by_cases hsame : reached = dev.online
  · rw [if_pos hsame]
    refine ⟨⟨h.inStep, fun hlast => h.linked ((lastReached_silent _ _ hsilent).mp hlast)⟩, evs,
      rfl, hown, ?_, fun di _ => rfl, fun _ => rfl, fun hne => absurd hsilent hne⟩
    apply hseen evs s.sys (fun m => Iff.rfl)
    rw [hsame]
    exact heldOf_found s.sys.reg _ dev hfind
  · rw [if_neg hsame]
    let t := exchange (s.trace ++ evs).length
    -- The presence that is noted is a link event of the system of both registries.
    have hsys : (notePresence exchange w reached { s with trace := s.trace ++ evs }).sys =
        s.sys.takeLinkEvent ⟨dev.deviceIndex, reached⟩ t := by
      rw [takeLinkEvent_found s.sys ⟨dev.deviceIndex, reached⟩ t dev hfind,
        if_neg (Ne.symm hsame)]
      show BleSystem.report { s.sys with reg := setOnlineAt s.sys.reg w.regIdx reached } t = _
      rw [setOnlineAt_eq dis hdis s.sys.reg h.inStep.fronts w.regIdx dev hdev]
    obtain ⟨hin, hflags⟩ :=
      link_flags mi hmi dis hdis s.sys h.inStep ⟨dev.deviceIndex, reached⟩ t hdi
    rw [← hsys] at hin hflags
    have hheld := congrArg EchoedFlags.held hflags
    rw [EchoedFlags.step_event_held] at hheld
    have hchange : (flagsOf s.sys).held dev.deviceIndex ≠ reached := by
      rw [show (flagsOf s.sys).held dev.deviceIndex = dev.online from
        heldOf_found s.sys.reg _ dev hfind]
      exact Ne.symm hsame
    have hreports : reportsOf (evs ++ [.report (setOnlineAt s.sys.reg w.regIdx reached) t]) =
        [t] := by
      rw [reportsOf_append, hsilent]
      rfl
    have htrace : (notePresence exchange w reached { s with trace := s.trace ++ evs }).trace =
        s.trace ++ (evs ++ [.report (setOnlineAt s.sys.reg w.regIdx reached) t]) :=
      List.append_assoc _ _ _
    have hlast : LastReached (evs ++ [.report (setOnlineAt s.sys.reg w.regIdx reached) t]) →
        (flagsOf s.sys).step (.event dev.deviceIndex reached (decide (t ≠ .unsent))) =
          (flagsOf s.sys).step (.event dev.deviceIndex reached true) := by
      intro hlast
      rw [decide_eq_true (hlast t (by rw [hreports]; rfl))]
    refine ⟨⟨hin, fun hall => ?_⟩, _, htrace, fun m hm => ?_, ?_, fun di hother => ?_, ?_, ?_⟩
    · rw [htrace, lastReached_told _ _ (by rw [hreports]; exact List.cons_ne_nil _ _)] at hall
      rw [hflags, hlast hall]
      exact (EchoedFlags.reported_linked _ _ _ hchange).1
    · exact hown m (by simpa using hm)
    · apply hseen _ _ (fun m => by simp)
      exact (congrFun hheld dev.deviceIndex).trans (Function.update_self _ _ _)
    · refine (congrFun hheld di).trans (Function.update_of_ne ?_ _ _)
      rintro rfl
      exact hother w (List.mem_singleton_self w) hplace
    · intro hnil
      rw [hreports] at hnil
      cases hnil
    · intro _ hall
      have hstored := (EchoedFlags.reported_linked _ _ _ hchange).2
      rw [← hlast hall, ← hflags] at hstored
      exact hstored

omit hmi in
/-- INTERNAL: **polls one after the other**, of clients with devices of their own. -/
theorem Polled.append (w : WifiDev) (rest : List WifiDev) (s t s' : WifiState)
    (first second : List WifiEvent) (hfirst : Polled dis [w] s t first)
    (hsecond : Polled dis rest t s' second) (hplace : ∃ di, dis[w.regIdx]? = some di)
    (hown : w.regIdx ∉ rest.map WifiDev.regIdx) :
    Polled dis (w :: rest) s s' (first ++ second) := by
  have hapart : ∀ w' ∈ rest, ∀ di, dis[w.regIdx]? = some di → dis[w'.regIdx]? ≠ some di := by
    intro w' hw' di hdi hdi'
    apply hown
    obtain ⟨hlt, hget⟩ := List.getElem?_eq_some_iff.mp hdi
    obtain ⟨hlt', hget'⟩ := List.getElem?_eq_some_iff.mp hdi'
    rw [(List.Nodup.getElem_inj_iff hdis.distinct).mp (hget.trans hget'.symm)]
    exact List.mem_map_of_mem hw'
  have hsends : ∀ w' ∈ rest, ∀ m, .send m ∈ first → dis[w'.regIdx]? ≠ some m.deviceIndex := by
    intro w' hw' m hm
    obtain ⟨w₀, hw₀, hdi⟩ := hfirst.named m hm
    rw [List.mem_singleton.mp hw₀] at hdi
    exact hapart w' hw' _ hdi
  refine ⟨?_, fun m hm => ?_, fun w' hw' di hdi => ?_, fun di hother => ?_, fun hnil => ?_,
    fun hne hall => ?_⟩
  · rw [hsecond.trace, hfirst.trace, List.append_assoc]
  · rcases List.mem_append.mp hm with hm | hm
    · obtain ⟨w₀, hw₀, hdi⟩ := hfirst.named m hm
      exact ⟨w₀, List.mem_cons.mpr (Or.inl (List.mem_singleton.mp hw₀)), hdi⟩
    · obtain ⟨w₀, hw₀, hdi⟩ := hsecond.named m hm
      exact ⟨w₀, List.mem_cons_of_mem _ hw₀, hdi⟩
  · rcases List.mem_cons.mp hw' with rfl | hw'
    · rw [hsecond.others di fun w₀ hw₀ => hapart w₀ hw₀ di hdi,
        hfirst.seen w' (List.mem_singleton_self _) di hdi]
      constructor
      · rintro ⟨m, hm, hsame⟩
        exact ⟨m, List.mem_append_left _ hm, hsame⟩
      · rintro ⟨m, hm, rfl⟩
        rcases List.mem_append.mp hm with hm | hm
        · exact ⟨m, hm, rfl⟩
        · obtain ⟨w₀, hw₀, hdi₀⟩ := hsecond.named m hm
          exact absurd hdi₀ (hapart w₀ hw₀ _ hdi)
    · rw [hsecond.seen w' hw' di hdi]
      constructor
      · rintro ⟨m, hm, hsame⟩
        exact ⟨m, List.mem_append_right _ hm, hsame⟩
      · rintro ⟨m, hm, rfl⟩
        rcases List.mem_append.mp hm with hm | hm
        · exact absurd hdi (hsends w' hw' m hm)
        · exact ⟨m, hm, rfl⟩
  · rw [hsecond.others di fun w₀ hw₀ => hother w₀ (List.mem_cons_of_mem _ hw₀),
      hfirst.others di fun w₀ hw₀ => ?_]
    exact hother w₀ (List.mem_cons.mpr (Or.inl (List.mem_singleton.mp hw₀)))
  · rw [reportsOf_append, List.append_eq_nil_iff] at hnil
    rw [hsecond.silent hnil.2, hfirst.silent hnil.1]
  · by_cases hquiet : reportsOf second = []
    · rw [reportsOf_append, hquiet, List.append_nil] at hne
      rw [hsecond.silent hquiet]
      exact hfirst.told hne ((lastReached_silent _ _ hquiet).mp hall)
    · exact hsecond.told hquiet ((lastReached_told _ _ hquiet).mp hall)

/-- INTERNAL: **the poll** of the clients. -/
theorem wifiPollDevs_polled (ws : List WifiDev) (s : WifiState) (h : Tracked mi dis s)
    (hplaces : ∀ w ∈ ws, ∃ di, dis[w.regIdx]? = some di)
    (hnodup : (ws.map WifiDev.regIdx).Nodup) (s' : WifiState)
    (hpoll : ws.foldlM (wifiPollDev lamp exchange) s = some s') :
    Tracked mi dis s' ∧ ∃ evs, Polled dis ws s s' evs := by
  induction ws generalizing s with
  | nil =>
    cases hpoll
    exact ⟨h, [], ⟨(List.append_nil _).symm, by simp, by simp, fun _ _ => rfl, fun _ => rfl,
      fun hne => absurd rfl hne⟩⟩
  | cons w rest ih =>
    rw [List.foldlM_cons] at hpoll
    obtain ⟨t, ht, hpoll⟩ := Option.bind_eq_some_iff.mp hpoll
    obtain ⟨hown, hnodup⟩ := List.nodup_cons.mp hnodup
    obtain ⟨di, hplace⟩ := hplaces w List.mem_cons_self
    obtain ⟨htracked, first, hfirst⟩ :=
      wifiPollDev_polled lamp exchange mi hmi dis hdis s h w di hplace t ht
    obtain ⟨htracked', second, hsecond⟩ :=
      ih t htracked (fun w' hw' => hplaces w' (List.mem_cons_of_mem _ hw')) hnodup hpoll
    exact ⟨htracked', first ++ second,
      Polled.append dis hdis w rest s t s' first second hfirst hsecond ⟨di, hplace⟩ hown⟩

end steps

/-! ## Passes -/

/-- INTERNAL: a message from the bus touches neither registry. -/
theorem wifiTakeFrame_silent (m : HesClmeMsg) (s s' : WifiState)
    (htake : wifiTakeFrame lamp m s = some s') :
    s'.sys = s.sys ∧ ∃ evs, s'.trace = s.trace ++ evs ∧ reportsOf evs = [] := by
  unfold wifiTakeFrame at htake
  dsimp only at htake
  split at htake
  · cases htake
    unfold wifiPut
    split
    next w obj _ =>
      split
      · obtain ⟨calls, hwrite, -⟩ :=
          wifiWriteObject_trace lamp w obj m.payload (s.log (.frame m s.sys.reg))
        rw [hwrite]
        refine ⟨rfl, .frame m s.sys.reg :: requestsOf w calls, List.append_assoc _ _ _, ?_⟩
        exact reportsOf_callsOf w calls
      · exact ⟨rfl, [_], rfl, rfl⟩
    · exact ⟨rfl, [_], rfl, rfl⟩
  · unfold wifiGet at htake
    split at htake
    next dev w obj _ =>
      split at htake
      · obtain ⟨⟨u, val⟩, hcall, rfl⟩ := Option.map_eq_some_iff.mp htake
        rcases wifiReadObject_some lamp w obj _ u val hcall with ⟨rfl, rfl⟩ | ⟨reply, rfl, -⟩
        · exact ⟨rfl, [_], rfl, rfl⟩
        · cases val with
          | none => exact ⟨rfl, [.frame m s.sys.reg, .request w .getPilot reply],
              List.append_assoc _ _ _, rfl⟩
          | some val =>
            refine ⟨rfl, [.frame m s.sys.reg, .request w .getPilot reply,
              .send (getAnswer dev m.path val)], ?_, rfl⟩
            show s.trace ++ [_] ++ [_] ++ [_] = _
            rw [List.append_assoc, List.append_assoc]
            rfl
      · cases htake
        exact ⟨rfl, [_], rfl, rfl⟩
    · cases htake
      exact ⟨rfl, [_], rfl, rfl⟩
  · cases htake
    exact ⟨rfl, [_], rfl, rfl⟩

/-- INTERNAL: **a pass up to its poll**. -/
theorem wifiListen_tracked (mi : ℕ) (dis : List ℕ) (s : WifiState) (h : Tracked mi dis s)
    (turn : WifiTurn) (u : WifiState) (hlisten : wifiListen lamp turn s = some u) :
    Tracked mi dis u := by
  obtain ⟨t, ht, rfl⟩ := Option.map_eq_some_iff.mp hlisten
  have htaken : Tracked mi dis t := by
    cases hf : turn.frame with
    | none =>
      rw [hf] at ht
      cases ht
      exact h
    | some m =>
      rw [hf] at ht
      obtain ⟨hsys, evs, htrace, hsilent⟩ := wifiTakeFrame_silent lamp m s t ht
      refine ⟨hsys ▸ h.inStep, fun hlast => ?_⟩
      rw [htrace, lastReached_silent _ _ hsilent] at hlast
      rw [hsys]
      exact h.linked hlast
  split
  · obtain ⟨hin, hflags⟩ := notification_flags mi dis t.sys htaken.inStep
    refine ⟨hin, fun hlast => ?_⟩
    dsimp only
    rw [hflags]
    exact EchoedFlags.Linked.merge _ (htaken.linked hlast)
  · exact htaken

/-- The clients of a start are at places of devices, each at its own. -/
structure Placed (dis : List ℕ) (start : WifiState) : Prop where
  places : ∀ w ∈ start.devs, ∃ di, dis[w.regIdx]? = some di
  apart : (start.devs.map WifiDev.regIdx).Nodup

variable (exchange : ℕ → Exchange)

/-- INTERNAL: **a pass** that polls, from where it has listened. -/
theorem wifiTurn_polled (mi : ℕ) (hmi : mi < 2 ^ 32) (dis : List ℕ) (hdis : DeviceSet dis)
    (start s : WifiState) (hplaced : Placed dis start) (hfollows : Follows start s)
    (h : Tracked mi dis s) (turn : WifiTurn) (s' : WifiState)
    (hturn : wifiTurn lamp exchange s turn = some s') :
    Tracked mi dis s' ∧ ∀ u, wifiListen lamp turn s = some u → u.pollDue turn.now = true →
      ∃ evs, Polled dis start.devs u s' evs := by
  obtain ⟨u, hlisten, hpolled⟩ := Option.bind_eq_some_iff.mp hturn
  have hu := wifiListen_tracked lamp mi dis s h turn u hlisten
  have hdevs : u.devs = start.devs := by
    obtain ⟨t, ht, rfl⟩ := Option.map_eq_some_iff.mp hlisten
    have hstep : t.devs = s.devs := by
      cases hf : turn.frame with
      | none =>
        rw [hf] at ht
        cases ht
        rfl
      | some m =>
        rw [hf] at ht
        exact (wifiTakeFrame_attributed lamp start s hfollows m t ht).devs
    split
    · exact hstep.trans hfollows.devs
    · exact hstep.trans hfollows.devs
  by_cases hdue : u.pollDue turn.now = true
  · rw [if_pos hdue] at hpolled
    obtain ⟨htracked, evs, hevs⟩ := wifiPollDevs_polled lamp exchange mi hmi dis hdis u.devs
      { u with lastPoll := turn.now } ⟨hu.inStep, hu.linked⟩ (hdevs ▸ hplaced.places)
      (hdevs ▸ hplaced.apart) s' hpolled
    rw [hdevs] at hevs
    refine ⟨htracked, fun u' hu' _ => ⟨evs, ?_⟩⟩
    rw [hlisten, Option.some.injEq] at hu'
    subst hu'
    exact ⟨hevs.trace, hevs.named, hevs.seen, hevs.others, hevs.silent, hevs.told⟩
  · rw [if_neg hdue] at hpolled
    cases hpolled
    refine ⟨hu, fun u' hu' hdue' => ?_⟩
    rw [hlisten, Option.some.injEq] at hu'
    exact absurd (hu' ▸ hdue') hdue

/-- INTERNAL: **a run** keeps module and service in step. -/
theorem wifiLoop_tracked (mi : ℕ) (hmi : mi < 2 ^ 32) (dis : List ℕ) (hdis : DeviceSet dis)
    (start : WifiState) (hplaced : Placed dis start) (turns : List WifiTurn) (s : WifiState)
    (hfollows : Follows start s) (h : Tracked mi dis s) (s' : WifiState)
    (hrun : wifiLoop lamp exchange s turns = some s') :
    Follows start s' ∧ Tracked mi dis s' := by
  induction turns generalizing s with
  | nil =>
    cases hrun
    exact ⟨hfollows, h⟩
  | cons turn rest ih =>
    unfold wifiLoop at hrun
    rw [List.foldlM_cons] at hrun
    obtain ⟨t, ht, hrun⟩ := Option.bind_eq_some_iff.mp hrun
    have hstep := wifiTurn_attributed lamp exchange start s hfollows turn t ht
    exact ih t (Follows.step start s t hstep hfollows)
      (wifiTurn_polled lamp exchange mi hmi dis hdis start s hplaced hfollows h turn t ht).1 hrun

end polls

/-! ## The start -/

/-- The start that the flags come through: no text that is printed needs escapes, and the device
indexes are different and within the C type of the module. -/
structure WifiCarried (mod : MsModule) (bulbIp : CStr) : Prop where
  plain : SlicePlain mod
  distinct : (mod.devs.map MsDevprofile.deviceIndex).Nodup
  range : ∀ dev ∈ mod.devs, 0 ≤ dev.deviceIndex ∧ dev.deviceIndex < 2 ^ 32
  bulb : Plain (boundedCopy 64 bulbIp)

/-- INTERNAL: a device with a light may be reported. -/
theorem bootBulb_entry (bulbIp : CStr) (hbulb : Plain (boundedCopy 64 bulbIp)) (d : HesDevice)
    (hd : EntryFits d) : EntryFits (bootBulb bulbIp d) := by
  unfold bootBulb
  split
  · refine ⟨hd.deviceIndex, ?_, ?_, ?_⟩
    · show (if _ then _ else _ : CStr).length < 64
      split
      · exact boundedCopy_length 64 _ (by decide)
      · exact hd.address
    · show FitsInt32 (if _ then _ else _)
      split
      · decide
      · exact hd.udpPort
    · show Plain (if _ then _ else _)
      split
      · exact hbulb
      · exact hd.plain
  · exact hd

/-- INTERNAL: with the address of the bulb the module has the same devices. -/
theorem bootBulb_fronts (dis : List ℕ) (reg : HesDevreg) (h : Fronts dis reg) (bulbIp : CStr)
    (hbulb : Plain (boundedCopy 64 bulbIp)) :
    Fronts dis { reg with devices := reg.devices.map (bootBulb bulbIp) } := by
  have hsame : ∀ d : HesDevice, (bootBulb bulbIp d).deviceIndex = d.deviceIndex ∧
      (bootBulb bulbIp d).netRefIndex = d.netRefIndex := by
    intro d
    unfold bootBulb
    split <;> exact ⟨rfl, rfl⟩
  refine ⟨?_, fun d hd => ?_, fun d hd => ?_⟩
  · rw [← h.indexes]
    dsimp only
    rw [List.map_map]
    exact List.map_congr_left fun d _ => (hsame d).1
  · obtain ⟨d', hd', rfl⟩ := List.mem_map.mp hd
    exact bootBulb_entry bulbIp hbulb d' (h.entries d' hd')
  · obtain ⟨d', hd', rfl⟩ := List.mem_map.mp hd
    rw [(hsame d').2]
    exact h.netRefIndex d' hd'

/-- INTERNAL: no two clients are opened for one device. -/
theorem openClients_apart (opened : ℕ → Bool) (reg : HesDevreg) :
    ((openClients opened reg).map WifiDev.regIdx).Nodup := by
  have hplace : ∀ (p : HesDevice × ℕ) w, openClient opened p.2 p.1 = some w → w.regIdx = p.2 := by
    intro p w hw
    unfold openClient at hw
    split at hw
    · cases hw
      rfl
    · cases hw
  unfold openClients List.Nodup
  rw [List.pairwise_map, List.pairwise_filterMap]
  have hsnd := List.nodup_zipIdx_map_snd reg.devices
  unfold List.Nodup at hsnd
  rw [List.pairwise_map] at hsnd
  refine hsnd.imp fun hne w hw w' hw' => ?_
  rw [hplace _ w hw, hplace _ w' hw']
  exact hne

/-- INTERNAL: **a module that starts** is in step with the service and linked. -/
theorem hanWifiBoot_tracked (pf : MsProfile) (mi : ℕ) (hmi : mi < 2 ^ 32) (mod : MsModule)
    (hfind : findModule pf (hesMregOpen hesMtInterface mi).moduleType mi = some mod)
    (hfits : ModuleFits mod)
    (hbound : ∀ dev ∈ mod.devs, dev.online = true → dev.runtimeBound = true) (bulbIp : CStr)
    (h : WifiCarried mod bulbIp) (t : Exchange) (opened : ℕ → Bool) (start : WifiState)
    (hboot : hanWifiBoot pf mi bulbIp t opened = some start) :
    ∃ dis, DeviceSet dis ∧ Placed dis start ∧ Tracked mi dis start := by
  have hquery := query_slice pf mi hmi mod hfind hfits h.plain
  unfold hanWifiBoot at hboot
  dsimp only at hboot
  rw [hquery, Option.bind_eq_some_iff] at hboot
  obtain ⟨reg, hreg, hboot⟩ := hboot
  split at hboot
  · cases hboot
  next hnonempty =>
    obtain ⟨dis, hdis, hindexes⟩ := boot_indexes mod hfits none .answered
      ⟨h.plain, h.distinct, h.range, by simp, by simp⟩ reg hreg hnonempty
    have hserves : Serves dis mod := ⟨hfits, h.plain, hindexes, hbound⟩
    obtain ⟨reg', hreg', hfronts, -, -⟩ := slice_fronts dis hdis mod hserves
    obtain rfl := Option.some.inj (hreg.symm.trans hreg')
    have hbefore : InStep mi dis ⟨pf, hesMregOpen hesMtInterface mi,
        { reg with devices := reg.devices.map (bootBulb bulbIp) }, []⟩ :=
      ⟨rfl, ⟨mod, hfind, hserves⟩, bootBulb_fronts dis reg hfronts bulbIp h.bulb,
        fun _ hmsg => by cases hmsg⟩
    generalize hsys : BleSystem.report ⟨pf, hesMregOpen hesMtInterface mi,
      { reg with devices := reg.devices.map (bootBulb bulbIp) }, []⟩ t = sys at hboot
    have hreported : InStep mi dis sys ∧ ∀ echo, (flagsOf sys).echoes.getLast? = some echo →
        echo = (flagsOf sys).stored := by
      by_cases ht : t = .unsent
      · subst ht
        rw [← hsys]
        exact ⟨hbefore, fun echo hecho => by cases hecho⟩
      · obtain ⟨hin, hflags⟩ := report_flags mi hmi dis hdis _ hbefore t ht
        rw [hsys] at hin hflags
        refine ⟨hin, fun echo hecho => ?_⟩
        rw [hflags] at hecho ⊢
        dsimp only at hecho
        rw [List.getLast?_concat, Option.some.injEq] at hecho
        exact hecho.symm
    obtain ⟨hin, hechoed⟩ := hreported
    obtain ⟨reg2, hreg2, hin2, hflags2⟩ := adopt_flags mi hmi dis hdis sys hin
    rw [hreg2, Option.bind_some] at hboot
    split at hboot
    · cases hboot
    · cases hboot
      refine ⟨dis, hdis, ⟨fun w hw => ?_, openClients_apart opened reg2⟩, hin2, fun _ => ?_⟩
      · obtain ⟨d, hd, -⟩ := openClients_opened opened reg2 w hw
        refine ⟨d.deviceIndex, ?_⟩
        rw [← hin2.fronts.indexes, List.getElem?_map, hd, Option.map_some]
      · dsimp only
        rw [hflags2]
        exact ⟨hechoed, fun _ => rfl⟩

/-! ## Presence settles -/

/-- **Presence settles with a poll.** In every run of the module, whatever stale notifications have
made of its flags, after a pass that polls the flag of each device with a client says whether the
poll has published a reading of it; and if the last report has reached the service, and the poll
has reported or found no notification on its way, the service stores the same.
SRCLINE: han/wifi/wifi.c:411-465, dm/dm.c:520-577, common/hes_mreg.c:332-378 -/
theorem wifi_presence_settles (txt : CStr) (pf : MsProfile) (hload : loadProfile txt = some pf)
    (requests : List (List UInt8)) (moduleRef : ℕ) (href : moduleRef < 2 ^ 32) (mod : MsModule)
    (hfind : findModule (serveRequests pf requests) hesMtInterface moduleRef = some mod)
    (bulbIp : CStr) (hcarried : WifiCarried mod bulbIp) (t : Exchange) (opened : ℕ → Bool)
    (start : WifiState)
    (hboot : hanWifiBoot (serveRequests pf requests) moduleRef bulbIp t opened = some start)
    (lamp : ℕ → Option CStr) (exchange : ℕ → Exchange) (turns : List WifiTurn) (s : WifiState)
    (hrun : wifiLoop lamp exchange start turns = some s) (turn : WifiTurn) (u s' : WifiState)
    (hlisten : wifiListen lamp turn s = some u) (hdue : u.pollDue turn.now = true)
    (hturn : wifiTurn lamp exchange s turn = some s') :
    ∃ evs, s'.trace = u.trace ++ evs ∧
      ∀ w ∈ start.devs, ∃ dev, s'.sys.reg.devices[w.regIdx]? = some dev ∧
        (dev.online = true ↔ ∃ m, .send m ∈ evs ∧ m.deviceIndex = dev.deviceIndex) ∧
        (LastReached s'.trace → u.sys.inbox = [] ∨ reportsOf evs ≠ [] →
          s'.sys.stored dev.deviceIndex = some dev.online) := by
  have hmem := (findModule_is _ _ _ mod hfind).1
  have htype : (hesMregOpen hesMtInterface moduleRef).moduleType = hesMtInterface := by
    show boundedCopy 8 hesMtInterface = hesMtInterface
    decide +kernel
  obtain ⟨dis, hdis, hplaced, htracked⟩ := hanWifiBoot_tracked _ moduleRef href mod
    (htype ▸ hfind) (serveRequests_fits txt pf hload requests mod hmem)
    (serveRequests_bound txt pf hload requests mod hmem) bulbIp hcarried t opened start hboot
  obtain ⟨hfollows, -⟩ := hanWifiBoot_follows _ moduleRef bulbIp t opened start hboot
  obtain ⟨hfollows', htracked'⟩ := wifiLoop_tracked lamp exchange moduleRef href dis hdis start
    hplaced turns start hfollows htracked s hrun
  obtain ⟨hend, hpoll⟩ := wifiTurn_polled lamp exchange moduleRef href dis hdis start s hplaced
    hfollows' htracked' turn s' hturn
  obtain ⟨evs, hevs⟩ := hpoll u hlisten hdue
  refine ⟨evs, hevs.trace, fun w hw => ?_⟩
  obtain ⟨di, hplace⟩ := hplaced.places w hw
  obtain ⟨dev, hdev, rfl⟩ := hend.inStep.fronts.place dis _ w.regIdx di hplace
  have hheld : heldOf s'.sys.reg dev.deviceIndex = dev.online :=
    heldOf_found _ _ dev (hend.inStep.fronts.found dis _ hdis dev (List.mem_of_getElem? hdev))
  refine ⟨dev, hdev, ?_, fun hlast hcame => ?_⟩
  · rw [← hheld]
    exact hevs.seen w hw _ hplace
  · have hstored : (flagsOf s'.sys).stored = heldOf s'.sys.reg := by
      by_cases hquiet : reportsOf evs = []
      · have hinbox := hcame.resolve_right fun hne => hne hquiet
        have hlinked := (hend.linked hlast).settled
        rw [hevs.silent hquiet] at hlinked ⊢
        refine (hlinked ?_).symm
        unfold flagsOf
        rw [hinbox]
        rfl
      · rw [hevs.trace, lastReached_told _ _ hquiet] at hlast
        exact hevs.told hquiet hlast
    rw [stored_some moduleRef dis _ hend.inStep hdis _ (List.mem_of_getElem? hplace), hstored, hheld]

/-- A profile of one module with one lamp. -/
def oneLampProfile : CStr :=
  lit ("\x7b\"modules\":[\x7b\"moduleType\":\"hi\",\"moduleRefIndex\":2,\"deviceProfiles\":[" ++
    "\x7b\"deviceIndex\":2,\"netRefIndex\":1,\"objects\":[" ++
    "\x7b\"lexiconPath\":\"/lx/ob/uo/li/ll/da/cv\",\"access\":\"rw\"\x7d," ++
    "\x7b\"lexiconPath\":\"/lx/ob/uo/li/ll/aa/cv\",\"access\":\"rw\"\x7d]\x7d]\x7d]\x7d")

/-- INTERNAL: the loader makes the module with one lamp. -/
theorem oneLamp_loaded : loadProfile oneLampProfile = some ⟨[oneLamp]⟩ := by
  unfold oneLampProfile
  rw [lit_append, lit_append, lit_append, lit_ofList, lit_ofList, lit_ofList, lit_ofList]
  decide +kernel

/-- INTERNAL: its slice can be carried. -/
theorem oneLamp_carried : WifiCarried oneLamp (lit "192.168.1.142") where
  plain :=
    { module :=
        { labels := by
            intro s hs
            have hs : s ∈ [lit "hi", [], []] := hs
            apply plain_of_check
            revert s
            decide +kernel
          texts := by
            intro dev hdev s hs
            rw [List.mem_singleton.mp hdev] at hs
            apply plain_of_check
            revert s
            decide +kernel }
      addresses := by
        intro dev hdev
        rw [List.mem_singleton.mp hdev]
        exact ⟨plain_of_check [] (by decide), by decide⟩ }
  distinct := by decide
  range := by decide
  bulb := plain_of_check _ (by decide +kernel)

/-- INTERNAL: a run whose second pass polls the lamp. -/
theorem lampTurns_polled :
    ∃ start s u s', hanWifiBoot ⟨[oneLamp]⟩ 2 (lit "192.168.1.142") .answered (fun _ => true) =
        some start ∧
      wifiLoop (fun _ => some lampReplyOn) (fun _ => .answered) start (lampTurns.take 1) = some s ∧
      wifiListen (fun _ => some lampReplyOn) ⟨none, true, 10⟩ s = some u ∧ u.pollDue 10 = true ∧
      wifiTurn (fun _ => some lampReplyOn) (fun _ => .answered) s ⟨none, true, 10⟩ = some s' ∧
      lampClient ∈ start.devs ∧ u.sys.inbox = [] ∧ reportsOf s'.trace = [] := by
  have hrun : ((hanWifiBoot ⟨[oneLamp]⟩ 2 (lit "192.168.1.142") .answered fun _ => true).any
      fun start => (wifiLoop (fun _ => some lampReplyOn) (fun _ => .answered) start
          (lampTurns.take 1)).any
        fun s => (wifiListen (fun _ => some lampReplyOn) ⟨none, true, 10⟩ s).any
          fun u => u.pollDue 10 && (wifiTurn (fun _ => some lampReplyOn) (fun _ => .answered) s
              ⟨none, true, 10⟩).any
            fun s' => decide (lampClient ∈ start.devs) && decide (u.sys.inbox = []) &&
              decide (reportsOf s'.trace = [])) = true := by
    decide +kernel
  obtain ⟨start, hboot, hrun⟩ := Option.any_eq_true _ _ |>.mp hrun
  obtain ⟨s, hs, hrun⟩ := Option.any_eq_true _ _ |>.mp hrun
  obtain ⟨u, hu, hrun⟩ := Option.any_eq_true _ _ |>.mp hrun
  rw [Bool.and_eq_true] at hrun
  obtain ⟨hdue, hrun⟩ := hrun
  obtain ⟨s', hs', hrun⟩ := Option.any_eq_true _ _ |>.mp hrun
  rw [Bool.and_eq_true, Bool.and_eq_true, decide_eq_true_iff, decide_eq_true_iff,
    decide_eq_true_iff] at hrun
  exact ⟨start, s, u, s', hboot, hs, hu, hdue, hs', hrun.1.1, hrun.1.2, hrun.2⟩

/-- The lamp answers the poll, and the service stores whether it is online. -/
theorem wifi_presence_settles_lamp :
    ∃ start s s' dev, hanWifiBoot ⟨[oneLamp]⟩ 2 (lit "192.168.1.142") .answered (fun _ => true) =
        some start ∧
      wifiTurn (fun _ => some lampReplyOn) (fun _ => .answered) s ⟨none, true, 10⟩ = some s' ∧
      s'.sys.reg.devices[0]? = some dev ∧ s'.sys.stored dev.deviceIndex = some dev.online := by
  obtain ⟨start, s, u, s', hboot, hrun, hlisten, hdue, hturn, hclient, hinbox, hquiet⟩ :=
    lampTurns_polled
  obtain ⟨evs, htrace, hall⟩ := wifi_presence_settles oneLampProfile ⟨[oneLamp]⟩ oneLamp_loaded [] 2
    (by decide) oneLamp (by decide +kernel) (lit "192.168.1.142") oneLamp_carried .answered
    (fun _ => true) start hboot (fun _ => some lampReplyOn) (fun _ => .answered) (lampTurns.take 1) s
    hrun ⟨none, true, 10⟩ u s' hlisten hdue hturn
  obtain ⟨dev, hdev, -, hstored⟩ := hall lampClient hclient
  refine ⟨start, s, s', dev, hboot, hturn, hdev, hstored (fun t ht => ?_) (Or.inl hinbox)⟩
  rw [hquiet] at ht
  cases ht

end OpenHes.Analysis
