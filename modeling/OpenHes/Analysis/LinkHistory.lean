import OpenHes.Analysis.FrontedDevices
import OpenHes.Analysis.ReconnectBackoff
import OpenHes.Library.FlagHistory
import OpenHes.Model.BleBackends

/-!
# The link events of the backends

What `han/ble/hes_ble.h` promises its module: the events of the polls tell every change of a link
and nothing else. `Watches` lists what a backend has to keep for it, step by step; both backends
keep it, the simulated radio with its timers and BlueZ with its retries.
-/

set_option autoImplicit false

namespace OpenHes.Analysis

open OpenHes.Library OpenHes.Model

variable {M A D : Type}

/-! ## The contract -/

/-- What has been told of the link of a device, with the times of the polls. -/
def linkHistory (di : ℕ) (log : List (ℤ × HesBleEvent)) : List (ℤ × Bool) :=
  (log.filter fun e => e.2.deviceIndex = di).map fun e => (e.1, e.2.isOnline)

/-- The links are told: the devices are distinct and nothing is told of another one; what is told
of a device alternates from a link on that is up, and ends with what its state shows; a link
that was lost is not up again before the gap is over; and a live button is that of a device which
is online. -/
structure LinksTold (b : BleBackend M A) (gap : ℤ) (m : M) (log : List (ℤ × HesBleEvent)) :
    Prop where
  distinct : ((b.states m).map Prod.fst).Nodup
  managed : ∀ e ∈ log, e.2.deviceIndex ∈ (b.states m).map Prod.fst
  alternates : ∀ di i e, (linkHistory di log)[i]? = some e → e.2 = decide (i % 2 = 0)
  last : ∀ di, ((linkHistory di log).getLast?.map Prod.snd).getD false = true ↔
    (di, HesBleState.online) ∈ b.states m
  spaced : ∀ di i t t', (linkHistory di log)[i]? = some (t, false) →
    (linkHistory di log)[i + 1]? = some (t', true) → t + gap ≤ t'
  live : ∀ di pressed, b.button m di = some pressed → (di, HesBleState.online) ∈ b.states m

/-- A poll has room for an event of each device, as `han_ble_main` gives it. -/
def PollsAll : BleMgrStep A → Prop
  | .poll _ _ max => hesBleMaxDevs ≤ max
  | .add _ _ _ => True

/-- **A backend that can be watched**: what it shows of its devices is what the watch sees of its
members; adding brings at most one member, which is new and down; a poll is a pass. -/
structure Watches (b : BleBackend M A) (w : Watch D HesBleEvent ℕ) (members : M → List D)
    (gap : ℤ) (Ok : M → Prop) : Prop where
  about : w.about = HesBleEvent.deviceIndex
  value : w.value = HesBleEvent.isOnline
  states : ∀ m, ∃ state : D → HesBleState,
    (∀ d, w.up d = true ↔ state d = .online) ∧
      b.states m = (members m).map fun d => (w.key d, state d)
  init : Ok b.init ∧ members b.init = []
  room : ∀ m, Ok m → (members m).length ≤ hesBleMaxDevs
  add : ∀ m now di address, Ok m → Ok (b.add m now di address) ∧
    (members (b.add m now di address) = members m ∨
      ∃ d, members (b.add m now di address) = members m ++ [d] ∧
        w.key d ∉ (members m).map w.key ∧ w.up d = false)
  poll : ∀ m now answers max m' evs, Ok m → b.poll m now answers max = some (m', evs) →
    Ok m' ∧ ∃ all, w.Pass gap now (members m) (members m') all ∧ evs = all.take max
  live : ∀ m di pressed, Ok m → b.button m di = some pressed →
    (di, HesBleState.online) ∈ b.states m

section Runs

variable {b : BleBackend M A} {w : Watch D HesBleEvent ℕ} {members : M → List D} {gap : ℤ}
  {Ok : M → Prop}

/-- INTERNAL: **a step** keeps the log right. -/
theorem Watches.step (h : Watches b w members gap Ok) (m m' : M) (log log' : List (ℤ × HesBleEvent))
    (hok : Ok m) (htold : w.Told gap (members m) log) (step : BleMgrStep A) (hroom : PollsAll step)
    (hstep : b.step (m, log) step = some (m', log')) :
    Ok m' ∧ w.Told gap (members m') log' := by
  cases step with
  | add now di address =>
    obtain ⟨rfl, rfl⟩ := Prod.mk.inj (Option.some.inj hstep)
    obtain ⟨hok', hsame | ⟨d, hadd, hnew, hdown⟩⟩ := h.add m now di address hok
    · exact ⟨hok', hsame ▸ htold⟩
    · rw [hadd]
      exact ⟨hok', htold.add _ _ d hnew hdown⟩
  | poll now answers max =>
    obtain ⟨⟨m₁, evs⟩, hpoll, heq⟩ := Option.map_eq_some_iff.mp hstep
    obtain ⟨rfl, rfl⟩ := Prod.mk.inj heq
    obtain ⟨hok', all, hpass, rfl⟩ := h.poll m now answers max m₁ evs hok hpoll
    have hall : all.take max = all :=
      List.take_of_length_le (hpass.length.trans ((h.room m hok).trans hroom))
    rw [hall]
    exact ⟨hok', htold.pass _ _ _ _ hpass⟩

/-- INTERNAL: **a run** keeps the log right. -/
theorem Watches.run (h : Watches b w members gap Ok) (steps : List (BleMgrStep A))
    (hroom : ∀ step ∈ steps, PollsAll step) (m m' : M) (log log' : List (ℤ × HesBleEvent))
    (hok : Ok m) (htold : w.Told gap (members m) log)
    (hrun : b.run (m, log) steps = some (m', log')) :
    Ok m' ∧ w.Told gap (members m') log' := by
  induction steps generalizing m log with
  | nil =>
    obtain ⟨rfl, rfl⟩ := Prod.mk.inj (Option.some.inj hrun)
    exact ⟨hok, htold⟩
  | cons step steps ih =>
    obtain ⟨⟨m₁, log₁⟩, hstep, hrest⟩ := Option.bind_eq_some_iff.mp hrun
    obtain ⟨hok₁, htold₁⟩ := h.step m m₁ log log₁ hok htold step (hroom step List.mem_cons_self)
      hstep
    exact ih (fun step hmem => hroom step (List.mem_cons_of_mem _ hmem)) m₁ log₁ hok₁ htold₁ hrest

/-- INTERNAL: the history of a device is what the watch saw of it. -/
theorem Watches.historyOf (h : Watches b w members gap Ok) (di : ℕ)
    (log : List (ℤ × HesBleEvent)) : w.historyOf di log = linkHistory di log := by
  unfold Watch.historyOf linkHistory
  rw [h.about, h.value]

/-- INTERNAL: what the watch says is what the backend shows. -/
theorem Watches.linksTold (h : Watches b w members gap Ok) (m : M)
    (log : List (ℤ × HesBleEvent)) (hok : Ok m) (htold : w.Told gap (members m) log) :
    LinksTold b gap m log := by
  obtain ⟨state, hup, hstates⟩ := h.states m
  have hkeys : (b.states m).map Prod.fst = (members m).map w.key := by
    rw [hstates, List.map_map]
    rfl
  refine ⟨hkeys ▸ htold.distinct, fun e he => ?_, fun di i e he => ?_, fun di => ?_,
    fun di i t t' hfall hrise => ?_, fun di pressed => h.live m di pressed hok⟩
  · rw [hkeys, ← h.about]
    exact htold.about e he
  · rw [← h.historyOf] at he
    exact (htold.history di).alternates i e he
  · rw [← h.historyOf, (htold.history di).last, hstates]
    by_cases hdi : di ∈ (members m).map w.key
    · obtain ⟨d, hd, rfl⟩ := List.mem_map.mp hdi
      rw [Watch.upAt_member _ htold.distinct d hd, hup d]
      constructor
      · intro honline
        exact List.mem_map.mpr ⟨d, hd, by rw [honline]⟩
      · intro hmem
        obtain ⟨d₁, hd₁, heq⟩ := List.mem_map.mp hmem
        obtain ⟨hkey, hstate⟩ := Prod.mk.inj heq
        have hsame : d₁ = d := List.inj_on_of_nodup_map htold.distinct hd₁ hd hkey
        exact hsame ▸ hstate
    · rw [Watch.upAt_absent _ di hdi]
      constructor
      · intro hfalse
        cases hfalse
      · intro hmem
        obtain ⟨d, hd, heq⟩ := List.mem_map.mp hmem
        exact absurd (List.mem_map.mpr ⟨d, hd, (Prod.mk.inj heq).1⟩) hdi
  · rw [← h.historyOf] at hfall hrise
    exact (htold.history di).spaced i t t' hfall hrise

/-- INTERNAL: every run of a backend that can be watched. -/
theorem Watches.told (h : Watches b w members gap Ok) (steps : List (BleMgrStep A))
    (hroom : ∀ step ∈ steps, PollsAll step) (m : M) (log : List (ℤ × HesBleEvent))
    (hrun : b.run (b.init, []) steps = some (m, log)) : LinksTold b gap m log := by
  have hstart : w.Told gap (members b.init) [] := by
    rw [h.init.2]
    exact Watch.told_nil
  obtain ⟨hok, htold⟩ := h.run steps hroom _ m _ log h.init.1 hstart hrun
  exact h.linksTold m log hok htold

end Runs

/-! ## The simulated radio -/

/-- What is seen of a device of the radio. One that has no power has to get it first, and then to
connect. -/
def simWatch : Watch SimConn HesBleEvent ℕ where
  key := SimConn.deviceIndex
  up := fun d => d.state = .online
  ready := fun d => (if d.simPowered then d.stateEntered else d.nextPowerFlip) + hesBleSimConnectS
  about := HesBleEvent.deviceIndex
  value := HesBleEvent.isOnline

/-- A device of the radio: off without power, and connecting since its power is on or online. -/
structure SimConnOk (d : SimConn) : Prop where
  off : d.simPowered = false → d.state = .off
  powered : d.simPowered = true → d.state = .online ∨
    d.state = .connecting ∧ d.nextPowerFlip = d.stateEntered + hesBleSimPowerOnS

/-- The radio: its timers are set, and its devices are as they should be. -/
structure SimMgrOk (m : SimMgr) : Prop where
  room : m.devs.length ≤ hesBleMaxDevs
  connect : m.simConnectS = hesBleSimConnectS
  powerOn : m.simPowerOnS = hesBleSimPowerOnS
  powerOff : m.simPowerOffS = hesBleSimPowerOffS
  devs : ∀ d ∈ m.devs, SimConnOk d

/-- INTERNAL: a connection that is not online is not up. -/
theorem simWatch_down (d : SimConn) (h : d.state ≠ .online) : simWatch.up d = false :=
  decide_eq_false h

/-- INTERNAL: with power it is ready when it has connected. -/
theorem simWatch_ready (d : SimConn) (hpowered : d.simPowered = true) :
    simWatch.ready d = d.stateEntered + hesBleSimConnectS := by
  show (if d.simPowered then d.stateEntered else d.nextPowerFlip) + hesBleSimConnectS = _
  rw [if_pos hpowered]

/-- INTERNAL: without power it has to get that first. -/
theorem simWatch_unpowered (d : SimConn) (hpowered : d.simPowered = false) :
    simWatch.ready d = d.nextPowerFlip + hesBleSimConnectS := by
  show (if d.simPowered then d.stateEntered else d.nextPowerFlip) + hesBleSimConnectS = _
  rw [if_neg (Bool.not_eq_true _ ▸ hpowered)]

/-- INTERNAL: a device whose power stays as it is connects, if its connect is over. -/
theorem connectOver_turn (m : SimMgr) (hm : SimMgrOk m) (now : ℤ) (d : SimConn)
    (hd : SimConnOk d) :
    SimConnOk (connectOver m now d).1 ∧ simWatch.Turn (hesBleSimPowerOffS + hesBleSimConnectS) now
      d (connectOver m now d).1 (connectOver m now d).2 := by
  unfold connectOver
  split
  · next hover =>
    rw [Bool.and_eq_true, Bool.and_eq_true, decide_eq_true_iff, decide_eq_true_iff,
      hm.connect] at hover
    obtain ⟨⟨hpowered, hstate⟩, hover⟩ := hover
    have hdown : simWatch.up d = false := by
      apply simWatch_down
      rw [hstate]
      exact HesBleState.noConfusion
    refine ⟨⟨fun hoff => absurd (hpowered.symm.trans hoff) Bool.true_eq_false.mp,
      fun _ => Or.inl rfl⟩, .rise _ _ _ rfl hdown rfl ?_ rfl rfl⟩
    rw [simWatch_ready d hpowered]
    omega
  · exact ⟨hd, .refl d⟩

/-- INTERNAL: the connect of a device whose power has just come or gone is not over. -/
theorem connectOver_flipped (m : SimMgr) (hm : SimMgrOk m) (now : ℤ) (d : SimConn)
    (h : d.simPowered = false ∨ d.stateEntered = now) : connectOver m now d = (d, none) := by
  unfold connectOver
  rcases h with hoff | hnow
  · rw [hoff, Bool.false_and, Bool.false_and, if_neg Bool.false_ne_true]
  · have hover : ¬ m.simConnectS ≤ now - d.stateEntered := by
      rw [hm.connect, hnow]
      unfold hesBleSimConnectS
      omega
    rw [decide_eq_false hover, Bool.and_false, if_neg Bool.false_ne_true]

/-- INTERNAL: **the turn of a device** of the radio. -/
theorem simPollDev_turn (m : SimMgr) (hm : SimMgrOk m) (now : ℤ) (d : SimConn)
    (hd : SimConnOk d) :
    SimConnOk (simPollDev m now d).1 ∧ ∃ ev : Option HesBleEvent,
      (simPollDev m now d).2 = ev.toList ∧
        simWatch.Turn (hesBleSimPowerOffS + hesBleSimConnectS) now d (simPollDev m now d).1 ev := by
  unfold simPollDev powerFlip
  by_cases hearly : now < d.nextPowerFlip
  · rw [if_pos hearly]
    obtain ⟨hok, hturn⟩ := connectOver_turn m hm now d hd
    exact ⟨hok, _, rfl, hturn⟩
  · rw [if_neg hearly]
    cases hpowered : d.simPowered with
    | false =>
      -- The power is back: the device starts to connect.
      have hdown : simWatch.up d = false := by
        apply simWatch_down
        rw [hd.off hpowered]
        exact HesBleState.noConfusion
      rw [if_neg Bool.false_ne_true]
      dsimp only
      rw [connectOver_flipped m hm now _ (Or.inr rfl)]
      refine ⟨⟨fun hoff => absurd hoff Bool.true_eq_false.mp, fun _ => Or.inr ⟨rfl, ?_⟩⟩, none, rfl,
        .rest _ _ rfl hdown rfl ?_⟩
      · show now + m.simPowerOnS = now + hesBleSimPowerOnS
        rw [hm.powerOn]
      · rw [simWatch_unpowered d hpowered, simWatch_ready _ rfl]
        dsimp only
        omega
    | true =>
      -- The power is lost, and the link with it.
      rw [if_pos rfl]
      dsimp only
      rw [connectOver_flipped m hm now _ (Or.inl rfl)]
      refine ⟨⟨fun _ => rfl, fun hon => absurd hon Bool.false_ne_true⟩,
        if d.state = .online then some ⟨d.deviceIndex, false⟩ else none, List.append_nil _, ?_⟩
      rcases hd.powered hpowered with hstate | ⟨hstate, hflip⟩
      · rw [if_pos hstate]
        refine .fall _ _ _ rfl (decide_eq_true hstate) rfl ?_ rfl rfl
        rw [simWatch_unpowered _ rfl]
        dsimp only
        rw [hm.powerOff]
        omega
      · have hne : d.state ≠ .online := by
          rw [hstate]
          exact HesBleState.noConfusion
        rw [if_neg hne]
        refine .rest _ _ rfl (simWatch_down d hne) rfl ?_
        rw [simWatch_ready d hpowered, simWatch_unpowered _ rfl]
        dsimp only
        rw [hm.powerOff]
        unfold hesBleSimPowerOnS at hflip
        unfold hesBleSimPowerOffS
        omega

/-- INTERNAL: the pass of the radio over its devices. -/
theorem simMgrPoll_pass (m : SimMgr) (hm : SimMgrOk m) (now : ℤ) (devs : List SimConn)
    (hdevs : ∀ d ∈ devs, SimConnOk d) :
    (∀ d ∈ devs.map fun d => (simPollDev m now d).1, SimConnOk d) ∧
      simWatch.Pass (hesBleSimPowerOffS + hesBleSimConnectS) now devs
        (devs.map fun d => (simPollDev m now d).1)
        (devs.flatMap fun d => (simPollDev m now d).2) := by
  induction devs with
  | nil => exact ⟨fun _ hd => absurd hd List.not_mem_nil, .nil⟩
  | cons d rest ih =>
    obtain ⟨hok, ev, hev, hturn⟩ := simPollDev_turn m hm now d (hdevs d List.mem_cons_self)
    obtain ⟨hoks, hpass⟩ := ih fun x hx => hdevs x (List.mem_cons_of_mem _ hx)
    rw [List.map_cons, List.flatMap_cons, hev]
    refine ⟨fun x hx => ?_, .cons d _ ev rest _ _ hturn hpass⟩
    rcases List.mem_cons.mp hx with rfl | hx
    · exact hok
    · exact hoks x hx

/-- INTERNAL: a key that no entry of a list has. -/
theorem not_mem_keys {α : Type} (key : α → ℕ) (entries : List α) (k : ℕ)
    (h : (entries.any fun d => key d = k) = false) : k ∉ entries.map key := by
  intro hmem
  obtain ⟨d, hd, hk⟩ := List.mem_map.mp hmem
  rw [List.any_eq_false] at h
  exact h d hd (decide_eq_true hk)

/-- INTERNAL: the simulated radio can be watched. -/
theorem simBackend_watches : Watches simBackend simWatch SimMgr.devs
    (hesBleSimPowerOffS + hesBleSimConnectS) SimMgrOk where
  about := rfl
  value := rfl
  states := fun _ => ⟨SimConn.state, fun _ => decide_eq_true_iff, rfl⟩
  init := ⟨⟨Nat.zero_le _, rfl, rfl, rfl, fun _ hd => by cases hd⟩, rfl⟩
  room := fun _ hm => hm.room
  add := by
    intro m now di address hm
    show SimMgrOk (simMgrAdd m now di) ∧ _
    unfold simBackend simMgrAdd
    dsimp only
    split
    · exact ⟨hm, Or.inl rfl⟩
    · next hnew =>
      split
      · exact ⟨hm, Or.inl rfl⟩
      · next hroom =>
        refine ⟨⟨?_, hm.connect, hm.powerOn, hm.powerOff, fun d hd => ?_⟩, Or.inr ⟨_, rfl,
          not_mem_keys _ _ _ (Bool.eq_false_iff.mpr hnew), rfl⟩⟩
        · rw [List.length_append, List.length_singleton]
          omega
        · rcases List.mem_append.mp hd with hd | hd
          · exact hm.devs d hd
          · rw [List.mem_singleton.mp hd]
            refine ⟨fun hoff => absurd hoff Bool.true_eq_false.mp, fun _ => Or.inr ⟨rfl, ?_⟩⟩
            dsimp only
            rw [hm.powerOn]
  poll := by
    intro m now _ max m' evs hm hpoll
    obtain ⟨rfl, rfl⟩ := Prod.mk.inj (Option.some.inj hpoll)
    obtain ⟨hoks, hpass⟩ := simMgrPoll_pass m hm now m.devs hm.devs
    refine ⟨⟨?_, hm.connect, hm.powerOn, hm.powerOff, hoks⟩, _, hpass, rfl⟩
    exact (List.length_map _).trans_le hm.room
  live := fun _ _ _ _ hbutton => by cases hbutton

/-! ## BlueZ -/

/-- What is seen of a device of BlueZ: one that is down is not tried before its time. -/
def bluezWatch : Watch BluezDev HesBleEvent ℕ where
  key := BluezDev.deviceIndex
  up := fun d => d.state = .online
  ready := BluezDev.nextTry
  about := HesBleEvent.deviceIndex
  value := HesBleEvent.isOnline

/-- The host: there is a button for each device, and one that is subscribed or has a value is that
of a device which is online. -/
structure BluezHostOk (h : BluezHost) : Prop where
  room : h.mgr.devs.length ≤ hesBleMaxDevs
  buttons : h.buttons.length = h.mgr.devs.length
  live : ∀ (i : ℕ) (d : BluezDev) (b : BluezButton), h.mgr.devs[i]? = some d → h.buttons[i]? = some b →
    b.btn = true ∨ b.haveButton = true → d.state = .online

/-- INTERNAL: a BlueZ device that is not online is not up. -/
theorem bluezWatch_down (d : BluezDev) (h : d.state ≠ .online) : bluezWatch.up d = false :=
  decide_eq_false h

/-- INTERNAL: the search for a path leaves the device waiting at least as long. -/
theorem discoverPath_seen (now : ℤ) (answer : BluezAnswer) (d : BluezDev) :
    (discoverPath now answer d).deviceIndex = d.deviceIndex ∧
      d.nextTry ≤ (discoverPath now answer d).nextTry := by
  unfold discoverPath
  split
  · next hsearch =>
    have hlater : d.nextTry ≤ now + scanRetryS := by
      unfold scanRetryS
      omega
    cases answer.objectPath with
    | none => exact ⟨rfl, hlater⟩
    | some path => exact ⟨rfl, hlater⟩
  · exact ⟨rfl, le_refl _⟩

/-- INTERNAL: the watch over the link of a device that is online. -/
theorem watchLink_turn (now : ℤ) (answer : BluezAnswer) (d : BluezDev) (h : d.state = .online) :
    bluezWatch.Turn retryBaseS now d (watchLink now answer d).1 (watchLink now answer d).2 := by
  have hup : bluezWatch.up d = true := decide_eq_true h
  unfold watchLink
  dsimp only
  split
  · exact .fall _ _ _ rfl hup rfl (le_refl _) rfl rfl
  · exact .keep _ _ rfl hup hup

/-- INTERNAL: an attempt on a device that is down and whose time has come. -/
theorem tryConnect_turn (now : ℤ) (answer : BluezAnswer) (d d' : BluezDev)
    (ev : Option HesBleEvent) (hdown : d.state ≠ .online) (hready : d.nextTry ≤ now)
    (h : tryConnect now answer d = some (d', ev)) : bluezWatch.Turn retryBaseS now d d' ev := by
  unfold tryConnect at h
  split at h
  · obtain ⟨failed, hfailed, heq⟩ := Option.map_eq_some_iff.mp h
    obtain ⟨rfl, rfl⟩ := Prod.mk.inj heq
    rw [connectFailed_eq] at hfailed
    split at hfailed
    · cases hfailed
      refine .rest _ _ rfl (bluezWatch_down d hdown) rfl ?_
      show d.nextTry ≤ now + backoffDelay (d.attempt + 1)
      have hdelay := (backoffDelay_bounds (d.attempt + 1)).1
      unfold retryBaseS at hdelay
      omega
    · cases hfailed
  · cases h
    exact .rise _ _ _ rfl (bluezWatch_down d hdown) rfl hready rfl rfl

/-- INTERNAL: **the turn of a device** of BlueZ. -/
theorem pollDev_turn (now : ℤ) (answer : BluezAnswer) (d d' : BluezDev) (ev : Option HesBleEvent)
    (h : pollDev now answer d = some (d', ev)) : bluezWatch.Turn retryBaseS now d d' ev := by
  obtain ⟨hkey, hready⟩ := discoverPath_seen now answer d
  obtain ⟨hstate, -⟩ := discoverPath_spec now answer d
  unfold pollDev at h
  dsimp only at h
  have hup : bluezWatch.up (discoverPath now answer d) = bluezWatch.up d := by
    show decide (_ = HesBleState.online) = decide (_ = HesBleState.online)
    rw [hstate]
  refine .of_le d (discoverPath now answer d) d' ev hkey hup hready ?_
  split at h
  · next honline =>
    have hturn := watchLink_turn now answer _ honline
    rw [Option.some.inj h] at hturn
    exact hturn
  · next hdown =>
    split at h
    · cases h
      exact .refl _
    · next htried =>
      rw [Bool.or_eq_true, decide_eq_true_iff, decide_eq_true_iff, not_or] at htried
      exact tryConnect_turn now answer _ d' ev hdown (not_lt.mp htried.2) h

/-- INTERNAL: the pass of BlueZ over its devices, and the turn of each. -/
theorem pollDevs_pass (now : ℤ) (answers : ℕ → BluezAnswer) (devs : List BluezDev) (k : ℕ)
    (devs' : List BluezDev) (evs : List HesBleEvent)
    (h : pollDevs now answers k devs = some (devs', evs)) :
    bluezWatch.Pass retryBaseS now devs devs' evs ∧
      ∀ i d', devs'[i]? = some d' → ∃ d ev, devs[i]? = some d ∧
        pollDev now (answers (k + i)) d = some (d', ev) := by
  induction devs generalizing k devs' evs with
  | nil =>
    cases h
    exact ⟨.nil, fun i d' hd' => by simp at hd'⟩
  | cons d rest ih =>
    obtain ⟨⟨d₁, ev⟩, hturn, hrest⟩ := Option.bind_eq_some_iff.mp h
    obtain ⟨⟨rest₁, evs₁⟩, hmore, heq⟩ := Option.bind_eq_some_iff.mp hrest
    cases heq
    obtain ⟨hpass, hturns⟩ := ih (k + 1) rest₁ evs₁ hmore
    refine ⟨.cons d d₁ ev rest rest₁ evs₁ (pollDev_turn now (answers k) d d₁ ev hturn) hpass,
      fun i d' hd' => ?_⟩
    cases i with
    | zero =>
      rw [List.getElem?_cons_zero, Option.some.injEq] at hd'
      exact ⟨d, ev, rfl, hd' ▸ hturn⟩
    | succ i =>
      rw [List.getElem?_cons_succ] at hd'
      obtain ⟨d₀, ev₀, hd₀, hturn₀⟩ := hturns i d' hd'
      refine ⟨d₀, ev₀, hd₀, ?_⟩
      rw [Nat.add_assoc, Nat.add_comm 1 i] at hturn₀
      exact hturn₀

/-- INTERNAL: the signals change nothing that is seen of the devices, and no button that is not
subscribed. -/
theorem dispatch_ok (h : BluezHost) (hok : BluezHostOk h) (signal : BluezSignal) :
    BluezHostOk (h.dispatch signal) ∧
      (h.dispatch signal).mgr.devs.map bluezWatch.view = h.mgr.devs.map bluezWatch.view := by
  cases signal with
  | props objectPath connected =>
    have hstates : (onDeviceProps h.mgr objectPath connected).devs.map BluezDev.state =
        h.mgr.devs.map BluezDev.state := map_updateFirst _ _ _ _ fun _ => rfl
    refine ⟨⟨?_, ?_, fun i d b hd hb hlive => ?_⟩, map_updateFirst _ _ _ _ fun _ => rfl⟩
    · exact (List.length_modify ..).trans_le hok.room
    · exact hok.buttons.trans (List.length_modify ..).symm
    · have hstate : (h.mgr.devs.map BluezDev.state)[i]? = some d.state := by
        rw [← hstates, List.getElem?_map]
        exact congrArg (Option.map BluezDev.state) hd
      rw [List.getElem?_map, Option.map_eq_some_iff] at hstate
      obtain ⟨d₀, hd₀, hsame⟩ := hstate
      rw [← hsame]
      exact hok.live i d₀ b hd₀ hb hlive
  | value place bytes =>
    refine ⟨⟨hok.room, (List.length_modify ..).trans hok.buttons, fun i d b hd hb hlive => ?_⟩, rfl⟩
    have hb : (h.buttons.modify place (onBtnValue bytes))[i]? = some b := hb
    rw [List.getElem?_modify] at hb
    obtain ⟨b₀, hb₀, heq⟩ := Option.map_eq_some_iff.mp hb
    apply hok.live i d b₀ hd hb₀
    -- A button without a proxy hears nothing.
    by_cases hsub : b₀.btn = true
    · exact Or.inl hsub
    · have hdeaf : onBtnValue bytes b₀ = b₀ := by
        unfold onBtnValue
        cases bytes with
        | nil => rfl
        | cons byte rest => exact if_neg hsub
      rw [hdeaf, ite_self] at heq
      exact heq ▸ hlive

/-- INTERNAL: signals leave the connection to the bus. -/
theorem dispatchAll_conn (signals : List BluezSignal) (h : BluezHost) :
    (signals.foldl BluezHost.dispatch h).mgr.conn = h.mgr.conn := by
  induction signals generalizing h with
  | nil => rfl
  | cons signal signals ih =>
    rw [List.foldl_cons, ih]
    cases signal <;> rfl

/-- INTERNAL: they keep the manager as it should be, and what is watched of it. -/
theorem dispatchAll_ok (signals : List BluezSignal) (h : BluezHost) (hok : BluezHostOk h) :
    BluezHostOk (signals.foldl BluezHost.dispatch h) ∧
      (signals.foldl BluezHost.dispatch h).mgr.devs.map bluezWatch.view =
        h.mgr.devs.map bluezWatch.view := by
  induction signals generalizing h with
  | nil => exact ⟨hok, rfl⟩
  | cons signal signals ih =>
    obtain ⟨hok₁, hview₁⟩ := dispatch_ok h hok signal
    obtain ⟨hok₂, hview₂⟩ := ih (h.dispatch signal) hok₁
    exact ⟨hok₂, hview₂.trans hview₁⟩

/-- INTERNAL: **the button behind a turn**: it is live only where the device is online. -/
theorem turnButton_live (now : ℤ) (d d' : BluezDev) (ev : Option HesBleEvent) (char : Bool)
    (b : BluezButton) (hturn : bluezWatch.Turn retryBaseS now d d' ev)
    (hlive : b.btn = true ∨ b.haveButton = true → d.state = .online)
    (h : (turnButton ev char b).btn = true ∨ (turnButton ev char b).haveButton = true) :
    d'.state = .online := by
  cases ev with
  | none =>
    have hup : bluezWatch.up d' = true := (hturn.silent rfl).trans (decide_eq_true (hlive h))
    exact of_decide_eq_true hup
  | some e =>
    obtain ⟨-, hup⟩ := hturn.told e rfl
    have hup : decide (d'.state = .online) = e.isOnline := hup
    cases honline : e.isOnline with
    | true =>
      rw [honline] at hup
      exact of_decide_eq_true hup
    | false =>
      have hgone : turnButton (some e) char b = unsubscribeButton b :=
        if_neg (Bool.not_eq_true _ ▸ honline)
      rw [hgone] at h
      rcases h with h | h <;> cases h

/-- INTERNAL: **a poll** of BlueZ is a pass, and leaves the buttons as they should be. -/
theorem bluezPoll_ok (h h' : BluezHost) (hok : BluezHostOk h) (now : ℤ) (answers : BluezAnswers)
    (max : ℕ) (evs : List HesBleEvent) (hpoll : h.poll now answers max = some (h', evs)) :
    BluezHostOk h' ∧ ∃ all, bluezWatch.Pass retryBaseS now h.mgr.devs h'.mgr.devs all ∧
      evs = all.take max := by
  unfold BluezHost.poll at hpoll
  split at hpoll
  · cases hpoll
    exact ⟨hok, [], .refl _, List.take_nil.symm⟩
  · next hconn =>
    obtain ⟨hheard, hview⟩ := dispatchAll_ok answers.signals h hok
    have hkept := dispatchAll_conn answers.signals h
    generalize answers.signals.foldl BluezHost.dispatch h = heard at hpoll hheard hview hkept
    dsimp only at hpoll
    unfold hesBleMgrPoll at hpoll
    rw [hkept, if_neg hconn, Option.map_map] at hpoll
    obtain ⟨⟨devs, all⟩, hdevs, heq⟩ := Option.map_eq_some_iff.mp hpoll
    obtain ⟨rfl, rfl⟩ := Prod.mk.inj heq
    obtain ⟨hpass, hturns⟩ := pollDevs_pass now answers.device _ 0 devs all hdevs
    have hlength : devs.length = heard.mgr.devs.length := by
      rw [← List.length_map bluezWatch.key, hpass.keys, List.length_map]
    refine ⟨⟨hlength.trans_le hheard.room, ?_, fun i d' b hd' hb hlive => ?_⟩, all,
      hpass.of_view hview, rfl⟩
    · exact List.length_mapIdx.trans (hheard.buttons.trans hlength.symm)
    · obtain ⟨d, ev, hd, hturn⟩ := hturns i d' hd'
      rw [Nat.zero_add] at hturn
      have hb : (heard.buttons.mapIdx fun i b => turnButton (turnEvent now answers heard.mgr.devs i)
        (answers.char i) b)[i]? = some b := hb
      rw [List.getElem?_mapIdx] at hb
      obtain ⟨b₀, hb₀, rfl⟩ := Option.map_eq_some_iff.mp hb
      have hev : turnEvent now answers heard.mgr.devs i = ev := by
        unfold turnEvent
        rw [hd, Option.bind_some, hturn, Option.bind_some]
      rw [hev] at hlive
      exact turnButton_live now d d' ev (answers.char i) b₀
        (pollDev_turn now _ d d' ev hturn) (hheard.live i d b₀ hd hb₀) hlive

/-- INTERNAL: adding a device leaves the host alone, or brings one that is new and off, if there is
room. -/
theorem bluezAdd_cases (h : BluezHost) (now : ℤ) (di : ℕ) (address : CStr) :
    h.add now di address = h ∨ ∃ d : BluezDev,
      h.add now di address = ⟨{ h.mgr with devs := h.mgr.devs ++ [d] }, h.buttons ++ [({} : BluezButton)]⟩ ∧
        d.deviceIndex = di ∧ d.state = .off ∧ h.mgr.devs.length < hesBleMaxDevs ∧
        (h.mgr.devs.any fun d => d.deviceIndex = di) = false := by
  unfold BluezHost.add hesBleMgrAdd
  by_cases hnew : (h.mgr.devs.any fun d => d.deviceIndex = di) = true
  · rw [if_pos hnew]
    exact Or.inl (if_pos rfl)
  · rw [if_neg hnew]
    by_cases hroom : hesBleMaxDevs ≤ h.mgr.devs.length
    · rw [if_pos hroom]
      exact Or.inl (if_pos rfl)
    · rw [if_neg hroom]
      dsimp only
      rw [if_neg (by rw [List.length_append, List.length_singleton]; omega)]
      exact Or.inr ⟨_, rfl, rfl, rfl, not_le.mp hroom, Bool.eq_false_iff.mpr hnew⟩

/-- INTERNAL: BlueZ can be watched. -/
theorem bluezBackend_watches (bus : Bool) : Watches (bluezBackend bus) bluezWatch
    (fun h => h.mgr.devs) retryBaseS BluezHostOk where
  about := rfl
  value := rfl
  states := fun _ => ⟨BluezDev.state, fun _ => decide_eq_true_iff, rfl⟩
  init := ⟨⟨Nat.zero_le _, rfl, fun _ _ _ hd => by cases hd⟩, rfl⟩
  room := fun _ hok => hok.room
  add := by
    intro h now di address hok
    show BluezHostOk (h.add now di address) ∧ ((h.add now di address).mgr.devs = _ ∨
      ∃ d, (h.add now di address).mgr.devs = _ ∧ _)
    rcases bluezAdd_cases h now di address with hsame | ⟨d, hadd, hdi, hoff, hroom, hnew⟩
    · rw [hsame]
      exact ⟨hok, Or.inl rfl⟩
    · rw [hadd]
      have hdown : d.state ≠ .online := by
        rw [hoff]
        exact HesBleState.noConfusion
      refine ⟨⟨?_, ?_, fun i d' b hd' hb hlive => ?_⟩, Or.inr ⟨d, rfl, ?_, bluezWatch_down d hdown⟩⟩
      · rw [List.length_append, List.length_singleton]
        omega
      · rw [List.length_append, List.length_append, hok.buttons]
        rfl
      · -- The button of the new device is neither subscribed nor live.
        rcases History.getElem?_snoc _ _ _ _ hb with hold | ⟨-, rfl⟩
        · have hi : i < h.mgr.devs.length := hok.buttons ▸ (List.getElem?_eq_some_iff.mp hold).1
          rw [List.getElem?_append_left hi] at hd'
          exact hok.live i d' b hd' hold hlive
        · rcases hlive with hlive | hlive <;> cases hlive
      · show d.deviceIndex ∉ _
        rw [hdi]
        exact not_mem_keys BluezDev.deviceIndex _ _ hnew
  poll := fun h now answers max h' evs hok hpoll => bluezPoll_ok h h' hok now answers max evs hpoll
  live := by
    intro h di pressed hok hbutton
    obtain ⟨b, hb, hvalue⟩ := Option.bind_eq_some_iff.mp hbutton
    split at hvalue
    · next hlive =>
      have hplace := hok.buttons ▸ (List.getElem?_eq_some_iff.mp hb).1
      refine List.mem_map.mpr ⟨_, List.getElem_mem hplace, ?_⟩
      have hfound := of_decide_eq_true (List.findIdx_getElem (w := hplace))
      have honline := hok.live _ _ b (List.getElem?_eq_getElem hplace) hb (Or.inr hlive)
      rw [hfound, honline]
    · cases hvalue

/-! ## The backends keep the contract -/

/-- **The simulated radio tells its links.** In every run of the manager over it, whatever the
clock shows, the events of the polls alternate for each device, a link that is up first, and end
with what its state shows; a lost link takes at least as long as the power is off and the connect
lasts to come up again.
SRCLINE: han/ble/hes_ble.c:47-136, han/ble/hes_ble.h:55-118 -/
theorem sim_links_told (steps : List (BleMgrStep Unit)) (hroom : ∀ step ∈ steps, PollsAll step)
    (m : SimMgr) (log : List (ℤ × HesBleEvent))
    (hrun : simBackend.run (simBackend.init, []) steps = some (m, log)) :
    LinksTold simBackend (hesBleSimPowerOffS + hesBleSimConnectS) m log :=
  simBackend_watches.told steps hroom m log hrun

/-- Two tags, polled while their power comes and goes. -/
def radioSteps : List (BleMgrStep Unit) :=
  [.add 0 3 [], .add 0 4 [], .poll 1 () 16, .poll 20 () 16, .poll 28 () 16, .poll 30 () 16]

/-- A tag that loses its power and gets it back. -/
theorem sim_links_told_tags :
    ∃ m log, simBackend.run (simBackend.init, []) radioSteps = some (m, log) ∧
      linkHistory 3 log = [(1, true), (20, false), (30, true)] ∧
      LinksTold simBackend (hesBleSimPowerOffS + hesBleSimConnectS) m log := by
  have hrun : (simBackend.run (simBackend.init, []) radioSteps).any
      fun s => linkHistory 3 s.2 = [(1, true), (20, false), (30, true)] := by
    decide +kernel
  obtain ⟨⟨m, log⟩, hrun, htold⟩ := Option.any_eq_true _ _ |>.mp hrun
  have hroom : ∀ step ∈ radioSteps, PollsAll step := by
    unfold radioSteps
    simp [PollsAll, hesBleMaxDevs]
  exact ⟨m, log, hrun, of_decide_eq_true htold, sim_links_told radioSteps hroom m log hrun⟩

/-- **BlueZ tells its links.** In every run of the manager over it, whatever D-Bus and the devices
answer and in whatever order their signals come, the events of the polls alternate for each device,
a link that is up first, and end with what its state shows; a lost link is not up again before the
base of the retries is over, and no button is live but that of a device which is online.
SRCLINE: han/ble/hes_ble_bluez.c:330-587, han/ble/hes_ble.h:55-118 -/
theorem bluez_links_told (bus : Bool) (steps : List (BleMgrStep BluezAnswers))
    (hroom : ∀ step ∈ steps, PollsAll step) (h : BluezHost) (log : List (ℤ × HesBleEvent))
    (hrun : (bluezBackend bus).run ((bluezBackend bus).init, []) steps = some (h, log)) :
    LinksTold (bluezBackend bus) retryBaseS h log :=
  (bluezBackend_watches bus).told steps hroom h log hrun

/-- What BlueZ says of a tag that it knows and that connects. -/
def tagAnswers (connected : Bool) : BluezAnswer where
  objectPath := some (lit "/org/bluez/hci0/dev_54_6C_0E_B7_20_04")
  cached := some connected
  proxy := true
  connect := true
  resolved := true

/-- A tag that is found, connects, is pressed, is lost, and connects again. -/
def bluezSteps : List (BleMgrStep BluezAnswers) :=
  [.add 0 3 (lit "54:6C:0E:B7:20:04"),
    .poll 0 { device := fun _ => tagAnswers true } 16,
    .poll 3 { device := fun _ => tagAnswers true, char := fun _ => true } 16,
    .poll 5 { signals := [.value 0 [1]], device := fun _ => tagAnswers true } 16,
    .poll 9 { device := fun _ => tagAnswers false } 16,
    .poll 10 { device := fun _ => tagAnswers true, char := fun _ => true } 16]

/-- A tag that BlueZ loses and finds again. -/
theorem bluez_links_told_tag :
    ∃ h log, (bluezBackend true).run ((bluezBackend true).init, []) bluezSteps = some (h, log) ∧
      linkHistory 3 log = [(3, true), (9, false), (10, true)] ∧
      LinksTold (bluezBackend true) retryBaseS h log := by
  have hrun : ((bluezBackend true).run ((bluezBackend true).init, []) bluezSteps).any
      fun s => linkHistory 3 s.2 = [(3, true), (9, false), (10, true)] := by
    decide +kernel
  obtain ⟨⟨h, log⟩, hrun, htold⟩ := Option.any_eq_true _ _ |>.mp hrun
  have hroom : ∀ step ∈ bluezSteps, PollsAll step := by
    unfold bluezSteps
    simp [PollsAll, hesBleMaxDevs]
  exact ⟨h, log, hrun, of_decide_eq_true htold,
    bluez_links_told true bluezSteps hroom h log hrun⟩

end OpenHes.Analysis
