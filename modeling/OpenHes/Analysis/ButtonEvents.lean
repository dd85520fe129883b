import OpenHes.Analysis.FrontedDevices
import OpenHes.Analysis.LinkHistory
import OpenHes.Analysis.WifiAttribution
import OpenHes.Model.HanBleLoop
import Mathlib.Data.List.Chain

/-!
# The button events of the BLE module

A button is published when its value has changed, and when its link has come up. The context of a
device remembers what was published of its button since then, if anything was; every pass reads
all the buttons of online devices and publishes what is not remembered. So nothing is published
twice in a row, and behind each pass the last event of a button is what the button shows.
-/

set_option autoImplicit false

namespace OpenHes.Analysis

open OpenHes.Library OpenHes.Model

variable {M A : Type}

/-! ## The feed of a button -/

/-- What an event is for the button of the device at a place: a link that comes up (none inside),
the publication of a value, or nothing. -/
def buttonEntry (i : ℕ) : BleEvent → Option (Option CStr)
  | .linkUp j => if j = i then some none else none
  | .publish j m => if j = i ∧ m.path = hesLxBtnCv then some (some m.payload) else none
  | .frame _ | .answer _ => none

/-- The publications of a button, with the links that have come up between them. -/
def buttonFeed (i : ℕ) (trace : List BleEvent) : List (Option CStr) :=
  trace.filterMap (buttonEntry i)

/-- Nothing is published twice in a row. -/
def NoRepeat (feed : List (Option CStr)) : Prop := feed.IsChain fun a b => b = none ∨ a ≠ b

/-- What the context of a device remembers of its button. -/
def rememberedBtn (bd : BleDev) : Option CStr :=
  if bd.btnSet then some (btnText bd.lastBtn) else none

/-- What the button of a device shows: the live value of the manager, or the simulated one. -/
def shownButton (b : BleBackend M A) (mgr : M) (di : ℕ) (bd : BleDev) : Bool :=
  (b.button mgr di).getD bd.tag.buttonState

/-- **The publication stands for the device at its place**: it names that device, and is of its
button or of its temperature. -/
def PublishedFor (start : BleLoop M) (i : ℕ) (m : HesClmeMsg) : Prop :=
  ∃ boot, start.sys.reg.devices[i]? = some boot ∧
    ((hesDevObjectFind boot hesLxBtnCv).isSome ∧
        (∃ pressed, m = pollEvent boot hesLxBtnCv (btnText pressed)) ∨
      ∃ obj ∈ boot.objects, obj.isRead = true ∧ obj.path = hesLxTempCv ∧
        ∃ val, m = pollEvent boot hesLxTempCv val)

/-- **The invariant** of the module: the devices are those of the start, the contexts remember the
feeds of their buttons, nothing is published twice in a row, and each publication stands for its
device. -/
structure ButtonsKept (start s : BleLoop M) : Prop where
  devices : identities s.sys.reg = identities start.sys.reg
  places : s.devs.length = s.sys.reg.devices.length
  remembered : ∀ i last, (s.devs.map rememberedBtn)[i]? = some last →
    (buttonFeed i s.trace).getLast?.join = last
  fresh : ∀ i, NoRepeat (buttonFeed i s.trace)
  published : ∀ i m, .publish i m ∈ s.trace → PublishedFor start i m

/-- INTERNAL: an event adds its own entry to the feed. -/
theorem buttonFeed_log (s : BleLoop M) (i : ℕ) (e : BleEvent) :
    buttonFeed i (s.log e).trace = buttonFeed i s.trace ++ (buttonEntry i e).toList := by
  show List.filterMap _ (s.trace ++ [e]) = _
  rw [List.filterMap_append]
  unfold buttonFeed
  cases h : buttonEntry i e with
  | none => rw [List.filterMap_cons_none h, List.filterMap_nil, Option.toList_none]
  | some v => rw [List.filterMap_cons_some h, List.filterMap_nil, Option.toList_some]

/-- INTERNAL: a feed goes on with a link that comes up, or with what is not its last entry. -/
theorem NoRepeat.snoc (feed : List (Option CStr)) (h : NoRepeat feed) (v : Option CStr)
    (hv : v = none ∨ feed.getLast?.join ≠ v) : NoRepeat (feed ++ [v]) := by
  refine List.isChain_append.mpr ⟨h, List.isChain_singleton _, fun a ha b hb => ?_⟩
  rw [List.head?_cons, Option.mem_def, Option.some.injEq] at hb
  subst hb
  refine hv.imp_right fun hne heq => hne ?_
  rw [Option.mem_def.mp ha, heq]
  rfl

/-- INTERNAL: **what leaves a button alone**: the registry keeps its devices, the contexts what they
remember, and nothing is noted for any button. -/
theorem ButtonsKept.same (start s s' : BleLoop M) (h : ButtonsKept start s)
    (hreg : identities s'.sys.reg = identities s.sys.reg)
    (hdevs : s'.devs.map rememberedBtn = s.devs.map rememberedBtn)
    (hfeed : ∀ i, buttonFeed i s'.trace = buttonFeed i s.trace)
    (hpub : ∀ i m, .publish i m ∈ s'.trace → .publish i m ∈ s.trace ∨ PublishedFor start i m) :
    ButtonsKept start s' where
  devices := hreg.trans h.devices
  places := by
    have hlength := congrArg List.length hdevs
    have hplaces := congrArg List.length hreg
    rw [List.length_map, List.length_map] at hlength
    unfold identities at hplaces
    rw [List.length_map, List.length_map] at hplaces
    rw [hlength, hplaces, h.places]
  remembered := fun i last hlast => by
    rw [hfeed]
    exact h.remembered i last (hdevs ▸ hlast)
  fresh := fun i => by
    rw [hfeed]
    exact h.fresh i
  published := fun i m hm => (hpub i m hm).elim (h.published i m) id

/-- INTERNAL: **what happens to one button**: its feed goes on with an entry that is remembered of
it from then on; the others are left alone. -/
theorem ButtonsKept.entry (start s s' : BleLoop M) (h : ButtonsKept start s) (i : ℕ)
    (e : BleEvent) (v : Option CStr)
    (hentry : ∀ j, buttonEntry j e = if i = j then some v else none)
    (htrace : s'.trace = (s.log e).trace)
    (hreg : identities s'.sys.reg = identities s.sys.reg)
    (hlength : s'.devs.length = s.devs.length)
    (hothers : ∀ j, i ≠ j → s'.devs[j]? = s.devs[j]?)
    (hself : ∀ bd, s'.devs[i]? = some bd → rememberedBtn bd = v)
    (hnew : v = none ∨ (buttonFeed i s.trace).getLast?.join ≠ v)
    (hpub : ∀ j m, e = .publish j m → PublishedFor start j m) : ButtonsKept start s' where
  devices := hreg.trans h.devices
  places := by
    have hplaces := congrArg List.length hreg
    unfold identities at hplaces
    rw [List.length_map, List.length_map] at hplaces
    rw [hlength, hplaces, h.places]
  remembered := fun j last hlast => by
    rw [htrace, buttonFeed_log, hentry]
    rw [List.getElem?_map] at hlast
    obtain ⟨bd, hbd, rfl⟩ := Option.map_eq_some_iff.mp hlast
    by_cases hij : i = j
    · subst hij
      rw [if_pos rfl, Option.toList_some, List.getLast?_concat, Option.join_some, hself bd hbd]
    · rw [if_neg hij, Option.toList_none, List.append_nil]
      apply h.remembered
      rw [List.getElem?_map, ← hothers j hij, hbd, Option.map_some]
  fresh := fun j => by
    rw [htrace, buttonFeed_log, hentry]
    by_cases hij : i = j
    · subst hij
      rw [if_pos rfl, Option.toList_some]
      exact (h.fresh i).snoc _ v hnew
    · rw [if_neg hij, Option.toList_none, List.append_nil]
      exact h.fresh j
  published := fun j m hm => by
    rw [htrace] at hm
    have hm : BleEvent.publish j m ∈ s.trace ++ [e] := hm
    rcases List.mem_append.mp hm with hm | hm
    · exact h.published j m hm
    · exact hpub j m (List.mem_singleton.mp hm).symm

/-! ## Reading -/

section Steps

variable (b : BleBackend M A) (temp : ℕ → CStr)

/-- INTERNAL: **a reading shows** what the button shows from then on. -/
theorem readButtonAny_shown (mgr : M) (now : ℤ) (di : ℕ) (st : SensorTag) (btnSet lastBtn : Bool) :
    shownButton b mgr di ⟨(readButtonAny b mgr now di st).1, btnSet, lastBtn⟩ =
      (readButtonAny b mgr now di st).2 := by
  unfold shownButton readButtonAny
  cases b.button mgr di with
  | some pressed => rfl
  | none =>
    rw [Option.getD_none]
    unfold sensortagReadButton
    dsimp only
    split <;> rfl

/-- INTERNAL: only the button is read out of the tag. -/
theorem bleReadObject_other (mgr : M) (now : ℤ) (text : CStr) (di : ℕ) (path : CStr)
    (st : SensorTag) (h : path ≠ hesLxBtnCv) :
    bleReadObject b mgr now text di path st =
      (st, if path = hesLxTempCv then some (boundedCopy 32 text) else none) := by
  unfold bleReadObject
  rw [if_neg h]
  split <;> rfl

/-- INTERNAL: a device that remembers the same button may be replaced. -/
theorem set_remembered (devs : List BleDev) (i : ℕ) (bd bd' : BleDev) (hbd : devs[i]? = some bd)
    (h : rememberedBtn bd' = rememberedBtn bd) :
    (devs.set i bd').map rememberedBtn = devs.map rememberedBtn := by
  rw [List.map_set, h]
  apply List.ext_getElem?
  intro j
  rw [List.getElem?_set]
  split
  · next hij =>
    subst hij
    rw [List.getElem?_map, hbd, Option.map_some]
    split
    · rfl
    · next hi =>
      rw [List.length_map] at hi
      exact absurd (List.getElem?_eq_some_iff.mp hbd).1 hi
  · rfl

/-- INTERNAL: an event that is nothing for any button leaves the feeds as they are. -/
theorem buttonFeed_other (s : BleLoop M) (e : BleEvent) (h : ∀ i, buttonEntry i e = none) (i : ℕ) :
    buttonFeed i (s.log e).trace = buttonFeed i s.trace := by
  rw [buttonFeed_log, h i, Option.toList_none, List.append_nil]

/-- INTERNAL: a publication of the longer trace was there before, or is the new event. -/
theorem publish_mem_log (s : BleLoop M) (e : BleEvent) (i : ℕ) (m : HesClmeMsg)
    (h : .publish i m ∈ (s.log e).trace) : .publish i m ∈ s.trace ∨ e = .publish i m := by
  have h : BleEvent.publish i m ∈ s.trace ++ [e] := h
  rcases List.mem_append.mp h with h | h
  · exact Or.inl h
  · exact Or.inr (List.mem_singleton.mp h).symm

/-- INTERNAL: the note of an event that is nothing for any button, and no publication. -/
theorem ButtonsKept.note (start s : BleLoop M) (h : ButtonsKept start s) (e : BleEvent)
    (hentry : ∀ i, buttonEntry i e = none) (hpub : ∀ i m, e ≠ .publish i m) :
    ButtonsKept start (s.log e) :=
  h.same start s _ rfl rfl (buttonFeed_other s e hentry) fun i m hm =>
    (publish_mem_log s e i m hm).elim Or.inl fun heq => absurd heq (hpub i m)

/-- INTERNAL: a reading leaves alone what is remembered. -/
theorem ButtonsKept.readTag (start s : BleLoop M) (h : ButtonsKept start s) (i : ℕ) (bd : BleDev)
    (hbd : s.devs[i]? = some bd) (tag : SensorTag) :
    ButtonsKept start { s with devs := s.devs.set i { bd with tag := tag } } :=
  h.same start s _ rfl (set_remembered s.devs i bd _ hbd rfl) (fun _ => rfl) fun _ _ hm => Or.inl hm

/-- INTERNAL: **a message** from the bus leaves the buttons alone. -/
theorem bleTakeFrame_kept (start s : BleLoop M) (h : ButtonsKept start s) (now : ℤ)
    (m : HesClmeMsg) : ButtonsKept start (bleTakeFrame b temp now m s) := by
  have hframe := h.note start s (.frame m) (fun _ => rfl) fun _ _ => BleEvent.noConfusion
  unfold bleTakeFrame
  dsimp only
  split
  · unfold bleGet
    split
    · exact hframe
    · next i dev obj bd hfound =>
      simp only [Option.bind_eq_bind, Option.bind_eq_some_iff, Option.some.injEq,
        Prod.mk.injEq] at hfound
      obtain ⟨_, -, _, -, _, -, bd', hbd, rfl, rfl, rfl, rfl⟩ := hfound
      split
      · have hread := fun tag => hframe.readTag start _ _ _ hbd tag
        dsimp only
        split
        · exact (hread _).note start _ _ (fun _ => rfl) fun _ _ => BleEvent.noConfusion
        · exact hread _
      · exact hframe
  · exact hframe

/-- INTERNAL: a notification leaves them alone. -/
theorem takeNotification_kept (start s : BleLoop M) (h : ButtonsKept start s) :
    ButtonsKept start { s with sys := s.sys.takeNotification } :=
  h.same start s _ (identities_takeNotification s.sys) rfl (fun _ => rfl) fun _ _ hm => Or.inl hm

/-- INTERNAL: listening keeps what is known of the buttons. -/
theorem bleListen_kept (start s : BleLoop M) (h : ButtonsKept start s) (turn : BleTurn A) :
    ButtonsKept start (bleListen b temp turn s) := by
  have hframe : ButtonsKept start
      (turn.frame.elim s fun m => bleTakeFrame b temp turn.getAt m s) := by
    cases turn.frame with
    | none => exact h
    | some m => exact bleTakeFrame_kept b temp start s h turn.getAt m
  unfold bleListen
  dsimp only
  split
  · exact takeNotification_kept start _ hframe
  · exact hframe

/-! ## Links -/

/-- INTERNAL: a flag is no part of an identity. -/
theorem identities_setOnline (reg : HesDevreg) (di : ℕ) (online : Bool) :
    identities (setOnline reg di online) = identities reg :=
  map_updateFirst _ _ _ _ fun _ => rfl

/-- INTERNAL: a link event leaves the identities. -/
theorem identities_takeLinkEvent (sys : BleSystem) (ev : HesBleEvent) (t : Exchange) :
    identities (sys.takeLinkEvent ev t).reg = identities sys.reg := by
  unfold BleSystem.takeLinkEvent
  split
  · rfl
  · split
    · rw [report_reg]
      exact identities_setOnline sys.reg _ true
    · split
      · rw [report_reg]
        exact identities_setOnline sys.reg _ false
      · rfl

/-- INTERNAL: **a link event** is taken; where the link comes up, what was published of the button
is forgotten. -/
theorem takeLink_kept (start s : BleLoop M) (h : ButtonsKept start s) (exchange : ℕ → Exchange)
    (ev : HesBleEvent × ℕ) : ButtonsKept start (takeLink exchange s ev) := by
  unfold takeLink
  split
  · exact h
  · next i hi =>
    have hsys := h.same start s { s with sys := s.sys.takeLinkEvent ev.1 (exchange ev.2) }
      (identities_takeLinkEvent s.sys _ _) rfl (fun _ => rfl) fun _ _ hm => Or.inl hm
    dsimp only
    split
    · refine hsys.entry start _ _ i (.linkUp i) none (fun _ => rfl) rfl rfl
        (List.length_modify ..) (fun j hij => ?_) (fun bd hbd => ?_) (Or.inl rfl)
        fun _ _ => BleEvent.noConfusion
      · show (s.devs.modify i _)[j]? = s.devs[j]?
        rw [List.getElem?_modify]
        simp [hij]
      · have hbd : (s.devs.modify i fun bd => { bd with btnSet := false })[i]? = some bd := hbd
        rw [List.getElem?_modify] at hbd
        obtain ⟨bd₀, -, rfl⟩ := Option.map_eq_some_iff.mp hbd
        rw [if_pos rfl]
        rfl
    · exact hsys

/-! ## Publications -/

/-- INTERNAL: the two button texts are different. -/
theorem btnText_injective (p q : Bool) (h : btnText p = btnText q) : p = q := by
  revert p q
  decide

/-- INTERNAL: a button is published under its path, with its text. -/
theorem pollEvent_button (dev : HesDevice) (pressed : Bool) :
    (pollEvent dev hesLxBtnCv (btnText pressed)).path = hesLxBtnCv ∧
      (pollEvent dev hesLxBtnCv (btnText pressed)).payload = btnText pressed := by
  refine ⟨?_, ?_⟩
  · show boundedCopy hesPathMax hesLxBtnCv = hesLxBtnCv
    decide +kernel
  · show boundedCopy hesPayloadMax (btnText pressed) = btnText pressed
    revert pressed
    decide +kernel

/-- INTERNAL: a poll's publication is an entry of its own button only. -/
theorem buttonEntry_publish (i j : ℕ) (dev : HesDevice) (pressed : Bool) :
    buttonEntry j (.publish i (pollEvent dev hesLxBtnCv (btnText pressed))) =
      if i = j then some (some (btnText pressed)) else none := by
  obtain ⟨hpath, hpayload⟩ := pollEvent_button dev pressed
  unfold buttonEntry
  dsimp only
  rw [hpayload, hpath]
  simp only [and_true]

/-- INTERNAL: what is published of a device at its place stands for the device of the start. -/
theorem ButtonsKept.publishedFor (start s : BleLoop M) (h : ButtonsKept start s) (dev : HesDevice)
    (i : ℕ) (hdev : s.sys.reg.devices[i]? = some dev) (m : HesClmeMsg)
    (hm : (hesDevObjectFind dev hesLxBtnCv).isSome ∧
        (∃ pressed, m = pollEvent dev hesLxBtnCv (btnText pressed)) ∨
      ∃ obj ∈ dev.objects, obj.isRead = true ∧ obj.path = hesLxTempCv ∧
        ∃ val, m = pollEvent dev hesLxTempCv val) : PublishedFor start i m := by
  obtain ⟨boot, hboot, hindex, hobjects⟩ := device_of_identities _ _ h.devices i dev hdev
  have hsame : ∀ path val, pollEvent dev path val = pollEvent boot path val := by
    intro path val
    unfold pollEvent
    rw [hindex]
  refine ⟨boot, hboot, ?_⟩
  unfold hesDevObjectFind at hm ⊢
  simp only [hsame] at hm
  rw [hobjects]
  exact hm

/-- The context of the device at a place remembers what its button shows. -/
def ShownAt (s : BleLoop M) (dev : HesDevice) (i : ℕ) : Prop :=
  ∃ bd, s.devs[i]? = some bd ∧
    rememberedBtn bd = some (btnText (shownButton b s.mgr dev.deviceIndex bd))

/-- INTERNAL: **the turn of a button**: only its own context is touched, and remembers what the
button shows. -/
theorem publishButton_spec (start s : BleLoop M) (h : ButtonsKept start s) (now : ℕ → ℤ)
    (p : HesDevice × ℕ) (hp : s.sys.reg.devices[p.2]? = some p.1) :
    ButtonsKept start (publishButton b now s p) ∧
      (publishButton b now s p).sys = s.sys ∧ (publishButton b now s p).mgr = s.mgr ∧
      (∀ j, p.2 ≠ j → (publishButton b now s p).devs[j]? = s.devs[j]?) ∧
      (onlineWith hesLxBtnCv p.1 = true → ShownAt b (publishButton b now s p) p.1 p.2) := by
  have hplace : p.2 < s.devs.length := h.places ▸ (List.getElem?_eq_some_iff.mp hp).1
  obtain ⟨bd, hbd⟩ : ∃ bd, s.devs[p.2]? = some bd := ⟨_, List.getElem?_eq_getElem hplace⟩
  unfold publishButton
  by_cases hwith : onlineWith hesLxBtnCv p.1 = true
  · rw [if_pos hwith, hbd]
    dsimp only
    have hshown := readButtonAny_shown b s.mgr (now p.2) p.1.deviceIndex bd.tag
    generalize readButtonAny b s.mgr (now p.2) p.1.deviceIndex bd.tag = read at hshown ⊢
    have hlast := h.remembered p.2 (rememberedBtn bd)
      (by rw [List.getElem?_map, hbd, Option.map_some])
    split
    · next hchanged =>
      have hset : (s.devs.set p.2 ⟨read.1, true, read.2⟩)[p.2]? = some ⟨read.1, true, read.2⟩ :=
        List.getElem?_set_self hplace
      refine ⟨?_, rfl, rfl, fun j hij => List.getElem?_set_ne hij, fun _ => ⟨_, hset, ?_⟩⟩
      · refine h.entry start s _ p.2 _ (some (btnText read.2))
          (fun j => buttonEntry_publish p.2 j p.1 read.2) rfl rfl (List.length_set ..)
          (fun j hij => List.getElem?_set_ne hij) (fun bd' hbd' => ?_) (Or.inr ?_)
          fun j m hm => ?_
        · rw [← Option.some.inj (hset.symm.trans hbd')]
          rfl
        · -- What is remembered of the button is nothing, or another value.
          rw [hlast]
          unfold rememberedBtn
          split
          · next hset =>
            rw [hset, Bool.not_true, Bool.false_or, bne_iff_ne] at hchanged
            exact fun heq => hchanged (btnText_injective _ _ (Option.some.inj heq)).symm
          · exact (Option.some_ne_none _).symm
        · cases hm
          rw [onlineWith, Bool.and_eq_true] at hwith
          exact h.publishedFor start s p.1 p.2 hp _ (Or.inl ⟨hwith.2, read.2, rfl⟩)
      · show some (btnText read.2) = some (btnText (shownButton b s.mgr _ ⟨read.1, true, read.2⟩))
        rw [hshown]
    · next hsame =>
      rw [Bool.not_eq_true, Bool.or_eq_false_iff, Bool.not_eq_false', bne_eq_false_iff_eq] at hsame
      refine ⟨h.readTag start s p.2 bd hbd read.1, rfl, rfl,
        fun j hij => List.getElem?_set_ne hij, fun _ => ⟨_, List.getElem?_set_self hplace, ?_⟩⟩
      show rememberedBtn bd = some (btnText (shownButton b s.mgr _ ⟨read.1, _, _⟩))
      rw [hshown, hsame.2]
      exact if_pos hsame.1
  · rw [if_neg hwith]
    exact ⟨h, rfl, rfl, fun _ _ => rfl, fun hon => absurd hon hwith⟩

/-- INTERNAL: **the turns of all buttons.** -/
theorem publishButtons_spec (start : BleLoop M) (now : ℕ → ℤ) (items : List (HesDevice × ℕ))
    (hplaces : (items.map Prod.snd).Nodup) (s : BleLoop M) (h : ButtonsKept start s)
    (hitems : ∀ p ∈ items, s.sys.reg.devices[p.2]? = some p.1) :
    ButtonsKept start (items.foldl (publishButton b now) s) ∧
      (items.foldl (publishButton b now) s).sys = s.sys ∧
      (items.foldl (publishButton b now) s).mgr = s.mgr ∧
      (∀ j, j ∉ items.map Prod.snd →
        (items.foldl (publishButton b now) s).devs[j]? = s.devs[j]?) ∧
      ∀ p ∈ items, onlineWith hesLxBtnCv p.1 = true →
        ShownAt b (items.foldl (publishButton b now) s) p.1 p.2 := by
  induction items generalizing s with
  | nil => exact ⟨h, rfl, rfl, fun _ _ => rfl, fun p hp => absurd hp List.not_mem_nil⟩
  | cons p rest ih =>
    rw [List.map_cons, List.nodup_cons] at hplaces
    obtain ⟨hkept, hsys, hmgr, hothers, hshown⟩ :=
      publishButton_spec b start s h now p (hitems p List.mem_cons_self)
    obtain ⟨hkept', hsys', hmgr', hothers', hshown'⟩ := ih hplaces.2 (publishButton b now s p) hkept
      fun q hq => by
        rw [hsys]
        exact hitems q (List.mem_cons_of_mem _ hq)
    rw [List.foldl_cons]
    refine ⟨hkept', hsys'.trans hsys, hmgr'.trans hmgr, fun j hj => ?_, fun q hq hwith => ?_⟩
    · rw [List.map_cons, List.mem_cons, not_or] at hj
      rw [hothers' j hj.2, hothers j fun heq => hj.1 heq.symm]
    · rcases List.mem_cons.mp hq with rfl | hq
      · obtain ⟨bd, hbd, hlast⟩ := hshown hwith
        refine ⟨bd, (hothers' q.2 hplaces.1).trans hbd, ?_⟩
        rw [hmgr']
        exact hlast
      · exact hshown' q hq hwith

/-- INTERNAL: the publication of an object on the timer is one of the temperature, or none. -/
theorem publishObject_cases (now : ℤ) (p : HesDevice × ℕ) (s : BleLoop M) (obj : HesDevObject) :
    publishObject b temp now p s obj = s ∨
      obj.isRead = true ∧ obj.path = hesLxTempCv ∧ ∃ val,
        publishObject b temp now p s obj = s.log (.publish p.2 (pollEvent p.1 hesLxTempCv val)) := by
  unfold publishObject
  split
  · exact Or.inl rfl
  · next hother =>
    rw [Bool.or_eq_true, Bool.not_eq_true', decide_eq_true_iff, not_or, Bool.not_eq_false]
      at hother
    split
    · exact Or.inl rfl
    · next bd hbd =>
      obtain ⟨hi, hget⟩ := List.getElem?_eq_some_iff.mp hbd
      have hsame : s.devs.set p.2 bd = s.devs := by
        rw [← hget]
        exact List.set_getElem_self hi
      rw [bleReadObject_other b _ _ _ _ _ _ hother.2]
      dsimp only
      rw [hsame]
      by_cases htemp : obj.path = hesLxTempCv
      · rw [if_pos htemp, htemp]
        exact Or.inr ⟨hother.1, rfl, _, rfl⟩
      · rw [if_neg htemp]
        exact Or.inl rfl

/-- A step that leaves the registry, the manager and the contexts as they are. -/
structure LeavesDevices (s s' : BleLoop M) : Prop where
  sys : s'.sys = s.sys
  mgr : s'.mgr = s.mgr
  devs : s'.devs = s.devs

/-- INTERNAL: publishing an object keeps what is known of the buttons, and leaves the devices. -/
theorem publishObject_kept (start s : BleLoop M) (h : ButtonsKept start s) (now : ℤ)
    (p : HesDevice × ℕ) (hp : s.sys.reg.devices[p.2]? = some p.1) (obj : HesDevObject)
    (hobj : obj ∈ p.1.objects) : ButtonsKept start (publishObject b temp now p s obj) ∧
      LeavesDevices s (publishObject b temp now p s obj) := by
  rcases publishObject_cases b temp now p s obj with hnone | ⟨hread, htemp, val, hpub⟩
  · rw [hnone]
    exact ⟨h, rfl, rfl, rfl⟩
  · rw [hpub]
    refine ⟨?_, rfl, rfl, rfl⟩
    have hentry : ∀ i, buttonEntry i (.publish p.2 (pollEvent p.1 hesLxTempCv val)) = none := by
      intro i
      apply if_neg
      rintro ⟨-, hpath⟩
      have hpath : boundedCopy hesPathMax hesLxTempCv = hesLxBtnCv := hpath
      revert hpath
      decide +kernel
    refine h.same start s _ rfl rfl (buttonFeed_other s _ hentry) fun i m hm => ?_
    refine (publish_mem_log s _ i m hm).imp_right fun heq => ?_
    cases heq
    exact h.publishedFor start s p.1 p.2 hp _ (Or.inr ⟨obj, hobj, hread, htemp, val, rfl⟩)

/-- INTERNAL: leaving the devices goes from state to state. -/
theorem LeavesDevices.trans (s t u : BleLoop M) (h : LeavesDevices s t) (h' : LeavesDevices t u) :
    LeavesDevices s u := ⟨h'.sys.trans h.sys, h'.mgr.trans h.mgr, h'.devs.trans h.devs⟩

/-- INTERNAL: a loop whose turns leave the devices alone. -/
theorem keptLoop {α : Type} (start s : BleLoop M) (turn : BleLoop M → α → BleLoop M)
    (items : List α) (t : BleLoop M) (ht : ButtonsKept start t) (hleaves : LeavesDevices s t)
    (hturn : ∀ t a, a ∈ items → ButtonsKept start t → LeavesDevices s t →
      ButtonsKept start (turn t a) ∧ LeavesDevices t (turn t a)) :
    ButtonsKept start (items.foldl turn t) ∧ LeavesDevices s (items.foldl turn t) := by
  induction items generalizing t with
  | nil => exact ⟨ht, hleaves⟩
  | cons a rest ih =>
    obtain ⟨hkept, hstep⟩ := hturn t a List.mem_cons_self ht hleaves
    exact ih (turn t a) hkept (hleaves.trans _ _ _ hstep) fun t a ha =>
      hturn t a (List.mem_cons_of_mem _ ha)

/-- INTERNAL: every state leaves its devices. -/
theorem LeavesDevices.refl (s : BleLoop M) : LeavesDevices s s := ⟨rfl, rfl, rfl⟩

/-- INTERNAL: **the publications of the timer** leave the buttons alone. -/
theorem publishPeriodic_kept (start s : BleLoop M) (h : ButtonsKept start s) (now : ℤ) :
    ButtonsKept start (publishPeriodic b temp now s) ∧
      LeavesDevices s (publishPeriodic b temp now s) := by
  refine keptLoop start s _ _ s h (.refl s) fun t p hp ht hleaves => ?_
  have hplace : t.sys.reg.devices[p.2]? = some p.1 := by
    rw [hleaves.sys]
    exact List.mem_zipIdx_iff_getElem?.mp hp
  split
  · refine keptLoop start t _ _ t ht (.refl t) fun u obj hobj hu hsame => ?_
    exact publishObject_kept b temp start u hu now p (by rw [hsame.sys]; exact hplace) obj hobj
  · exact ⟨ht, .refl t⟩

/-! ## Runs -/

/-- INTERNAL: **a pass** keeps the invariant, and behind it the contexts of all online devices
remember what their buttons show. -/
theorem bleTurn_kept (start s s' : BleLoop M) (h : ButtonsKept start s) (turn : BleTurn A)
    (hturn : bleTurn b temp s turn = some s') : ButtonsKept start s' ∧
      ∀ i dev, s'.sys.reg.devices[i]? = some dev → onlineWith hesLxBtnCv dev = true →
        ShownAt b s' dev i := by
  obtain ⟨⟨mgr, evs⟩, -, rfl⟩ := Option.map_eq_some_iff.mp hturn
  have hlisten := bleListen_kept b temp start s h turn
  have hpolled : ButtonsKept start { bleListen b temp turn s with mgr := mgr } :=
    hlisten.same start _ _ rfl rfl (fun _ => rfl) fun _ _ hm => Or.inl hm
  have hlinks : ButtonsKept start (evs.zipIdx.foldl (takeLink turn.exchange)
      { bleListen b temp turn s with mgr := mgr }) := by
    generalize evs.zipIdx = items
    generalize { bleListen b temp turn s with mgr := mgr } = t at hpolled
    induction items generalizing t with
    | nil => exact hpolled
    | cons ev rest ih => exact ih _ (takeLink_kept start t hpolled turn.exchange ev)
  dsimp only
  generalize evs.zipIdx.foldl (takeLink turn.exchange) _ = linked at hlinks ⊢
  have hplaces : (linked.sys.reg.devices.zipIdx.map Prod.snd).Nodup := by
    rw [List.zipIdx_map_snd]
    exact List.nodup_range'
  obtain ⟨hbuttons, hsys, -, -, hshown⟩ := publishButtons_spec b start turn.buttonAt
    linked.sys.reg.devices.zipIdx hplaces linked hlinks
    fun _ hp => List.mem_zipIdx_iff_getElem?.mp hp
  have hall : ∀ i dev, (publishButtons b turn.buttonAt linked).sys.reg.devices[i]? = some dev →
      onlineWith hesLxBtnCv dev = true → ShownAt b (publishButtons b turn.buttonAt linked) dev i := by
    intro i dev hdev
    refine hshown ⟨dev, i⟩ (List.mem_zipIdx_iff_getElem?.mpr ?_)
    rw [← hsys]
    exact hdev
  split
  · have hstamped : ButtonsKept start
        { publishButtons b turn.buttonAt linked with lastPublish := turn.publishAt } :=
      hbuttons.same start _ _ rfl rfl (fun _ => rfl) fun _ _ hm => Or.inl hm
    obtain ⟨hkept, hleaves⟩ := publishPeriodic_kept b temp start _ hstamped turn.publishAt
    refine ⟨hkept, fun i dev hdev hwith => ?_⟩
    rw [hleaves.sys] at hdev
    obtain ⟨bd, hbd, hlast⟩ := hall i dev hdev hwith
    refine ⟨bd, ?_, ?_⟩
    · rw [hleaves.devs]
      exact hbd
    · rw [hleaves.mgr]
      exact hlast
  · exact ⟨hbuttons, hall⟩

/-- INTERNAL: the start keeps the invariant. -/
theorem hanBleStart_kept (armed : Bool) (pf : MsProfile) (moduleRef : ℕ)
    (macOverride : Option CStr) (t : Exchange) (now : ℤ) (start : BleLoop M)
    (h : hanBleStart b armed pf moduleRef macOverride t now = some start) :
    ButtonsKept start start := by
  obtain ⟨sys, -, rfl⟩ := Option.map_eq_some_iff.mp h
  refine ⟨rfl, List.length_map _, fun i last hlast => ?_, fun i => List.isChain_nil,
    fun i m hm => absurd hm List.not_mem_nil⟩
  rw [List.map_map, List.getElem?_map] at hlast
  obtain ⟨d, -, rfl⟩ := Option.map_eq_some_iff.mp hlast
  show none = rememberedBtn (bootTag armed now d)
  unfold bootTag
  split <;> rfl

/-- INTERNAL: **a run** keeps the invariant. -/
theorem bleLoop_kept (start : BleLoop M) (turns : List (BleTurn A)) (s s' : BleLoop M)
    (h : ButtonsKept start s) (hrun : bleLoop b temp s turns = some s') : ButtonsKept start s' := by
  induction turns generalizing s with
  | nil =>
    cases hrun
    exact h
  | cons turn rest ih =>
    unfold bleLoop at hrun
    rw [List.foldlM_cons] at hrun
    obtain ⟨t, ht, hrest⟩ := Option.bind_eq_some_iff.mp hrun
    exact ih t (bleTurn_kept b temp start s t h turn ht).1 hrest

/-- **The buttons are told on change.** In every run of the module over any backend, a button is
never published twice with one value in a row unless its link has come up between; each publication
names the device at its place; and behind each pass the last publication of every online device's
button is what the button shows.
SRCLINE: han/ble/ble.c:142-216, han/ble/ble.c:387-508 -/
theorem ble_buttons_told (armed : Bool) (pf : MsProfile) (moduleRef : ℕ)
    (macOverride : Option CStr) (t : Exchange) (now : ℤ) (start : BleLoop M)
    (hstart : hanBleStart b armed pf moduleRef macOverride t now = some start)
    (turns : List (BleTurn A)) (turn : BleTurn A) (s : BleLoop M)
    (hrun : bleLoop b temp start (turns ++ [turn]) = some s) :
    (∀ i, NoRepeat (buttonFeed i s.trace)) ∧
      (∀ i m, .publish i m ∈ s.trace → PublishedFor start i m) ∧
      ∀ i dev, s.sys.reg.devices[i]? = some dev → onlineWith hesLxBtnCv dev = true →
        ∃ bd, s.devs[i]? = some bd ∧ (buttonFeed i s.trace).getLast? =
          some (some (btnText (shownButton b s.mgr dev.deviceIndex bd))) := by
  have hkept := hanBleStart_kept b armed pf moduleRef macOverride t now start hstart
  unfold bleLoop at hrun
  rw [List.foldlM_append] at hrun
  obtain ⟨u, hu, hrun⟩ := Option.bind_eq_some_iff.mp hrun
  rw [List.foldlM_cons] at hrun
  obtain ⟨v, hv, hrun⟩ := Option.bind_eq_some_iff.mp hrun
  cases hrun
  obtain ⟨hend, hshown⟩ := bleTurn_kept b temp start u s
    (bleLoop_kept b temp start turns start u hkept hu) turn hv
  refine ⟨hend.fresh, hend.published, fun i dev hdev hwith => ?_⟩
  obtain ⟨bd, hbd, hlast⟩ := hshown i dev hdev hwith
  refine ⟨bd, hbd, ?_⟩
  have hjoin := hend.remembered i (rememberedBtn bd)
    (by rw [List.getElem?_map, hbd, Option.map_some])
  rw [hlast] at hjoin
  exact Option.join_eq_some_iff.mp hjoin

end Steps

/-- A module with one tag. -/
def oneTag : MsModule where
  moduleType := lit "hi"
  moduleRefIndex := 1
  serviceModuleType := []
  networkType := []
  devs := [{
    deviceIndex := 3
    netRefIndex := 1
    role := []
    expectedHardware := []
    networkType := []
    objects := [⟨hesLxBtnCv, lit "r"⟩, ⟨hesLxTempCv, lit "r"⟩] }]

/-- A pass at an instant that hears the answers of D-Bus. -/
def tagTurn (now : ℤ) (answers : BluezAnswers) : BleTurn BluezAnswers where
  frame := none
  notified := false
  getAt := now
  pollAt := now
  answers := answers
  exchange := fun _ => .answered
  buttonAt := fun _ => now
  publishAt := now

/-- The tag is found, connects and is pressed. -/
def tagTurns : List (BleTurn BluezAnswers) :=
  [tagTurn 0 { device := fun _ => tagAnswers true },
    tagTurn 3 { device := fun _ => tagAnswers true, char := fun _ => true },
    tagTurn 5 { signals := [.value 0 [1]], device := fun _ => tagAnswers true }]

/-- A tag over BlueZ whose button is pressed and whose link is lost and comes up again. -/
theorem ble_buttons_told_tag :
    ∃ start s, hanBleStart (bluezBackend true) false ⟨[oneTag]⟩ 1 none .answered 0 = some start ∧
      bleLoop (bluezBackend true) (fun _ => lit "22.00") start
        (tagTurns ++ [tagTurn 6 { device := fun _ => tagAnswers true }]) = some s ∧
      buttonFeed 0 s.trace = [none, some (lit "0"), some (lit "1")] ∧
      NoRepeat (buttonFeed 0 s.trace) := by
  have hrun : ((hanBleStart (bluezBackend true) false ⟨[oneTag]⟩ 1 none .answered 0).any
      fun start => (bleLoop (bluezBackend true) (fun _ => lit "22.00") start
          (tagTurns ++ [tagTurn 6 { device := fun _ => tagAnswers true }])).any
        fun s => buttonFeed 0 s.trace = [none, some (lit "0"), some (lit "1")]) = true := by
    decide +kernel
  obtain ⟨start, hstart, hrun⟩ := Option.any_eq_true _ _ |>.mp hrun
  obtain ⟨s, hs, hfeed⟩ := Option.any_eq_true _ _ |>.mp hrun
  exact ⟨start, s, hstart, hs, of_decide_eq_true hfeed,
    (ble_buttons_told (bluezBackend true) (fun _ => lit "22.00") false ⟨[oneTag]⟩ 1 none .answered 0
      start hstart tagTurns _ s hs).1 0⟩

end OpenHes.Analysis
