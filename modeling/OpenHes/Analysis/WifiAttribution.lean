import OpenHes.Analysis.AddressedDevice
import OpenHes.Analysis.SliceRoundTrip
import OpenHes.Library.Trace
import OpenHes.Model.HanWifi

/-!
# What the WiFi module sends, and on whose behalf

Every command to a lamp belongs to the PUT in front of it and goes to the address that was
registered for the device which that PUT resolves to; every EVENT carries what the call in front
of it has read from the device that the EVENT names. Merges, polls and reports change neither the
places of the devices nor their objects, which is why a client stays with its device.
-/

set_option autoImplicit false

namespace OpenHes.Analysis

open OpenHes.Library OpenHes.Model

/-! ## The devices of a run -/

/-- What a run leaves as it is of a device. -/
def deviceIdentity (d : HesDevice) : ℕ × List HesDevObject := (d.deviceIndex, d.objects)

/-- What it leaves as it is of a registry. -/
def identities (reg : HesDevreg) : List (ℕ × List HesDevObject) := reg.devices.map deviceIdentity

/-- A client, and the device that it was opened for at the start. -/
structure OpenedFor (start : WifiState) (w : WifiDev) (boot : HesDevice) : Prop where
  client : w ∈ start.devs
  device : start.sys.reg.devices[w.regIdx]? = some boot
  ip : w.ip = boot.address
  port : w.port = boot.udpPort

/-- INTERNAL: merging a slice keeps the identities. -/
theorem identities_mergeSlice (reg upd : HesDevreg) :
    identities (mergeSlice reg upd) = identities reg := by
  unfold identities mergeSlice
  dsimp only
  rw [List.map_map]
  apply List.map_congr_left
  intro d _
  show deviceIdentity (mergeDevice upd d) = deviceIdentity d
  unfold mergeDevice
  split <;> rfl

/-- INTERNAL: so does the flag of a device. -/
theorem identities_setOnlineAt (reg : HesDevreg) (i : ℕ) (online : Bool) :
    identities (setOnlineAt reg i online) = identities reg := by
  unfold identities setOnlineAt
  dsimp only
  apply List.ext_getElem?
  intro j
  rw [List.getElem?_map, List.getElem?_map, List.getElem?_modify]
  cases reg.devices[j]? with
  | none => rfl
  | some d =>
    show some (deviceIdentity (if i = j then { d with online := online } else d)) = _
    split <;> rfl

/-- INTERNAL: so does a notification. -/
theorem identities_takeNotification (sys : BleSystem) :
    identities sys.takeNotification.reg = identities sys.reg := by
  unfold BleSystem.takeNotification
  split
  · rfl
  · split
    · rfl
    · exact identities_mergeSlice _ _

/-- INTERNAL: a report leaves the registry of the module as it is. -/
theorem report_reg (sys : BleSystem) (t : Exchange) : (sys.report t).reg = sys.reg := by
  unfold BleSystem.report
  split <;> rfl

/-- INTERNAL: the device at a place is the one of the start. -/
theorem device_of_identities (start reg : HesDevreg) (h : identities reg = identities start)
    (i : ℕ) (dev : HesDevice) (hdev : reg.devices[i]? = some dev) :
    ∃ boot, start.devices[i]? = some boot ∧ boot.deviceIndex = dev.deviceIndex ∧
      boot.objects = dev.objects := by
  have hplace := congrArg (fun l => l[i]?) h
  unfold identities at hplace
  rw [List.getElem?_map, List.getElem?_map, hdev, Option.map_some, eq_comm,
    Option.map_eq_some_iff] at hplace
  obtain ⟨boot, hboot, hsame⟩ := hplace
  exact ⟨boot, hboot, congrArg Prod.fst hsame, congrArg Prod.snd hsame⟩

/-! ## Whose behalf -/

/-- The message addresses the device at a place, by an object of it. -/
structure Addresses (reg : HesDevreg) (m : HesClmeMsg) (i : ℕ) (dev : HesDevice)
    (obj : HesDevObject) : Prop where
  resolved : resolveIndex reg m.path m.deviceIndex = some i
  device : reg.devices[i]? = some dev
  online : dev.online = true
  object : hesDevObjectFind dev m.path = some obj
  named : m.deviceIndex ≠ 0 → dev.deviceIndex = m.deviceIndex

/-- The calls that a PUT asks for: a light is switched, a level above 0 is set on a light that is
switched on first, and any other level switches it off. -/
def commandsOf (path payload : CStr) : List WizRequest :=
  if path = hesLxLightCv then [.setState (payloadToBool payload)]
  else if path = hesLxLightBrightnessCv then
    if atoi payload ≤ 0 then [.setState false]
    else [.setState true, .setBrightness (atoi payload)]
  else []

/-- What is read of an object out of a reply. -/
def readingOf (path : CStr) (reply : Option CStr) : Option CStr :=
  if path = hesLxLightCv then (wizClientGetState reply).map fun on => lit (if on then "1" else "0")
  else if path = hesLxLightBrightnessCv then
    ((wizClientGetBrightness reply).getD none).map fun v => boundedCopy 32 (fmtD v)
  else none

/-- Calls of one client, with their replies. -/
def requestsOf (w : WifiDev) (calls : List (WizRequest × Option CStr)) : List WifiEvent :=
  calls.map fun c => .request w c.1 c.2

/-- **The command stands for the PUT in front of it**: between the two there are only the calls
that the PUT asks for before it, and the PUT addresses, by an object that is written, the device
that the client was opened for. -/
def CommandOf (start : WifiState) (pre : List WifiEvent) (w : WifiDev) (req : WizRequest) : Prop :=
  ∃ before m reg calls rest dev obj boot,
    pre = before ++ .frame m reg :: requestsOf w calls ∧ m.verb = .put ∧
      commandsOf m.path m.payload = calls.map Prod.fst ++ req :: rest ∧
      Addresses reg m w.regIdx dev obj ∧ obj.isWritten = true ∧
      OpenedFor start w boot ∧ boot.deviceIndex = dev.deviceIndex

/-- **The EVENT stands for the reading in front of it**: it names the device that the client was
opened for and an object of it that is read, and carries what the reply says of that object. -/
def ReadingOf (start : WifiState) (pre : List WifiEvent) (m : HesClmeMsg) : Prop :=
  ∃ before w reply boot obj,
    pre = before ++ [.request w .getPilot reply] ∧ OpenedFor start w boot ∧ obj ∈ boot.objects ∧
      obj.isRead = true ∧ m.verb = .event ∧ m.deviceIndex = boot.deviceIndex ∧
      m.path = obj.path ∧ readingOf obj.path reply = some m.payload

/-- What is asked of an event, given the events in front of it. -/
def Attributed (start : WifiState) (pre : List WifiEvent) : WifiEvent → Prop
  | .request w req _ => req ≠ .getPilot → CommandOf start pre w req
  | .send m => ReadingOf start pre m
  | .frame _ _ | .report _ _ => True

/-- INTERNAL: what an event stands for is still there in a longer history. -/
theorem Attributed.append (start : WifiState) (more pre : List WifiEvent) (e : WifiEvent)
    (h : Attributed start pre e) : Attributed start (more ++ pre) e := by
  cases e with
  | request w req reply =>
    intro hreq
    obtain ⟨before, m, reg, calls, rest, dev, obj, boot, hpre, hcommand⟩ := h hreq
    refine ⟨more ++ before, m, reg, calls, rest, dev, obj, boot, ?_, hcommand⟩
    rw [hpre, List.append_assoc]
  | send m =>
    obtain ⟨before, w, reply, boot, obj, hpre, hreading⟩ := h
    refine ⟨more ++ before, w, reply, boot, obj, ?_, hreading⟩
    rw [hpre, List.append_assoc]
  | frame m reg => trivial
  | report reg t => trivial

/-! ## Steps -/

/-- A step keeps the clients and the devices, and all that happens in it is attributed. -/
structure AttributedStep (start s s' : WifiState) : Prop where
  devs : s'.devs = s.devs
  devices : identities s'.sys.reg = identities s.sys.reg
  events : ∃ evs, s'.trace = s.trace ++ evs ∧ EveryEvent (Attributed start) evs

/-- INTERNAL: a state is a step from itself with no events. -/
theorem AttributedStep.refl (start s : WifiState) : AttributedStep start s s :=
  ⟨rfl, rfl, [], (List.append_nil _).symm, everyEvent_nil _⟩

/-- INTERNAL: two attributed steps are one. -/
theorem AttributedStep.trans (start s t u : WifiState) (h : AttributedStep start s t)
    (h' : AttributedStep start t u) : AttributedStep start s u := by
  obtain ⟨first, hfirst, hattr⟩ := h.events
  obtain ⟨second, hsecond, hattr'⟩ := h'.events
  refine ⟨h'.devs.trans h.devs, h'.devices.trans h.devices, first ++ second, ?_, ?_⟩
  · rw [hsecond, hfirst, List.append_assoc]
  · exact hattr.append _ (Attributed.append start) _ _ hattr'

/-- INTERNAL: **a loop** whose turns are such steps is one. -/
theorem AttributedStep.loop {α : Type} (start : WifiState)
    (turn : WifiState → α → Option WifiState) (items : List α) (s s' : WifiState)
    (P : WifiState → Prop) (hP : ∀ t t', AttributedStep start t t' → P t → P t') (hs : P s)
    (hturn : ∀ t a t', a ∈ items → P t → turn t a = some t' → AttributedStep start t t')
    (hloop : items.foldlM turn s = some s') : AttributedStep start s s' := by
  induction items generalizing s with
  | nil =>
    cases hloop
    exact AttributedStep.refl start s'
  | cons a rest ih =>
    rw [List.foldlM_cons] at hloop
    obtain ⟨t, ht, hloop⟩ := Option.bind_eq_some_iff.mp hloop
    have hstep := hturn s a t List.mem_cons_self hs ht
    refine AttributedStep.trans start s t s' hstep (ih t (hP s t hstep hs) ?_ hloop)
    exact fun t a t' ha => hturn t a t' (List.mem_cons_of_mem _ ha)

/-- A state behind a start: the clients and the devices are those of the start, where each client
was opened for a device and no path is cut off in a message. -/
structure Follows (start s : WifiState) : Prop where
  devs : s.devs = start.devs
  devices : identities s.sys.reg = identities start.sys.reg
  opened : ∀ w ∈ start.devs, ∃ boot, OpenedFor start w boot
  paths : ∀ boot ∈ start.sys.reg.devices, ∀ obj ∈ boot.objects, obj.path.length < hesPathMax

/-- INTERNAL: a state that follows the start still does after an attributed step. -/
theorem Follows.step (start s t : WifiState) (h : AttributedStep start s t)
    (hs : Follows start s) : Follows start t :=
  ⟨h.devs.trans hs.devs, h.devices.trans hs.devices, hs.opened, hs.paths⟩

/-- INTERNAL: the paths of an opened device are whole. -/
theorem Follows.path (start s : WifiState) (h : Follows start s) (w : WifiDev) (boot : HesDevice)
    (hopened : OpenedFor start w boot) (obj : HesDevObject) (hobj : obj ∈ boot.objects) :
    boundedCopy hesPathMax obj.path = obj.path :=
  boundedCopy_of_short _ _ (h.paths boot (List.mem_of_getElem? hopened.device) obj hobj)

/-- INTERNAL: the device of a client is the one that it was opened for. -/
theorem Follows.device (start s : WifiState) (h : Follows start s) (w : WifiDev)
    (hw : w ∈ s.devs) (dev : HesDevice) (hdev : s.sys.reg.devices[w.regIdx]? = some dev) :
    ∃ boot, OpenedFor start w boot ∧ boot.deviceIndex = dev.deviceIndex ∧
      boot.objects = dev.objects := by
  obtain ⟨boot, hboot⟩ := h.opened w (h.devs ▸ hw)
  obtain ⟨boot', hboot', hsame⟩ := device_of_identities _ _ h.devices w.regIdx dev hdev
  obtain rfl := Option.some.inj (hboot.device.symm.trans hboot')
  exact ⟨boot, hboot, hsame⟩

section Calls

variable (lamp : ℕ → Option CStr)

/-- INTERNAL: **a reading** is one call, or nothing where there is no such object. -/
theorem wifiReadObject_some (w : WifiDev) (obj : HesDevObject) (s s' : WifiState)
    (val : Option CStr) (h : wifiReadObject lamp w obj s = some (s', val)) :
    (s' = s ∧ val = none) ∨
      ∃ reply, s' = s.log (.request w .getPilot reply) ∧ val = readingOf obj.path reply := by
  unfold wifiReadObject at h
  unfold readingOf
  by_cases hlight : obj.path = hesLxLightCv
  · rw [if_pos hlight] at h
    cases h
    refine Or.inr ⟨lamp s.trace.length, rfl, ?_⟩
    rw [if_pos hlight]
  · rw [if_neg hlight] at h
    by_cases hlevel : obj.path = hesLxLightBrightnessCv
    · rw [if_pos hlevel] at h
      dsimp only [WifiState.call] at h
      obtain ⟨level, hread, heq⟩ := Option.map_eq_some_iff.mp h
      obtain ⟨rfl, rfl⟩ := Prod.mk.inj heq
      refine Or.inr ⟨lamp s.trace.length, rfl, ?_⟩
      rw [if_neg hlight, if_pos hlevel, hread, Option.getD_some]
    · rw [if_neg hlevel] at h
      obtain ⟨rfl, rfl⟩ := Prod.mk.inj (Option.some.inj h)
      exact Or.inl ⟨rfl, rfl⟩

/-- INTERNAL: a value that is read fits a payload. -/
theorem readingOf_short (path : CStr) (reply : Option CStr) (val : CStr)
    (h : readingOf path reply = some val) : boundedCopy hesPayloadMax val = val := by
  apply List.take_of_length_le
  have hshort : val.length ≤ 31 := by
    unfold readingOf at h
    split at h
    · obtain ⟨on, -, rfl⟩ := Option.map_eq_some_iff.mp h
      cases on <;> decide
    · split at h
      · obtain ⟨level, -, rfl⟩ := Option.map_eq_some_iff.mp h
        exact List.length_take_le _ _
      · cases h
  unfold hesPayloadMax
  omega

/-- INTERNAL: **the writes** of a PUT are the calls that it asks for, in their order. -/
theorem wifiWriteObject_trace (w : WifiDev) (obj : HesDevObject) (payload : CStr)
    (s : WifiState) :
    ∃ calls, (wifiWriteObject lamp w obj payload s) = { s with trace := s.trace ++ requestsOf w calls } ∧
      calls.map Prod.fst = commandsOf obj.path payload := by
  unfold wifiWriteObject commandsOf WifiState.call WifiState.log
  dsimp only
  split
  · exact ⟨[(_, _)], rfl, rfl⟩
  · split
    · split
      · exact ⟨[(_, _)], rfl, rfl⟩
      · let switched := WifiEvent.request w (.setState true) (lamp s.trace.length)
        refine ⟨[(.setState true, lamp s.trace.length),
          (.setBrightness (atoi payload), lamp (s.trace ++ [switched]).length)], ?_, rfl⟩
        rw [List.append_assoc]
        rfl
    · exact ⟨[], by rw [requestsOf, List.map_nil, List.append_nil], rfl⟩

/-- INTERNAL: the device, the client and the object that a message addresses. -/
theorem target_some (start s : WifiState) (h : Follows start s) (m : HesClmeMsg) (dev : HesDevice)
    (w : WifiDev) (obj : HesDevObject) (ht : s.target m = some (dev, w, obj)) :
    Addresses s.sys.reg m w.regIdx dev obj ∧ obj.path = m.path ∧ obj ∈ dev.objects ∧
      ∃ boot, OpenedFor start w boot ∧ boot.deviceIndex = dev.deviceIndex ∧
        boot.objects = dev.objects := by
  unfold WifiState.target at ht
  simp only [Option.bind_eq_bind, Option.bind_eq_some_iff, Option.some.injEq, Prod.mk.injEq] at ht
  obtain ⟨i, hi, w', hw, dev', hdev, obj', hobj, rfl, rfl, rfl⟩ := ht
  unfold findOpen at hw
  unfold hesDevObjectFind at hobj
  have hplace : w'.regIdx = i := by simpa using List.find?_some hw
  subst hplace
  have honline : onlineWith m.path dev' = true ∧
      (m.deviceIndex ≠ 0 → dev'.deviceIndex = m.deviceIndex) := by
    by_cases hdi : m.deviceIndex = 0
    · rw [hdi, resolveIndex_zero, Option.or_eq_some_iff] at hi
      refine ⟨?_, fun hne => absurd hdi hne⟩
      rcases hi with hi | ⟨-, hi⟩
      · obtain ⟨-, d, hd, hwith⟩ := (namedIndex_some _ _ _ _).mp hi
        rw [hdev, Option.some.injEq] at hd
        rwa [hd]
      · obtain ⟨j, hj, hall⟩ := (scanOnline_none _ _ _ _).mp hi
        obtain ⟨d, hd, hwith⟩ := hall.holds
        rw [Nat.zero_add] at hj
        rw [← hj, hdev, Option.some.injEq] at hd
        rwa [hd]
    · rw [resolveIndex_of_ne_zero _ _ _ hdi] at hi
      obtain ⟨hindex, d, hd, hwith⟩ := (namedIndex_some _ _ _ _).mp hi
      obtain ⟨d', hd', hnamed⟩ := deviceIndex_of_indexByDi _ _ _ hindex
      rw [hdev, Option.some.injEq] at hd hd'
      rw [hd] at hd' ⊢
      rw [← hd'] at hnamed
      exact ⟨hwith, fun _ => hnamed⟩
  have hboth := (Bool.and_eq_true _ _).mp honline.1
  have hpath : obj'.path = m.path := by simpa using List.find?_some hobj
  exact ⟨⟨hi, hdev, hboth.1, hobj, honline.2⟩, hpath,
    List.mem_of_find?_eq_some hobj, h.device start s w' (List.mem_of_find?_eq_some hw) dev' hdev⟩

/-- INTERNAL: a message and the calls that it asks for. -/
theorem commands_attributed (start : WifiState) (m : HesClmeMsg) (reg : HesDevreg) (w : WifiDev)
    (calls : List (WizRequest × Option CStr)) (dev : HesDevice) (obj : HesDevObject)
    (boot : HesDevice) (hput : m.verb = .put)
    (hcalls : calls.map Prod.fst = commandsOf m.path m.payload)
    (haddr : Addresses reg m w.regIdx dev obj) (hwritten : obj.isWritten = true)
    (hopened : OpenedFor start w boot) (hsame : boot.deviceIndex = dev.deviceIndex) :
    EveryEvent (Attributed start) (.frame m reg :: requestsOf w calls) := by
  intro pre e post heq
  cases pre with
  | nil =>
    obtain ⟨rfl, -⟩ := List.cons.inj heq
    trivial
  | cons a pre =>
    obtain ⟨rfl, htail⟩ := List.cons.inj heq
    obtain ⟨sent, others, hsplit, rfl, hothers⟩ := List.map_eq_append_iff.mp htail
    obtain ⟨c, later, rfl, rfl, -⟩ := List.map_eq_cons_iff.mp hothers
    intro _
    refine ⟨[], m, reg, sent, later.map Prod.fst, dev, obj, boot, rfl, hput, ?_, haddr, hwritten,
      hopened, hsame⟩
    rw [← hcalls, hsplit, List.map_append, List.map_cons]

/-- INTERNAL: a reading and the EVENT that is made of it. -/
theorem reading_attributed (start : WifiState) (w : WifiDev) (reply : Option CStr)
    (boot : HesDevice) (obj : HesDevObject) (m : HesClmeMsg) (hopened : OpenedFor start w boot)
    (hobj : obj ∈ boot.objects) (hread : obj.isRead = true) (hverb : m.verb = .event)
    (hindex : m.deviceIndex = boot.deviceIndex) (hpath : m.path = obj.path)
    (hval : readingOf obj.path reply = some m.payload) :
    EveryEvent (Attributed start) [.request w .getPilot reply, .send m] := by
  rw [everyEvent_cons]
  refine ⟨fun hne => absurd rfl hne, (everyEvent_cons _ _ _).mpr ⟨?_, everyEvent_nil _⟩⟩
  exact ⟨[], w, reply, boot, obj, rfl, hopened, hobj, hread, hverb, hindex, hpath, hval⟩

/-- INTERNAL: a poll is attributed to the client that it asks. -/
theorem getPilot_attributed (start : WifiState) (w : WifiDev) (reply : Option CStr) :
    EveryEvent (Attributed start) [.request w .getPilot reply] :=
  (everyEvent_cons _ _ _).mpr ⟨fun hne => absurd rfl hne, everyEvent_nil _⟩

/-- INTERNAL: **a message from the bus**. -/
theorem wifiTakeFrame_attributed (start s : WifiState) (h : Follows start s) (m : HesClmeMsg)
    (s' : WifiState) (htake : wifiTakeFrame lamp m s = some s') : AttributedStep start s s' := by
  have hframe : AttributedStep start s (s.log (.frame m s.sys.reg)) :=
    ⟨rfl, rfl, [.frame m s.sys.reg], rfl, (everyEvent_cons _ _ _).mpr ⟨trivial, everyEvent_nil _⟩⟩
  unfold wifiTakeFrame at htake
  dsimp only at htake
  split at htake
  next hput =>
    cases htake
    unfold wifiPut
    have htarget : (s.log (.frame m s.sys.reg)).target m = s.target m := rfl
    rw [htarget]
    cases htgt : s.target m with
    | none => exact hframe
    | some found =>
      obtain ⟨dev, w, obj⟩ := found
      obtain ⟨haddr, hpath, -, boot, hopened, hsame, -⟩ := target_some start s h m dev w obj htgt
      dsimp only
      split
      next hwritten =>
        obtain ⟨calls, hwrite, hcalls⟩ :=
          wifiWriteObject_trace lamp w obj m.payload (s.log (.frame m s.sys.reg))
        rw [hwrite]
        refine ⟨rfl, rfl, .frame m s.sys.reg :: requestsOf w calls, ?_, ?_⟩
        · show s.trace ++ [_] ++ _ = _
          rw [List.append_assoc]
          rfl
        · rw [hpath] at hcalls
          exact commands_attributed start m _ w calls dev obj boot hput hcalls haddr hwritten
            hopened hsame
      · exact hframe
  · refine AttributedStep.trans start s _ s' hframe ?_
    have hfollows := Follows.step start s _ hframe h
    generalize s.log (.frame m s.sys.reg) = t at htake hfollows
    unfold wifiGet at htake
    cases htgt : t.target m with
    | none =>
      rw [htgt] at htake
      cases htake
      exact AttributedStep.refl start s'
    | some found =>
      obtain ⟨dev, w, obj⟩ := found
      obtain ⟨-, hpath, hobj, boot, hopened, hsame, hobjects⟩ :=
        target_some start t hfollows m dev w obj htgt
      rw [htgt] at htake
      dsimp only at htake
      split at htake
      next hread =>
        obtain ⟨⟨u, val⟩, hcall, rfl⟩ := Option.map_eq_some_iff.mp htake
        dsimp only
        rcases wifiReadObject_some lamp w obj t u val hcall with ⟨rfl, rfl⟩ | ⟨reply, rfl, hval⟩
        · exact AttributedStep.refl start u
        · cases val with
          | none => exact ⟨rfl, rfl, _, rfl, getPilot_attributed start w reply⟩
          | some val =>
            refine ⟨rfl, rfl, [.request w .getPilot reply, .send (getAnswer dev m.path val)],
              ?_, ?_⟩
            · show t.trace ++ [_] ++ [_] = _
              rw [List.append_assoc]
              rfl
            · have hshort := readingOf_short obj.path reply val hval.symm
              have hwhole := hfollows.path start t w boot hopened obj (hobjects ▸ hobj)
              refine reading_attributed start w reply boot obj _ hopened (hobjects ▸ hobj) hread
                rfl hsame.symm ?_ ?_
              · rw [← hpath]
                exact hwhole
              · show _ = some (boundedCopy hesPayloadMax val)
                rw [hshort]
                exact hval.symm
      · cases htake
        exact AttributedStep.refl start s'
  · cases htake
    exact hframe

/-! ## Polls -/

/-- INTERNAL: an object of a polled device. -/
theorem pollObject_attributed (start s : WifiState) (w : WifiDev) (dev boot : HesDevice)
    (hwhole : ∀ obj ∈ boot.objects, boundedCopy hesPathMax obj.path = obj.path)
    (hopened : OpenedFor start w boot) (hsame : boot.deviceIndex = dev.deviceIndex)
    (hobjects : boot.objects = dev.objects) (obj : HesDevObject) (hobj : obj ∈ dev.objects)
    (reached reached' : Bool) (s' : WifiState)
    (hpoll : pollObject lamp w dev (s, reached) obj = some (s', reached')) :
    AttributedStep start s s' ∧ s'.sys = s.sys := by
  unfold pollObject at hpoll
  split at hpoll
  next hread =>
    obtain ⟨⟨u, val⟩, hcall, heq⟩ := Option.map_eq_some_iff.mp hpoll
    dsimp only at heq
    rcases wifiReadObject_some lamp w obj s u val hcall with ⟨rfl, rfl⟩ | ⟨reply, rfl, hval⟩
    · obtain ⟨rfl, -⟩ := Prod.mk.inj heq
      exact ⟨AttributedStep.refl start u, rfl⟩
    · cases val with
      | none =>
        obtain ⟨rfl, -⟩ := Prod.mk.inj heq
        exact ⟨⟨rfl, rfl, _, rfl, getPilot_attributed start w reply⟩, rfl⟩
      | some val =>
        obtain ⟨rfl, -⟩ := Prod.mk.inj heq
        refine ⟨⟨rfl, rfl, [.request w .getPilot reply, .send (pollEvent dev obj.path val)], ?_, ?_⟩,
          rfl⟩
        · show s.trace ++ [_] ++ [_] = _
          rw [List.append_assoc]
          rfl
        · have hshort := readingOf_short obj.path reply val hval.symm
          refine reading_attributed start w reply boot obj _ hopened (hobjects ▸ hobj) hread rfl
            hsame.symm (hwhole obj (hobjects ▸ hobj)) ?_
          show _ = some (boundedCopy hesPayloadMax val)
          rw [hshort]
          exact hval.symm
  · obtain ⟨rfl, -⟩ := Prod.mk.inj (Option.some.inj hpoll)
    exact ⟨AttributedStep.refl start s, rfl⟩

/-- INTERNAL: the objects of a polled device, one after the other. -/
theorem pollObjects_attributed (start : WifiState) (w : WifiDev) (dev boot : HesDevice)
    (hwhole : ∀ obj ∈ boot.objects, boundedCopy hesPathMax obj.path = obj.path)
    (hopened : OpenedFor start w boot) (hsame : boot.deviceIndex = dev.deviceIndex)
    (hobjects : boot.objects = dev.objects) (objs : List HesDevObject)
    (hobjs : ∀ obj ∈ objs, obj ∈ dev.objects) (acc acc' : WifiState × Bool)
    (hpoll : objs.foldlM (pollObject lamp w dev) acc = some acc') :
    AttributedStep start acc.1 acc'.1 ∧ acc'.1.sys = acc.1.sys := by
  induction objs generalizing acc with
  | nil =>
    cases hpoll
    exact ⟨AttributedStep.refl start acc'.1, rfl⟩
  | cons obj rest ih =>
    rw [List.foldlM_cons] at hpoll
    obtain ⟨mid, hmid, hpoll⟩ := Option.bind_eq_some_iff.mp hpoll
    obtain ⟨hstep, hsys⟩ := pollObject_attributed lamp start acc.1 w dev boot hwhole hopened
      hsame hobjects obj (hobjs obj List.mem_cons_self) acc.2 mid.2 mid.1 hmid
    obtain ⟨hrest, hsys'⟩ := ih (fun o ho => hobjs o (List.mem_cons_of_mem _ ho)) mid hpoll
    exact ⟨AttributedStep.trans start _ _ _ hstep hrest, hsys'.trans hsys⟩

variable (exchange : ℕ → Exchange)

/-- INTERNAL: a note of the presence is attributed. -/
theorem notePresence_attributed (start s : WifiState) (w : WifiDev) (reachable : Bool) :
    AttributedStep start s (notePresence exchange w reachable s) := by
  refine ⟨rfl, ?_, [.report _ _], rfl, (everyEvent_cons _ _ _).mpr ⟨trivial, everyEvent_nil _⟩⟩
  show identities (BleSystem.report _ _).reg = _
  rw [report_reg]
  exact identities_setOnlineAt _ _ _

/-- INTERNAL: **the poll of a device**. -/
theorem wifiPollDev_attributed (start s : WifiState) (h : Follows start s) (w : WifiDev)
    (hw : w ∈ s.devs) (s' : WifiState) (hpoll : wifiPollDev lamp exchange s w = some s') :
    AttributedStep start s s' := by
  unfold wifiPollDev at hpoll
  split at hpoll
  · cases hpoll
    exact AttributedStep.refl start s
  next dev hdev =>
    obtain ⟨boot, hopened, hsame, hobjects⟩ := h.device start s w hw dev hdev
    obtain ⟨polled, hpolled, rfl⟩ := Option.map_eq_some_iff.mp hpoll
    obtain ⟨hstep, -⟩ := pollObjects_attributed lamp start w dev boot
      (h.path start s w boot hopened) hopened hsame hobjects _ (fun _ ho => ho) (s, false) polled
      hpolled
    split
    · exact hstep
    · exact AttributedStep.trans start _ _ _ hstep (notePresence_attributed exchange start _ _ _)

/-- INTERNAL: **a pass of the loop**. -/
theorem wifiTurn_attributed (start s : WifiState) (h : Follows start s) (turn : WifiTurn)
    (s' : WifiState) (hturn : wifiTurn lamp exchange s turn = some s') :
    AttributedStep start s s' := by
  obtain ⟨t, ht, hpolled⟩ := Option.bind_eq_some_iff.mp hturn
  have hlisten : AttributedStep start s t := by
    obtain ⟨u, hu, rfl⟩ := Option.map_eq_some_iff.mp ht
    have hframe : AttributedStep start s u := by
      cases hf : turn.frame with
      | none =>
        rw [hf] at hu
        cases hu
        exact AttributedStep.refl start s
      | some m =>
        rw [hf] at hu
        exact wifiTakeFrame_attributed lamp start s h m u hu
    refine AttributedStep.trans start s u _ hframe ?_
    split
    · exact ⟨rfl, identities_takeNotification _, [], (List.append_nil _).symm, everyEvent_nil _⟩
    · exact AttributedStep.refl start u
  refine AttributedStep.trans start s t s' hlisten ?_
  have hfollows := Follows.step start s t hlisten h
  split at hpolled
  · have hstamp : AttributedStep start t { t with lastPoll := turn.now } :=
      ⟨rfl, rfl, [], (List.append_nil _).symm, everyEvent_nil _⟩
    refine AttributedStep.trans start t _ s' hstamp ?_
    refine AttributedStep.loop start (wifiPollDev lamp exchange) _ _ s'
      (fun u => Follows start u ∧ u.devs = t.devs) ?_
      ⟨Follows.step start t _ hstamp hfollows, rfl⟩ ?_ hpolled
    · exact fun u u' hstep hu => ⟨Follows.step start u u' hstep hu.1, hstep.devs.trans hu.2⟩
    · intro u w u' hw hu hpoll
      exact wifiPollDev_attributed lamp exchange start u hu.1 w (hu.2 ▸ hw) u' hpoll
  · cases hpolled
    exact AttributedStep.refl start s'

/-- INTERNAL: **a run** of the loop. -/
theorem wifiLoop_attributed (start : WifiState) (h : Follows start start)
    (hempty : start.trace = []) (turns : List WifiTurn) (s : WifiState)
    (hrun : wifiLoop lamp exchange start turns = some s) :
    EveryEvent (Attributed start) s.trace := by
  have hstep : AttributedStep start start s := by
    refine AttributedStep.loop start (wifiTurn lamp exchange) turns start s (Follows start)
      (fun t t' => Follows.step start t t') h ?_ hrun
    exact fun t turn t' _ ht => wifiTurn_attributed lamp exchange start t ht turn t'
  obtain ⟨evs, hevs, hattr⟩ := hstep.events
  rw [hempty, List.nil_append] at hevs
  rw [hevs]
  exact hattr

end Calls

/-! ## The start -/

/-- INTERNAL: a client stands for the device that it was opened for. -/
theorem openClients_opened (opened : ℕ → Bool) (reg : HesDevreg) (w : WifiDev)
    (hw : w ∈ openClients opened reg) :
    ∃ d, reg.devices[w.regIdx]? = some d ∧ w.ip = boundedCopy 64 d.address ∧ w.port = d.udpPort := by
  obtain ⟨⟨d, i⟩, hd, hopen⟩ := List.mem_filterMap.mp hw
  unfold openClient at hopen
  split at hopen
  · cases hopen
    exact ⟨d, List.mk_mem_zipIdx_iff_getElem?.mp hd, rfl, rfl⟩
  · cases hopen

/-- INTERNAL: **a start** has clients of devices that it was told of. -/
theorem hanWifiBoot_follows (pf : MsProfile) (moduleRef : ℕ) (bulbIp : CStr) (t : Exchange)
    (opened : ℕ → Bool) (start : WifiState)
    (hboot : hanWifiBoot pf moduleRef bulbIp t opened = some start) :
    Follows start start ∧ start.trace = [] := by
  obtain ⟨reg, -, hboot⟩ := Option.bind_eq_some_iff.mp hboot
  split at hboot
  · cases hboot
  · obtain ⟨reg2, hreg2, hboot⟩ := Option.bind_eq_some_iff.mp hboot
    dsimp only at hboot
    split at hboot
    · cases hboot
    · cases hboot
      have hparsed : ∃ root, ∀ d ∈ reg2.devices, ParsedFrom root d := by
        obtain ⟨reply, -, hreply⟩ := Option.bind_eq_some_iff.mp hreg2
        obtain ⟨root, -, hroot⟩ := Option.bind_eq_some_iff.mp hreply
        exact ⟨root, hesDevregParse_from root reg2 hroot⟩
      obtain ⟨root, hparsed⟩ := hparsed
      refine ⟨⟨rfl, rfl, fun w hw => ?_, fun d hd obj hobj => ?_⟩, rfl⟩
      · obtain ⟨d, hd, hip, hport⟩ := openClients_opened opened reg2 w hw
        refine ⟨d, hw, hd, ?_, hport⟩
        rw [hip]
        exact boundedCopy_of_short _ _ (hparsed d (List.mem_of_getElem? hd)).address.2
      · exact ((hparsed d hd).path obj hobj).2

/-! ## Whole runs -/

/-- **Commands are attributed.** In every run of the module, whatever comes over the bus, whatever
the lamps answer and whatever becomes of the reports, each command to a lamp stands for the PUT in
front of it: it goes to the address that was registered for the online device which the PUT
resolves to, by an object that is written, and is one of the calls that the PUT asks for.
SRCLINE: han/wifi/wifi.c:206-228, 377-392 -/
theorem wifi_commands_attributed (pf : MsProfile) (moduleRef : ℕ) (bulbIp : CStr) (t : Exchange)
    (opened : ℕ → Bool) (start : WifiState)
    (hboot : hanWifiBoot pf moduleRef bulbIp t opened = some start) (lamp : ℕ → Option CStr)
    (exchange : ℕ → Exchange) (turns : List WifiTurn) (s : WifiState)
    (hrun : wifiLoop lamp exchange start turns = some s) (pre post : List WifiEvent) (w : WifiDev)
    (req : WizRequest) (reply : Option CStr)
    (htrace : s.trace = pre ++ .request w req reply :: post) (hreq : req ≠ .getPilot) :
    CommandOf start pre w req := by
  obtain ⟨hfollows, hempty⟩ := hanWifiBoot_follows pf moduleRef bulbIp t opened start hboot
  exact wifiLoop_attributed lamp exchange start hfollows hempty turns s hrun pre _ post htrace hreq

/-- **Readings are attributed.** In every run of the module, each message that it puts on the bus
is an EVENT that stands for the reading in front of it: it names the device that was asked, by an
object of it that is read, and carries what the reply says of that object.
SRCLINE: han/wifi/wifi.c:165-187, 393-408, 424-449 -/
theorem wifi_readings_attributed (pf : MsProfile) (moduleRef : ℕ) (bulbIp : CStr) (t : Exchange)
    (opened : ℕ → Bool) (start : WifiState)
    (hboot : hanWifiBoot pf moduleRef bulbIp t opened = some start) (lamp : ℕ → Option CStr)
    (exchange : ℕ → Exchange) (turns : List WifiTurn) (s : WifiState)
    (hrun : wifiLoop lamp exchange start turns = some s) (pre post : List WifiEvent)
    (m : HesClmeMsg) (htrace : s.trace = pre ++ .send m :: post) : ReadingOf start pre m := by
  obtain ⟨hfollows, hempty⟩ := hanWifiBoot_follows pf moduleRef bulbIp t opened start hboot
  exact wifiLoop_attributed lamp exchange start hfollows hempty turns s hrun pre _ post htrace

/-- A module with one lamp, which is switched and dimmed. -/
def oneLamp : MsModule where
  moduleType := lit "hi"
  moduleRefIndex := 2
  serviceModuleType := []
  networkType := []
  devs := [{
    deviceIndex := 2
    netRefIndex := 1
    role := []
    expectedHardware := []
    networkType := []
    objects := [⟨hesLxLightCv, lit "rw"⟩, ⟨hesLxLightBrightnessCv, lit "rw"⟩] }]

/-- The client of the lamp. -/
def lampClient : WifiDev := ⟨0, lit "192.168.1.142", 38899⟩

/-- The lamp is dimmed, and is polled in the next pass. -/
def lampTurns : List WifiTurn :=
  [{ frame := some { verb := .put, deviceIndex := 2, path := hesLxLightBrightnessCv
                     payload := lit "40" }
     notified := true, now := 5 },
    { frame := none, notified := true, now := 10 }]

/-- What the lamp answers: it is on. -/
def lampReplyOn : CStr := lit "\x7b\"result\":\x7b\"state\":true\x7d\x7d"

/-- INTERNAL: a run with a command and a reading. -/
theorem lampTurns_run :
    ∃ start s, hanWifiBoot ⟨[oneLamp]⟩ 2 (lit "192.168.1.142") .answered (fun _ => true) =
        some start ∧
      wifiLoop (fun _ => some lampReplyOn) (fun _ => .answered) start lampTurns = some s ∧
      s.trace[2]? = some (.request lampClient (.setBrightness 40) (some lampReplyOn)) ∧
      s.trace[4]? = some (.send (pollEvent ⟨2, 1, [], [], [], [], 0, true, []⟩ hesLxLightCv
        (lit "1"))) := by
  have hrun : ((hanWifiBoot ⟨[oneLamp]⟩ 2 (lit "192.168.1.142") .answered fun _ => true).any
      fun start => (wifiLoop (fun _ => some lampReplyOn) (fun _ => .answered) start lampTurns).any
        fun s => s.trace[2]? = some (.request lampClient (.setBrightness 40) (some lampReplyOn)) &&
          s.trace[4]? = some (.send (pollEvent ⟨2, 1, [], [], [], [], 0, true, []⟩ hesLxLightCv
            (lit "1")))) = true := by
    decide +kernel
  obtain ⟨start, hboot, hrun⟩ := Option.any_eq_true _ _ |>.mp hrun
  obtain ⟨s, hs, hevents⟩ := Option.any_eq_true _ _ |>.mp hrun
  rw [Bool.and_eq_true, decide_eq_true_iff, decide_eq_true_iff] at hevents
  exact ⟨start, s, hboot, hs, hevents⟩

/-- A command of the brightness, for the one lamp. -/
theorem wifi_commands_attributed_lamp :
    ∃ start pre, hanWifiBoot ⟨[oneLamp]⟩ 2 (lit "192.168.1.142") .answered (fun _ => true) =
        some start ∧ CommandOf start pre lampClient (.setBrightness 40) := by
  obtain ⟨start, s, hboot, hrun, hcommand, -⟩ := lampTurns_run
  obtain ⟨pre, post, htrace⟩ := List.append_of_mem (List.mem_of_getElem? hcommand)
  exact ⟨start, pre, hboot, wifi_commands_attributed _ 2 _ .answered _ start hboot _ _ lampTurns s
    hrun pre post lampClient _ _ htrace (by decide)⟩

/-- A reading of the level, of the one lamp. -/
theorem wifi_readings_attributed_lamp :
    ∃ start pre, hanWifiBoot ⟨[oneLamp]⟩ 2 (lit "192.168.1.142") .answered (fun _ => true) =
        some start ∧
      ReadingOf start pre (pollEvent ⟨2, 1, [], [], [], [], 0, true, []⟩ hesLxLightCv (lit "1")) := by
  obtain ⟨start, s, hboot, hrun, -, hreading⟩ := lampTurns_run
  obtain ⟨pre, post, htrace⟩ := List.append_of_mem (List.mem_of_getElem? hreading)
  exact ⟨start, pre, hboot, wifi_readings_attributed _ 2 _ .answered _ start hboot _ _ lampTurns s
    hrun pre post _ htrace⟩

end OpenHes.Analysis
