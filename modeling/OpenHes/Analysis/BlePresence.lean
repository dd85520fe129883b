import OpenHes.Analysis.FrontedDevices
import OpenHes.Library.EchoedFlags

/-!
# Presence in the BLE module and in the service

The module and the service as a holder and a store of flags, with the notifications as echoes:
every step of the module is one of theirs. A report carries the flags of all devices, so a link
event that comes before the notifications of earlier reports are merged can undo them.
-/

set_option autoImplicit false

namespace OpenHes.Analysis

open OpenHes.Library OpenHes.Library.Json OpenHes.Model

/-! ## The abstraction -/

/-- The module and the service have these devices, and so has every notification on its way. -/
structure InStep (mi : ℕ) (dis : List ℕ) (s : BleSystem) : Prop where
  client : s.mreg = hesMregOpen hesMtInterface mi
  served : ∃ mod, findModule s.pf s.mreg.moduleType s.mreg.moduleRefIndex = some mod ∧
    Serves dis mod
  fronts : Fronts dis s.reg
  inbox : ∀ msg ∈ s.inbox, ∃ upd, hesMregRecvUpdate s.mreg msg = some upd ∧ Fronts dis upd

/-- The flags that a notification brings. -/
def echoOf (m : HesMreg) (msg : List UInt8) : ℕ → Bool :=
  ((hesMregRecvUpdate m msg).map heldOf).getD fun _ => false

/-- The flags of the module, of the service and of the notifications. -/
def flagsOf (s : BleSystem) : EchoedFlags ℕ :=
  ⟨heldOf s.reg, fun di => (s.stored di).getD false, s.inbox.map (echoOf s.mreg)⟩

/-- What a step is to the flags; a link event of no device of the set is nothing. -/
def echoSteps (dis : List ℕ) : BleStep → List (EchoStep ℕ)
  | .notification => [.merge]
  | .link ev t =>
    if ev.deviceIndex ∈ dis then [.event ev.deviceIndex ev.isOnline (decide (t ≠ .unsent))] else []

/-- INTERNAL: what the service stores is what its module says. -/
theorem stored_served (s : BleSystem) (mod : MsModule)
    (hfind : findModule s.pf s.mreg.moduleType s.mreg.moduleRefIndex = some mod) :
    (flagsOf s).stored = servedOf mod := by
  unfold flagsOf BleSystem.stored
  rw [hfind]
  rfl

/-- INTERNAL: of a device of the set, the service stores a flag. -/
theorem stored_some (mi : ℕ) (dis : List ℕ) (s : BleSystem) (h : InStep mi dis s)
    (hdis : DeviceSet dis) (di : ℕ) (hdi : di ∈ dis) :
    s.stored di = some ((flagsOf s).stored di) := by
  obtain ⟨mod, hfind, hmod⟩ := h.served
  obtain ⟨dev, hdev, heq⟩ := hmod.declared dis mod di hdi
  have hfound := hmod.found dis mod hdis dev hdev
  rw [heq] at hfound
  rw [stored_served s mod hfind, servedOf_found mod di dev hfound]
  unfold BleSystem.stored
  rw [hfind, Option.bind_some, hfound]
  rfl

/-- INTERNAL: it stores nothing of other indexes. -/
theorem stored_outside (mi : ℕ) (dis : List ℕ) (s : BleSystem) (h : InStep mi dis s) (di : ℕ)
    (hdi : di ∉ dis) : (flagsOf s).stored di = false := by
  obtain ⟨mod, hfind, hmod⟩ := h.served
  rw [stored_served s mod hfind]
  unfold servedOf
  rw [hmod.outside dis mod di hdi]
  rfl

/-! ## Steps -/

/-- INTERNAL: **a report that reaches the service** stores the flags of the module, and their
echo is on its way. -/
theorem report_flags (mi : ℕ) (hmi : mi < 2 ^ 32) (dis : List ℕ) (hdis : DeviceSet dis)
    (s : BleSystem) (h : InStep mi dis s) (t : Exchange) (ht : t ≠ .unsent) :
    InStep mi dis (s.report t) ∧
      flagsOf (s.report t) =
        ⟨heldOf s.reg, heldOf s.reg, (flagsOf s).echoes ++ [heldOf s.reg]⟩ := by
  obtain ⟨mod, hfind, hmod⟩ := h.served
  rw [h.client] at hfind
  obtain ⟨mod', hfind', hmod', hflags, hpublished⟩ :=
    report_serves dis hdis hesMtInterface mi hmi s.pf mod hfind hmod s.reg h.fronts
  obtain ⟨upd, hparse, hupd, hheld, hnul⟩ := slice_fronts dis hdis mod' hmod'
  have hindex : mod'.moduleRefIndex = mi := (findModule_is _ _ _ mod' hfind').2.1
  obtain ⟨hsub, hrecv⟩ := notification_slice hesMtInterface mi hmi mod' hmod'.fits hindex hnul
  have hreport : s.report t =
      { s with
        pf := (serveRequest s.pf (reportRequest (hesMregOpen hesMtInterface mi) s.reg)).pf
        inbox := s.inbox ++ [publishSlice mod'] } := by
    unfold BleSystem.report
    rw [if_neg ht]
    dsimp only
    rw [h.client, hpublished, List.filter_cons_of_pos hsub, List.filter_nil]
  have hrecv' : hesMregRecvUpdate s.mreg (publishSlice mod') = some upd := by
    rw [h.client, hrecv, hparse]
  rw [hreport]
  refine ⟨⟨h.client, ⟨mod', ?_, hmod'⟩, h.fronts, fun msg hmsg => ?_⟩, ?_⟩
  · dsimp only
    rw [h.client]
    exact hfind'
  · rcases List.mem_append.mp hmsg with hmsg | hmsg
    · exact h.inbox msg hmsg
    · rw [List.mem_singleton.mp hmsg]
      exact ⟨upd, hrecv', hupd⟩
  · have hstored := stored_served
      { s with
        pf := (serveRequest s.pf (reportRequest (hesMregOpen hesMtInterface mi) s.reg)).pf
        inbox := s.inbox ++ [publishSlice mod'] } mod' (by
      dsimp only
      rw [h.client]
      exact hfind')
    have hecho : echoOf s.mreg (publishSlice mod') = heldOf s.reg := by
      unfold echoOf
      rw [hrecv', Option.map_some, Option.getD_some, hheld, hflags]
    unfold flagsOf at hstored ⊢
    dsimp only at hstored ⊢
    rw [hstored, hflags, List.map_append, List.map_singleton, hecho]

/-- INTERNAL: **a notification** is an echo that is taken over. -/
theorem notification_flags (mi : ℕ) (dis : List ℕ) (s : BleSystem) (h : InStep mi dis s) :
    InStep mi dis s.takeNotification ∧ flagsOf s.takeNotification = (flagsOf s).step .merge := by
  unfold BleSystem.takeNotification EchoedFlags.step
  dsimp only
  cases hinbox : s.inbox with
  | nil =>
    have hechoes : (flagsOf s).echoes = [] := by
      unfold flagsOf
      rw [hinbox]
      rfl
    rw [hechoes]
    exact ⟨h, rfl⟩
  | cons msg rest =>
    have hmem : ∀ msg' ∈ rest, msg' ∈ s.inbox := by
      intro msg' hmsg'
      rw [hinbox]
      exact List.mem_cons_of_mem _ hmsg'
    obtain ⟨upd, hrecv, hupd⟩ := h.inbox msg (by
      rw [hinbox]
      exact List.mem_cons_self)
    obtain ⟨hfronts, hheld⟩ := mergeSlice_fronts dis s.reg upd h.fronts hupd
    have hechoes : (flagsOf s).echoes = heldOf upd :: rest.map (echoOf s.mreg) := by
      unfold flagsOf echoOf
      rw [hinbox]
      dsimp only
      rw [List.map_cons, hrecv]
      rfl
    rw [hechoes]
    dsimp only
    rw [hrecv]
    dsimp only
    refine ⟨⟨h.client, h.served, hfronts, fun msg' hmsg' => h.inbox msg' (hmem msg' hmsg')⟩, ?_⟩
    unfold flagsOf
    dsimp only
    rw [hheld]
    rfl

/-- INTERNAL: a link event of a device that is known changes its flag and is reported, if it is
news. -/
theorem takeLinkEvent_found (s : BleSystem) (ev : HesBleEvent) (t : Exchange) (d : HesDevice)
    (hfind : indexByDi s.reg ev.deviceIndex = some d) :
    s.takeLinkEvent ev t =
      if d.online = ev.isOnline then s
      else BleSystem.report { s with reg := setOnline s.reg ev.deviceIndex ev.isOnline } t := by
  unfold BleSystem.takeLinkEvent
  rw [hfind]
  dsimp only
  cases ev.isOnline with
  | true =>
    cases d.online with
    | true => rfl
    | false => rfl
  | false =>
    cases d.online with
    | true => rfl
    | false => rfl

/-- INTERNAL: **a link event** of a device of the set is an event of its flag. -/
theorem link_flags (mi : ℕ) (hmi : mi < 2 ^ 32) (dis : List ℕ) (hdis : DeviceSet dis)
    (s : BleSystem) (h : InStep mi dis s) (ev : HesBleEvent) (t : Exchange)
    (hdi : ev.deviceIndex ∈ dis) :
    InStep mi dis (s.takeLinkEvent ev t) ∧ flagsOf (s.takeLinkEvent ev t) =
      (flagsOf s).step (.event ev.deviceIndex ev.isOnline (decide (t ≠ .unsent))) := by
  obtain ⟨d, hd⟩ := h.fronts.declared dis s.reg ev.deviceIndex hdi
  have hheld : (flagsOf s).held ev.deviceIndex = d.online :=
    heldOf_found s.reg ev.deviceIndex d hd
  rw [takeLinkEvent_found s ev t d hd]
  by_cases hsame : d.online = ev.isOnline
  · rw [if_pos hsame, EchoedFlags.step_same _ _ _ _ (hheld.trans hsame)]
    exact ⟨h, rfl⟩
  · have hchange : (flagsOf s).held ev.deviceIndex ≠ ev.isOnline := by
      rw [hheld]
      exact hsame
    obtain ⟨hfronts, hset⟩ := setOnline_fronts dis s.reg h.fronts ev.deviceIndex hdi ev.isOnline
    have hnext : InStep mi dis { s with reg := setOnline s.reg ev.deviceIndex ev.isOnline } :=
      ⟨h.client, h.served, hfronts, h.inbox⟩
    rw [if_neg hsame]
    by_cases ht : t = .unsent
    · subst ht
      show InStep mi dis { s with reg := setOnline s.reg ev.deviceIndex ev.isOnline } ∧ _ =
        (flagsOf s).step (.event ev.deviceIndex ev.isOnline false)
      rw [EchoedFlags.step_lost _ _ _ hchange]
      refine ⟨hnext, ?_⟩
      show EchoedFlags.mk (heldOf (setOnline s.reg _ _)) _ _ = _
      rw [hset]
      rfl
    · rw [decide_eq_true ht, EchoedFlags.step_reported _ _ _ hchange]
      obtain ⟨hin, hflags⟩ := report_flags mi hmi dis hdis _ hnext t ht
      refine ⟨hin, ?_⟩
      rw [hflags]
      dsimp only
      rw [hset]
      rfl

/-- INTERNAL: **a step of the module** is a step of the flags, or none. -/
theorem step_flags (mi : ℕ) (hmi : mi < 2 ^ 32) (dis : List ℕ) (hdis : DeviceSet dis)
    (s : BleSystem) (h : InStep mi dis s) (st : BleStep) :
    InStep mi dis (s.step st) ∧ flagsOf (s.step st) = (flagsOf s).run (echoSteps dis st) := by
  cases st with
  | notification => exact notification_flags mi dis s h
  | link ev t =>
    show InStep mi dis (s.takeLinkEvent ev t) ∧ flagsOf (s.takeLinkEvent ev t) =
      (flagsOf s).run (if _ then _ else _)
    by_cases hdi : ev.deviceIndex ∈ dis
    · rw [if_pos hdi]
      exact link_flags mi hmi dis hdis s h ev t hdi
    · rw [if_neg hdi]
      unfold BleSystem.takeLinkEvent
      rw [h.fronts.outside dis s.reg ev.deviceIndex hdi]
      exact ⟨h, rfl⟩

/-! ## Runs -/

/-- A link event that is reported finds all other flags of the module as the service stores
them; of one that is not, the service stores the flag already. -/
def upToDate (s : BleSystem) : BleStep → Bool
  | .notification => true
  | .link ev t =>
    match indexByDi s.reg ev.deviceIndex with
    | none => true
    | some d =>
      if d.online ≠ ev.isOnline ∧ t ≠ .unsent then
        s.reg.devices.all fun d' =>
          d'.deviceIndex = ev.deviceIndex || s.stored d'.deviceIndex = some d'.online
      else s.stored ev.deviceIndex = some ev.isOnline

/-- So does every step of the run. -/
def upToDateAll (s : BleSystem) : List BleStep → Bool
  | [] => true
  | st :: rest => upToDate s st && upToDateAll (s.step st) rest

/-- The last link event of the device behind a step. -/
def noteLink (di : ℕ) (last : Bool) : BleStep → Bool
  | .notification => last
  | .link ev _ => if ev.deviceIndex = di then ev.isOnline else last

/-- The last link event of the device; before the first one there is no link. -/
def lastLink (steps : List BleStep) (di : ℕ) : Bool := steps.foldl (noteLink di) false

/-- Every flag of the module and of the service is the last link event of its device. -/
def Converged (s : BleSystem) (steps : List BleStep) : Prop :=
  ∀ d ∈ s.reg.devices, d.online = lastLink steps d.deviceIndex ∧
    s.stored d.deviceIndex = some (lastLink steps d.deviceIndex)

instance (s : BleSystem) (steps : List BleStep) : Decidable (Converged s steps) :=
  inferInstanceAs (Decidable (∀ d ∈ s.reg.devices, d.online = lastLink steps d.deviceIndex ∧
    s.stored d.deviceIndex = some (lastLink steps d.deviceIndex)))

section runs

variable (mi : ℕ) (hmi : mi < 2 ^ 32) (dis : List ℕ) (hdis : DeviceSet dis)

include hdis in
/-- INTERNAL: the condition on a step is the one on its flags. -/
theorem upToDate_keeps (s : BleSystem) (h : InStep mi dis s) (st : BleStep) :
    upToDate s st = true ↔ (flagsOf s).KeepsAll (echoSteps dis st) := by
  cases st with
  | notification => exact ⟨fun _ => ⟨trivial, trivial⟩, fun _ => rfl⟩
  | link ev t =>
    unfold upToDate echoSteps
    dsimp only
    by_cases hdi : ev.deviceIndex ∈ dis
    · obtain ⟨d, hd⟩ := h.fronts.declared dis s.reg ev.deviceIndex hdi
      have hheld : (flagsOf s).held ev.deviceIndex = d.online :=
        heldOf_found s.reg ev.deviceIndex d hd
      have hown := stored_some mi dis s h hdis ev.deviceIndex hdi
      rw [if_pos hdi, hd]
      show _ ↔ (((flagsOf s).held ev.deviceIndex ≠ ev.isOnline ∧ decide (t ≠ .unsent) = true →
        ∀ d', d' ≠ ev.deviceIndex → (flagsOf s).held d' = (flagsOf s).stored d') ∧
        (¬ ((flagsOf s).held ev.deviceIndex ≠ ev.isOnline ∧ decide (t ≠ .unsent) = true) →
          (flagsOf s).stored ev.deviceIndex = ev.isOnline)) ∧ True
      rw [hheld, decide_eq_true_iff, and_true]
      dsimp only
      by_cases hsend : d.online ≠ ev.isOnline ∧ t ≠ .unsent
      · rw [if_pos hsend, List.all_eq_true]
        constructor
        · refine fun hall => ⟨fun _ di hne => ?_, fun hnot => absurd hsend hnot⟩
          by_cases hmem : di ∈ dis
          · obtain ⟨d', hd'⟩ := h.fronts.declared dis s.reg di hmem
            obtain ⟨hin, heq⟩ := indexByDi_some s.reg di d' hd'
            have hstored := hall d' hin
            rw [Bool.or_eq_true, decide_eq_true_iff, decide_eq_true_iff, heq] at hstored
            have hstored := hstored.resolve_left hne
            rw [stored_some mi dis s h hdis di hmem, Option.some.injEq] at hstored
            rw [hstored]
            exact heldOf_found s.reg di d' hd'
          · rw [stored_outside mi dis s h di hmem]
            show heldOf s.reg di = false
            unfold heldOf
            rw [h.fronts.outside dis s.reg di hmem]
            rfl
        · rintro ⟨hkeep, -⟩ d' hd'
          rw [Bool.or_eq_true, decide_eq_true_iff, decide_eq_true_iff]
          by_cases hsame : d'.deviceIndex = ev.deviceIndex
          · exact Or.inl hsame
          · have hmem : d'.deviceIndex ∈ dis := by
              rw [← h.fronts.indexes]
              exact List.mem_map_of_mem hd'
            rw [stored_some mi dis s h hdis _ hmem, ← hkeep hsend _ hsame]
            refine Or.inr (congrArg _ ?_)
            exact heldOf_found s.reg _ d' (h.fronts.found dis s.reg hdis d' hd')
      · rw [if_neg hsend, decide_eq_true_iff, hown, Option.some.injEq]
        exact ⟨fun heq => ⟨fun hyes => absurd hyes hsend, fun _ => heq⟩, fun hkeep => hkeep.2 hsend⟩
    · rw [if_neg hdi, h.fronts.outside dis s.reg ev.deviceIndex hdi]
      exact ⟨fun _ => trivial, fun _ => rfl⟩

include hmi hdis

/-- INTERNAL: **a run of the module** is a run of the flags. -/
theorem run_flags (steps : List BleStep) (s : BleSystem) (h : InStep mi dis s) :
    InStep mi dis (s.run steps) ∧
      flagsOf (s.run steps) = (flagsOf s).run (steps.flatMap (echoSteps dis)) := by
  induction steps generalizing s with
  | nil => exact ⟨h, rfl⟩
  | cons st rest ih =>
    obtain ⟨hnext, hflags⟩ := step_flags mi hmi dis hdis s h st
    obtain ⟨hin, hrun⟩ := ih (s.step st) hnext
    refine ⟨hin, ?_⟩
    rw [List.flatMap_cons, EchoedFlags.run_append, ← hflags]
    exact hrun

/-- INTERNAL: the condition on a run is the one on its flags. -/
theorem run_keeps (steps : List BleStep) (s : BleSystem) (h : InStep mi dis s) :
    upToDateAll s steps = true ↔ (flagsOf s).KeepsAll (steps.flatMap (echoSteps dis)) := by
  induction steps generalizing s with
  | nil => exact ⟨fun _ => trivial, fun _ => rfl⟩
  | cons st rest ih =>
    obtain ⟨hnext, hflags⟩ := step_flags mi hmi dis hdis s h st
    rw [upToDateAll, Bool.and_eq_true, List.flatMap_cons, EchoedFlags.keepsAll_append, ← hflags,
      upToDate_keeps mi dis hdis s h st, ih _ hnext]

end runs

/-- INTERNAL: the last link event of a device of the set is its last event. -/
theorem lastEvents_link (dis : List ℕ) (steps : List BleStep) (last : ℕ → Bool) (di : ℕ)
    (hdi : di ∈ dis) :
    EchoedFlags.lastEvents last (steps.flatMap (echoSteps dis)) di =
      steps.foldl (noteLink di) (last di) := by
  induction steps generalizing last with
  | nil => rfl
  | cons st rest ih =>
    have happend : EchoedFlags.lastEvents last ((st :: rest).flatMap (echoSteps dis)) =
        EchoedFlags.lastEvents (EchoedFlags.lastEvents last (echoSteps dis st))
          (rest.flatMap (echoSteps dis)) := by
      rw [List.flatMap_cons]
      exact List.foldl_append
    have hstep : EchoedFlags.lastEvents last (echoSteps dis st) di = noteLink di (last di) st := by
      cases st with
      | notification => rfl
      | link ev t =>
        show EchoedFlags.lastEvents last (if _ then _ else _) di =
          if ev.deviceIndex = di then ev.isOnline else last di
        by_cases hsame : ev.deviceIndex = di
        · rw [if_pos (hsame ▸ hdi), if_pos hsame]
          show Function.update last ev.deviceIndex ev.isOnline di = _
          rw [hsame, Function.update_self]
        · rw [if_neg hsame]
          split
          · exact Function.update_of_ne (Ne.symm hsame) _ _
          · rfl
    rw [happend, ih, hstep]
    rfl

/-- INTERNAL: **consistent flags converge**, where no notification is left. -/
theorem converged_of_consistent (mi : ℕ) (dis : List ℕ) (hdis : DeviceSet dis) (s : BleSystem)
    (h : InStep mi dis s) (steps : List BleStep) (last : ℕ → Bool)
    (hlast : ∀ di ∈ dis, last di = lastLink steps di) (hflags : (flagsOf s).Consistent last)
    (hinbox : s.inbox = []) : Converged s steps := by
  intro d hd
  have hmem : d.deviceIndex ∈ dis := by
    rw [← h.fronts.indexes]
    exact List.mem_map_of_mem hd
  have hheld : (flagsOf s).held = (flagsOf s).stored := by
    apply hflags.settled
    unfold flagsOf
    rw [hinbox]
    rfl
  have hfound : (flagsOf s).held d.deviceIndex = d.online :=
    heldOf_found s.reg _ d (h.fronts.found dis s.reg hdis d hd)
  rw [← hlast _ hmem, stored_some mi dis s h hdis _ hmem, ← hfound, hheld, hflags.stored]
  exact ⟨rfl, rfl⟩

/-! ## The start -/

/-- The start that the flags come through: no text that is printed needs escapes, the device
indexes are different and within the C type of the module, and its registration reaches the
service, unless that stores no device as online. -/
structure BleCarried (mod : MsModule) (macOverride : Option CStr) (t : Exchange) : Prop where
  plain : SlicePlain mod
  distinct : (mod.devs.map MsDevprofile.deviceIndex).Nodup
  range : ∀ dev ∈ mod.devs, 0 ≤ dev.deviceIndex ∧ dev.deviceIndex < 2 ^ 32
  mac : ∀ m, macOverride = some m → Plain (boundedCopy 64 m)
  registered : t = .unsent → ∀ dev ∈ mod.devs, dev.online = false

/-- INTERNAL: **a query** brings the slice of the module. -/
theorem query_slice (pf : MsProfile) (mi : ℕ) (hmi : mi < 2 ^ 32) (mod : MsModule)
    (hfind : findModule pf (hesMregOpen hesMtInterface mi).moduleType mi = some mod)
    (hfits : ModuleFits mod) (hplain : SlicePlain mod) :
    hesMregQuery (reqReply pf (queryRequest (hesMregOpen hesMtInterface mi)) .answered).2 =
      parseSlice (buildSlice mod) := by
  obtain ⟨-, hnul⟩ := wellPrinted_of_plain mod hplain.module fun dev hdev =>
    (hplain.addresses dev hdev).1
  have htype := plain_moduleType pf _ _ mod hfind hplain.module.labels
  have hreply := serveRequest_query pf (hesMregOpen hesMtInterface mi) mod htype
    (boundedCopy_length 8 hesMtInterface (by decide)) hmi hfind
  show (some (serveRequest pf (queryRequest (hesMregOpen hesMtInterface mi))).reply).bind
    queryReply = _
  rw [Option.bind_some, hreply]
  unfold queryReply
  rw [buildSlice_received mod hfits hnul]

/-- INTERNAL: a registry before it is registered: the same devices, all of them offline. -/
theorem boot_fronts (dis : List ℕ) (reg : HesDevreg) (h : Fronts dis reg)
    (macOverride : Option CStr) (hmac : ∀ m, macOverride = some m → Plain (boundedCopy 64 m)) :
    Fronts dis { reg with devices := reg.devices.map (bootDevice macOverride) } ∧
      heldOf { reg with devices := reg.devices.map (bootDevice macOverride) } = fun _ => false := by
  refine ⟨⟨?_, fun d hd => ?_, fun d hd => ?_⟩, ?_⟩
  · rw [← h.indexes]
    exact List.map_map
  · obtain ⟨d', hd', rfl⟩ := List.mem_map.mp hd
    exact bootDevice_entry macOverride hmac d' (h.entries d' hd')
  · obtain ⟨d', hd', rfl⟩ := List.mem_map.mp hd
    exact h.netRefIndex d' hd'
  · funext di
    unfold heldOf
    cases hfind : indexByDi
        { reg with devices := reg.devices.map (bootDevice macOverride) } di with
    | none => rfl
    | some d =>
      obtain ⟨hmem, -⟩ := indexByDi_some _ di d hfind
      obtain ⟨d', -, rfl⟩ := List.mem_map.mp hmem
      rfl

/-- INTERNAL: the indexes of a module that starts with a device are a set of devices. -/
theorem boot_indexes (mod : MsModule) (hfits : ModuleFits mod) (macOverride : Option CStr)
    (t : Exchange) (h : BleCarried mod macOverride t) (reg : HesDevreg)
    (hreg : parseSlice (buildSlice mod) = some reg) (hnonempty : reg.devices ≠ []) :
    ∃ dis : List ℕ, DeviceSet dis ∧
      mod.devs.map MsDevprofile.deviceIndex = dis.map (Nat.cast : ℕ → ℤ) := by
  have hindexes : mod.devs.map MsDevprofile.deviceIndex =
      (mod.devs.map fun dev => dev.deviceIndex.toNat).map (Nat.cast : ℕ → ℤ) := by
    rw [List.map_map]
    apply List.map_congr_left
    intro dev hdev
    exact (Int.toNat_of_nonneg (h.range dev hdev).1).symm
  refine ⟨mod.devs.map fun dev => dev.deviceIndex.toNat, ?_, hindexes⟩
  refine ⟨?_, fun di hdi => ?_, fun hnil => hnonempty ?_⟩
  · apply List.Nodup.of_map (Nat.cast : ℕ → ℤ)
    rw [← hindexes]
    exact h.distinct
  · obtain ⟨dev, hdev, rfl⟩ := List.mem_map.mp hdi
    obtain ⟨hlo, hhi⟩ := h.range dev hdev
    omega
  · obtain ⟨hprinted, -⟩ := wellPrinted_of_plain mod h.plain.module fun dev hdev =>
      (h.plain.addresses dev hdev).1
    obtain ⟨reg', hparse, hdevices⟩ := parseSlice_buildSlice mod hfits hprinted
    rw [hparse, Option.some.injEq] at hreg
    rw [← hreg, hdevices, List.map_eq_nil_iff.mp hnil]
    rfl

/-- INTERNAL: **the second query** brings what the service stores by then. -/
theorem adopt_flags (mi : ℕ) (hmi : mi < 2 ^ 32) (dis : List ℕ) (hdis : DeviceSet dis)
    (s : BleSystem) (h : InStep mi dis s) :
    ∃ reg, hesMregQuery
        (reqReply s.pf (queryRequest (hesMregOpen hesMtInterface mi)) .answered).2 = some reg ∧
        InStep mi dis { s with reg := reg } ∧
        flagsOf { s with reg := reg } =
          ⟨(flagsOf s).stored, (flagsOf s).stored, (flagsOf s).echoes⟩ := by
  obtain ⟨mod, hfind, hmod⟩ := h.served
  have hserved := stored_served s mod hfind
  rw [h.client] at hfind
  obtain ⟨upd, hupd, hfronts, hheld, -⟩ := slice_fronts dis hdis mod hmod
  refine ⟨upd, ?_, ⟨h.client, h.served, hfronts, h.inbox⟩, ?_⟩
  · rw [query_slice s.pf mi hmi mod hfind hmod.fits hmod.plain, hupd]
  · show EchoedFlags.mk (heldOf upd) (flagsOf s).stored (flagsOf s).echoes = _
    rw [hheld, hserved]

/-- INTERNAL: **the start** leaves the module and the service in step, with no device online; a
registration that reaches the service leaves its echo on the way. -/
theorem boot_flags (pf : MsProfile) (mi : ℕ) (hmi : mi < 2 ^ 32) (mod : MsModule)
    (hfind : findModule pf (hesMregOpen hesMtInterface mi).moduleType mi = some mod)
    (dis : List ℕ) (hdis : DeviceSet dis) (hserves : Serves dis mod) (macOverride : Option CStr)
    (t : Exchange) (h : BleCarried mod macOverride t) :
    ∃ s, hanBleBoot pf mi macOverride t = some s ∧ InStep mi dis s ∧
      flagsOf s = ⟨fun _ => false, fun _ => false,
        if t = .unsent then [] else [fun _ => false]⟩ := by
  obtain ⟨reg, hparse, hfronts, -, -⟩ := slice_fronts dis hdis mod hserves
  have hnonempty : reg.devices ≠ [] := by
    intro hnil
    apply hdis.given
    rw [← hfronts.indexes, hnil]
    rfl
  obtain ⟨hfronts', hoffline⟩ := boot_fronts dis reg hfronts macOverride h.mac
  have hbefore : InStep mi dis ⟨pf, hesMregOpen hesMtInterface mi,
      { reg with devices := reg.devices.map (bootDevice macOverride) }, []⟩ :=
    ⟨rfl, ⟨mod, hfind, hserves⟩, hfronts', fun _ hmsg => by cases hmsg⟩
  have hreported : ∃ s, s = BleSystem.report ⟨pf, hesMregOpen hesMtInterface mi,
        { reg with devices := reg.devices.map (bootDevice macOverride) }, []⟩ t ∧
      InStep mi dis s ∧ (flagsOf s).stored = (fun _ => false) ∧
      (flagsOf s).echoes = if t = .unsent then [] else [fun _ => false] := by
    refine ⟨_, rfl, ?_⟩
    by_cases ht : t = .unsent
    · subst ht
      refine ⟨hbefore, ?_, rfl⟩
      refine (stored_served _ mod hfind).trans ?_
      funext di
      unfold servedOf
      cases hfound : findDevice mod di with
      | none => rfl
      | some dev => exact h.registered rfl dev (List.mem_of_find?_eq_some hfound)
    · obtain ⟨hin, hflags⟩ := report_flags mi hmi dis hdis _ hbefore t ht
      rw [hflags, if_neg ht]
      refine ⟨hin, hoffline, ?_⟩
      dsimp only
      rw [hoffline]
      rfl
  obtain ⟨s, hs, hin, hstored, hechoes⟩ := hreported
  obtain ⟨reg2, hreg2, hin2, hflags2⟩ := adopt_flags mi hmi dis hdis s hin
  refine ⟨{ s with reg := reg2 }, ?_, hin2, ?_⟩
  · unfold hanBleBoot
    dsimp only
    rw [query_slice pf mi hmi mod hfind hserves.fits h.plain, hparse, Option.bind_some,
      if_neg hnonempty, ← hs, hreg2, Option.map_some]
  · rw [hflags2, hstored, hechoes]

/-- INTERNAL: a module that starts is in step with the service, and consistent with no link. -/
theorem boot_consistent (pf : MsProfile) (mi : ℕ) (hmi : mi < 2 ^ 32) (mod : MsModule)
    (hfind : findModule pf (hesMregOpen hesMtInterface mi).moduleType mi = some mod)
    (hfits : ModuleFits mod)
    (hbound : ∀ dev ∈ mod.devs, dev.online = true → dev.runtimeBound = true)
    (macOverride : Option CStr) (t : Exchange) (h : BleCarried mod macOverride t) (s : BleSystem)
    (hboot : hanBleBoot pf mi macOverride t = some s) :
    ∃ dis, DeviceSet dis ∧ InStep mi dis s ∧ (flagsOf s).Consistent fun _ => false := by
  have hquery := query_slice pf mi hmi mod hfind hfits h.plain
  have hstart := hboot
  unfold hanBleBoot at hstart
  dsimp only at hstart
  rw [hquery, Option.bind_eq_some_iff] at hstart
  obtain ⟨reg, hreg, hstart⟩ := hstart
  split at hstart
  · cases hstart
  next hnonempty =>
    obtain ⟨dis, hdis, hindexes⟩ := boot_indexes mod hfits macOverride t h reg hreg hnonempty
    obtain ⟨s', hboot', hin, hflags⟩ := boot_flags pf mi hmi mod hfind dis hdis
      ⟨hfits, h.plain, hindexes, hbound⟩ macOverride t h
    obtain rfl := Option.some.inj (hboot.symm.trans hboot')
    refine ⟨dis, hdis, hin, ?_⟩
    rw [hflags]
    refine ⟨rfl, fun echo hecho => ?_, fun _ => rfl⟩
    dsimp only at hecho ⊢
    split at hecho
    · cases hecho
    · exact (Option.some.inj hecho).symm

/-! ## A link event out of step -/

/-- INTERNAL: a run that is drained at its end. -/
theorem run_drained (s : BleSystem) (steps : List BleStep) (st : BleStep) (n : ℕ) :
    s.run (steps ++ st :: List.replicate n .notification) =
      ((s.run steps).step st).run (List.replicate n .notification) := by
  unfold BleSystem.run
  rw [List.foldl_append, List.foldl_cons]

/-- INTERNAL: notifications tell no links. -/
theorem lastLink_drained (steps : List BleStep) (st : BleStep) (n di : ℕ) :
    lastLink (steps ++ st :: List.replicate n .notification) di =
      noteLink di (lastLink steps di) st := by
  unfold lastLink
  rw [List.foldl_append, List.foldl_cons]
  generalize noteLink di _ st = last
  induction n with
  | zero => rfl
  | succ n ih => exact ih

/-- INTERNAL: **merging what is left** empties the inbox and leaves the service as it is. -/
theorem drain_flags (mi : ℕ) (hmi : mi < 2 ^ 32) (dis : List ℕ) (hdis : DeviceSet dis)
    (s : BleSystem) (h : InStep mi dis s) :
    ∃ n, InStep mi dis (s.run (List.replicate n .notification)) ∧
      (s.run (List.replicate n .notification)).inbox = [] ∧
      (flagsOf (s.run (List.replicate n .notification))).stored = (flagsOf s).stored := by
  generalize hn : s.inbox.length = n
  obtain ⟨hin, hrun⟩ := run_flags mi hmi dis hdis (List.replicate n .notification) s h
  have hmerges : (List.replicate n BleStep.notification).flatMap (echoSteps dis) =
      List.replicate n .merge := by
    clear hn hin hrun
    induction n with
    | zero => rfl
    | succ n ih =>
      rw [List.replicate_succ, List.flatMap_cons, ih]
      rfl
  obtain ⟨hstored, hechoes⟩ := EchoedFlags.run_merges n (flagsOf s)
  rw [hmerges] at hrun
  rw [← hrun] at hstored hechoes
  refine ⟨n, hin, ?_, hstored⟩
  have hnil : (flagsOf (s.run (List.replicate n .notification))).echoes = [] := by
    rw [hechoes]
    apply List.drop_of_length_le
    rw [← hn]
    exact le_of_eq (List.length_map _)
  exact List.map_eq_nil_iff.mp hnil

/-- INTERNAL: **a link event that does not meet the condition** leaves the service with a wrong
flag. -/
theorem link_wrong (mi : ℕ) (hmi : mi < 2 ^ 32) (dis : List ℕ) (hdis : DeviceSet dis)
    (s : BleSystem) (h : InStep mi dis s) (ev : HesBleEvent) (t : Exchange) (last : ℕ → Bool)
    (hlast : (flagsOf s).Consistent last) (hbreaks : upToDate s (.link ev t) = false) :
    ∃ di ∈ dis, (flagsOf (s.step (.link ev t))).stored di ≠
      noteLink di (last di) (.link ev t) := by
  have hkeeps : ¬ (flagsOf s).KeepsAll (echoSteps dis (.link ev t)) := by
    rw [← upToDate_keeps mi dis hdis s h, hbreaks]
    decide
  obtain ⟨hnext, hflags⟩ := step_flags mi hmi dis hdis s h (.link ev t)
  unfold echoSteps at hkeeps hflags
  dsimp only at hkeeps hflags
  by_cases hdi : ev.deviceIndex ∈ dis
  · rw [if_pos hdi] at hkeeps hflags
    by_contra hall
    apply EchoedFlags.step_wrong (flagsOf s) last hlast
      (.event ev.deviceIndex ev.isOnline (decide (t ≠ .unsent)))
    · exact fun hkeep => hkeeps ⟨hkeep, trivial⟩
    · funext di
      have hsame : ((flagsOf s).step (.event ev.deviceIndex ev.isOnline
          (decide (t ≠ .unsent)))).stored di = (flagsOf (s.step (.link ev t))).stored di := by
        rw [hflags]
        rfl
      rw [hsame]
      show _ = Function.update last ev.deviceIndex ev.isOnline di
      by_cases hmem : di ∈ dis
      · by_contra hne
        apply hall
        refine ⟨di, hmem, fun heq => hne ?_⟩
        rw [heq]
        show (if _ then _ else _) = _
        split
        next hown => rw [← hown, Function.update_self]
        next hown => rw [Function.update_of_ne (Ne.symm hown)]
      · -- Outside the set, nothing is online and nothing is noted.
        have hne : di ≠ ev.deviceIndex := fun heq => hmem (heq ▸ hdi)
        rw [stored_outside mi dis _ hnext di hmem, Function.update_of_ne hne, ← hlast.stored,
          stored_outside mi dis s h di hmem]
  · rw [if_neg hdi] at hkeeps
    exact absurd trivial hkeeps

/-! ## Convergence -/

/-- **Presence converges** in every run whose start and steps meet the condition, and a link event
that does not meet it leaves a flag wrong when its notifications have been merged.
SRCLINE: han/ble/ble.c:228-245, 425-452, dm/dm.c:520-577, common/hes_mreg.c:332-378 -/
theorem presence_converges (txt : CStr) (pf : MsProfile) (hload : loadProfile txt = some pf)
    (requests : List (List UInt8)) (moduleRef : ℕ) (href : moduleRef < 2 ^ 32) (mod : MsModule)
    (hfind : findModule (serveRequests pf requests) hesMtInterface moduleRef = some mod)
    (macOverride : Option CStr) (t : Exchange) (hcarried : BleCarried mod macOverride t)
    (s : BleSystem)
    (hboot : hanBleBoot (serveRequests pf requests) moduleRef macOverride t = some s)
    (steps : List BleStep) (hmeets : upToDateAll s steps = true) :
    ((s.run steps).inbox = [] → Converged (s.run steps) steps) ∧
      ∀ ev t', upToDate (s.run steps) (.link ev t') = false →
        ∃ n, (s.run (steps ++ .link ev t' :: List.replicate n .notification)).inbox = [] ∧
          ¬ Converged (s.run (steps ++ .link ev t' :: List.replicate n .notification))
            (steps ++ .link ev t' :: List.replicate n .notification) := by
  have hmem := (findModule_is _ _ _ mod hfind).1
  have htype : (hesMregOpen hesMtInterface moduleRef).moduleType = hesMtInterface := by
    show boundedCopy 8 hesMtInterface = hesMtInterface
    decide +kernel
  obtain ⟨dis, hdis, hin, hstart⟩ := boot_consistent _ moduleRef href mod (htype ▸ hfind)
    (serveRequests_fits txt pf hload requests mod hmem)
    (serveRequests_bound txt pf hload requests mod hmem) macOverride t hcarried s hboot
  obtain ⟨hrun, hflags⟩ := run_flags moduleRef href dis hdis steps s hin
  have hkeeps := (run_keeps moduleRef href dis hdis steps s hin).mp hmeets
  have hconsistent := EchoedFlags.run_consistent _ _ _ hstart hkeeps
  rw [← hflags] at hconsistent
  refine ⟨converged_of_consistent moduleRef dis hdis _ hrun steps _
    (fun di hdi => lastEvents_link dis steps _ di hdi) hconsistent, ?_⟩
  intro ev t' hbreaks
  obtain ⟨di, hdi, hne⟩ := link_wrong moduleRef href dis hdis (s.run steps) hrun ev t' _
    hconsistent hbreaks
  obtain ⟨hnext, -⟩ := step_flags moduleRef href dis hdis _ hrun (.link ev t')
  obtain ⟨n, hdrained, hinbox, hstored⟩ := drain_flags moduleRef href dis hdis _ hnext
  refine ⟨n, ?_, fun hconverged => hne ?_⟩
  · rw [run_drained]
    exact hinbox
  · rw [run_drained] at hconverged
    obtain ⟨d, hfound⟩ := hdrained.fronts.declared dis _ di hdi
    obtain ⟨hd, rfl⟩ := indexByDi_some _ di d hfound
    have hright := (hconverged d hd).2
    rw [stored_some moduleRef dis _ hdrained hdis _ hdi, Option.some.injEq, hstored,
      lastLink_drained] at hright
    rw [hright, lastEvents_link dis steps _ _ hdi]
    rfl

/-- A profile of one module with two devices. -/
def twoTagsProfile : CStr :=
  lit ("\x7b\"modules\":[\x7b\"moduleType\":\"hi\",\"moduleRefIndex\":1,\"deviceProfiles\":[" ++
    "\x7b\"deviceIndex\":6\x7d,\x7b\"deviceIndex\":7\x7d]\x7d]\x7d")

/-- Its module. -/
def twoTags : MsModule where
  moduleType := lit "hi"
  moduleRefIndex := 1
  serviceModuleType := []
  networkType := []
  devs := [⟨6, 0, [], [], [], [], [], 0, false, false⟩, ⟨7, 0, [], [], [], [], [], 0, false, false⟩]

/-- INTERNAL: the slice of the two tags comes through. -/
theorem twoTags_carried : BleCarried twoTags none .answered where
  plain :=
    { module :=
        { labels := by
            intro s hs
            have hs : s ∈ [lit "hi", [], [], []] := hs
            apply plain_of_check
            revert s
            decide +kernel
          texts := by
            intro dev hdev s hs
            have hnil : s = [] := by
              simp only [twoTags, List.mem_cons, List.not_mem_nil, or_false] at hdev
              rcases hdev with rfl | rfl
              · simpa [profileTexts] using hs
              · simpa [profileTexts] using hs
            rw [hnil]
            exact plain_of_check [] (by decide) }
      addresses := by
        intro dev hdev
        simp only [twoTags, List.mem_cons, List.not_mem_nil, or_false] at hdev
        rcases hdev with rfl | rfl
        · exact ⟨plain_of_check [] (by decide), by decide⟩
        · exact ⟨plain_of_check [] (by decide), by decide⟩ }
  distinct := by decide
  range := by decide
  mac := by simp
  registered := by simp

/-- INTERNAL: it is what their profile is loaded to. -/
theorem twoTags_loaded : loadProfile twoTagsProfile = some ⟨[twoTags]⟩ := by
  unfold twoTagsProfile
  rw [lit_append, lit_ofList, lit_ofList]
  decide +kernel

/-- INTERNAL: the two devices after the start: no flag is set, and one notification is on its
way. -/
theorem twoTags_start :
    ∃ s, hanBleBoot ⟨[twoTags]⟩ 1 none .answered = some s ∧ InStep 1 [6, 7] s ∧
      flagsOf s = ⟨fun _ => false, fun _ => false, [fun _ => false]⟩ := by
  have hmem : twoTags ∈ (serveRequests ⟨[twoTags]⟩ []).modules := List.mem_singleton_self _
  have hserves : Serves [6, 7] twoTags :=
    ⟨serveRequests_fits _ _ twoTags_loaded [] twoTags hmem, twoTags_carried.plain, rfl,
      serveRequests_bound _ _ twoTags_loaded [] twoTags hmem⟩
  exact boot_flags ⟨[twoTags]⟩ 1 (by decide) twoTags (by decide +kernel) [6, 7]
    ⟨by decide, by decide, by decide⟩ hserves none .answered twoTags_carried

/-- Every notification is merged before the next link event. -/
def tagSteps : List BleStep :=
  [.notification, .link ⟨6, true⟩ .answered, .notification, .link ⟨7, true⟩ .answered, .notification,
    .link ⟨6, false⟩ .answered, .notification]

/-- Two tags whose links come and go, with the notifications behind. -/
theorem presence_converges_two_tags :
    ∃ s, hanBleBoot ⟨[twoTags]⟩ 1 none .answered = some s ∧ Converged (s.run tagSteps) tagSteps := by
  obtain ⟨s, hboot, hin, hflags⟩ := twoTags_start
  have hset : DeviceSet [6, 7] := ⟨by decide, by decide, by decide⟩
  have hmeets : upToDateAll s tagSteps = true := by
    rw [run_keeps 1 (by decide) [6, 7] hset tagSteps s hin, hflags]
    simp [tagSteps, echoSteps, EchoedFlags.KeepsAll, EchoedFlags.Keeps, EchoedFlags.step]
  have hinbox : (s.run tagSteps).inbox = [] := by
    obtain ⟨-, hrun⟩ := run_flags 1 (by decide) [6, 7] hset tagSteps s hin
    rw [hflags] at hrun
    apply List.map_eq_nil_iff.mp
    refine (congrArg EchoedFlags.echoes hrun).trans ?_
    simp [tagSteps, echoSteps, EchoedFlags.run, EchoedFlags.step]
  exact ⟨s, hboot, (presence_converges twoTagsProfile ⟨[twoTags]⟩ twoTags_loaded [] 1 (by decide)
    twoTags (by decide +kernel) none .answered twoTags_carried s hboot tagSteps hmeets).1 hinbox⟩

/-- Two links come up in one pass, and one is lost before the second notification is merged: it
stays online in the module and in the service. -/
def staleSteps : List BleStep :=
  [.notification, .link ⟨6, true⟩ .answered, .link ⟨7, true⟩ .answered, .notification,
    .link ⟨7, false⟩ .answered, .notification]

/-- A lost link is reported while a notification waits, which brings back the old flag. -/
theorem lost_link_stays_online :
    ∃ txt pf s steps, loadProfile txt = some pf ∧ hanBleBoot pf 1 none .answered = some s ∧
      (s.run steps).inbox = [] ∧ ¬ Converged (s.run steps) steps := by
  obtain ⟨s, hboot, hin, hflags⟩ := twoTags_start
  obtain ⟨hend, hrun⟩ := run_flags 1 (by decide) [6, 7] ⟨by decide, by decide, by decide⟩
    staleSteps s hin
  rw [hflags] at hrun
  refine ⟨twoTagsProfile, ⟨[twoTags]⟩, s, staleSteps, twoTags_loaded, hboot, ?_, ?_⟩
  · apply List.map_eq_nil_iff.mp
    refine (congrArg EchoedFlags.echoes hrun).trans ?_
    simp [staleSteps, echoSteps, EchoedFlags.run, EchoedFlags.step]
  · intro hconverged
    obtain ⟨d, hfind⟩ := hend.fronts.declared [6, 7] _ 7 (by decide)
    obtain ⟨hd, hindex⟩ := indexByDi_some _ 7 d hfind
    have honline : d.online = true := by
      rw [← heldOf_found _ 7 d hfind]
      refine (congrFun (congrArg EchoedFlags.held hrun) 7).trans ?_
      simp [staleSteps, echoSteps, EchoedFlags.run, EchoedFlags.step]
    have hlast := (hconverged d hd).1
    rw [honline, hindex] at hlast
    exact absurd hlast (by decide)

end OpenHes.Analysis
