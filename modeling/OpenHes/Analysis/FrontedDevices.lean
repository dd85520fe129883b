import OpenHes.Analysis.ReportVisible
import OpenHes.Analysis.NotificationTopics
import OpenHes.Model.HanBle

/-!
# A module and the devices that it fronts

The registry of an interface module and the module that the service holds for it, where both
have the same devices: what a report of the one makes of the other, and what a query and a
notification bring back of it.
-/

set_option autoImplicit false

namespace OpenHes.Analysis

open OpenHes.Library OpenHes.Library.Json OpenHes.Model

/-! ## Look-ups by index -/

/-- INTERNAL: where no two entries have one key, an entry is what its key finds. -/
theorem find_of_key {α κ : Type} [DecidableEq κ] (key : α → κ) (entries : List α)
    (hnodup : (entries.map key).Nodup) (a : α) (ha : a ∈ entries) :
    entries.find? (fun b => decide (key b = key a)) = some a := by
  induction entries with
  | nil => cases ha
  | cons b rest ih =>
    rw [List.map_cons, List.nodup_cons] at hnodup
    rcases List.mem_cons.mp ha with rfl | ha
    · exact List.find?_cons_of_pos (decide_eq_true rfl)
    · rw [List.find?_cons_of_neg]
      · exact ih hnodup.2 ha
      · intro heq
        rw [decide_eq_true_eq] at heq
        apply hnodup.1
        rw [heq]
        exact List.mem_map_of_mem ha

/-- INTERNAL: a key that no entry has is not found. -/
theorem find_key_none {α κ : Type} [DecidableEq κ] (key : α → κ) (entries : List α) (k : κ)
    (h : k ∉ entries.map key) : entries.find? (fun b => decide (key b = k)) = none := by
  rw [List.find?_eq_none]
  intro b hb heq
  rw [decide_eq_true_eq] at heq
  apply h
  rw [← heq]
  exact List.mem_map_of_mem hb

/-! ## Both sides -/

/-- The indexes of the devices: different, in the range of their C type, and at least one. -/
structure DeviceSet (dis : List ℕ) : Prop where
  distinct : dis.Nodup
  range : ∀ di ∈ dis, di < 2 ^ 32
  given : dis ≠ []

/-- The service holds these devices, its slice needs no escapes, and a device that is online is
bound. -/
structure Serves (dis : List ℕ) (mod : MsModule) : Prop where
  fits : ModuleFits mod
  plain : SlicePlain mod
  indexes : mod.devs.map MsDevprofile.deviceIndex = dis.map (Nat.cast : ℕ → ℤ)
  bound : ∀ dev ∈ mod.devs, dev.online = true → dev.runtimeBound = true

/-- The module has these devices, and may report them. -/
structure Fronts (dis : List ℕ) (reg : HesDevreg) : Prop where
  indexes : reg.devices.map HesDevice.deviceIndex = dis
  entries : ∀ d ∈ reg.devices, EntryFits d
  netRefIndex : ∀ d ∈ reg.devices, d.netRefIndex < 2 ^ 32

/-- The online flags of the registry of the module. -/
def heldOf (reg : HesDevreg) (di : ℕ) : Bool := ((indexByDi reg di).map (·.online)).getD false

/-- The online flags that the service stores. -/
def servedOf (mod : MsModule) (di : ℕ) : Bool := ((findDevice mod di).map (·.online)).getD false

/-- INTERNAL: the devices of the module have different indexes. -/
theorem Serves.nodup (dis : List ℕ) (mod : MsModule) (h : Serves dis mod)
    (hdis : DeviceSet dis) : (mod.devs.map MsDevprofile.deviceIndex).Nodup := by
  rw [h.indexes]
  exact hdis.distinct.map Nat.cast_injective

/-- INTERNAL: each of them is found by its index. -/
theorem Serves.found (dis : List ℕ) (mod : MsModule) (h : Serves dis mod)
    (hdis : DeviceSet dis) (dev : MsDevprofile) (hdev : dev ∈ mod.devs) :
    findDevice mod dev.deviceIndex = some dev :=
  find_of_key MsDevprofile.deviceIndex mod.devs (h.nodup dis mod hdis) dev hdev

/-- INTERNAL: a device of the set is in the module. -/
theorem Serves.declared (dis : List ℕ) (mod : MsModule) (h : Serves dis mod) (di : ℕ)
    (hdi : di ∈ dis) : ∃ dev ∈ mod.devs, dev.deviceIndex = di := by
  have hmem : (di : ℤ) ∈ mod.devs.map MsDevprofile.deviceIndex := by
    rw [h.indexes]
    exact List.mem_map_of_mem hdi
  obtain ⟨dev, hdev, heq⟩ := List.mem_map.mp hmem
  exact ⟨dev, hdev, heq⟩

/-- INTERNAL: a device of the module is in the set. -/
theorem Serves.index (dis : List ℕ) (mod : MsModule) (h : Serves dis mod) (dev : MsDevprofile)
    (hdev : dev ∈ mod.devs) : ∃ di ∈ dis, dev.deviceIndex = di := by
  have hmem := List.mem_map_of_mem (f := MsDevprofile.deviceIndex) hdev
  rw [h.indexes] at hmem
  obtain ⟨di, hdi, heq⟩ := List.mem_map.mp hmem
  exact ⟨di, hdi, heq.symm⟩

/-- INTERNAL: no other index is found. -/
theorem Serves.outside (dis : List ℕ) (mod : MsModule) (h : Serves dis mod) (di : ℕ)
    (hdi : di ∉ dis) : findDevice mod di = none := by
  apply find_key_none MsDevprofile.deviceIndex
  rw [h.indexes]
  intro hmem
  obtain ⟨di', hdi', heq⟩ := List.mem_map.mp hmem
  exact hdi (Nat.cast_injective heq ▸ hdi')

/-- INTERNAL: each device of the registry is found by its index. -/
theorem Fronts.found (dis : List ℕ) (reg : HesDevreg) (h : Fronts dis reg)
    (hdis : DeviceSet dis) (d : HesDevice) (hd : d ∈ reg.devices) :
    indexByDi reg d.deviceIndex = some d :=
  find_of_key HesDevice.deviceIndex reg.devices (h.indexes ▸ hdis.distinct) d hd

/-- INTERNAL: no other index is found there. -/
theorem Fronts.outside (dis : List ℕ) (reg : HesDevreg) (h : Fronts dis reg) (di : ℕ)
    (hdi : di ∉ dis) : indexByDi reg di = none :=
  find_key_none HesDevice.deviceIndex reg.devices di (h.indexes ▸ hdi)

/-- INTERNAL: what an index finds is a device of that index. -/
theorem indexByDi_some (reg : HesDevreg) (di : ℕ) (d : HesDevice) (h : indexByDi reg di = some d) :
    d ∈ reg.devices ∧ d.deviceIndex = di :=
  ⟨List.mem_of_find?_eq_some h, by simpa using List.find?_some h⟩

/-- INTERNAL: each index of the set is found there. -/
theorem Fronts.declared (dis : List ℕ) (reg : HesDevreg) (h : Fronts dis reg) (di : ℕ)
    (hdi : di ∈ dis) : ∃ d, indexByDi reg di = some d := by
  cases hfind : indexByDi reg di with
  | some d => exact ⟨d, rfl⟩
  | none =>
    rw [← h.indexes] at hdi
    obtain ⟨d, hd, heq⟩ := List.mem_map.mp hdi
    exact absurd (decide_eq_true heq) (List.find?_eq_none.mp hfind d hd)

/-- INTERNAL: the registry holds the flag of the device that is found. -/
theorem heldOf_found (reg : HesDevreg) (di : ℕ) (d : HesDevice) (h : indexByDi reg di = some d) :
    heldOf reg di = d.online := by
  unfold heldOf
  rw [h]
  rfl

/-- INTERNAL: the module tells the flag of the device that is found. -/
theorem servedOf_found (mod : MsModule) (di : ℕ) (dev : MsDevprofile)
    (h : findDevice mod di = some dev) : servedOf mod di = dev.online := by
  unfold servedOf
  rw [h]
  rfl

/-! ## The slice -/

/-- INTERNAL: **the slice** is parsed as the same devices with the same flags. -/
theorem slice_fronts (dis : List ℕ) (hdis : DeviceSet dis) (mod : MsModule)
    (h : Serves dis mod) :
    ∃ reg, parseSlice (buildSlice mod) = some reg ∧ Fronts dis reg ∧
      heldOf reg = servedOf mod ∧
      ∀ s ∈ Part.slots (sliceParts mod), ∀ c ∈ s, c ≠ 0 := by
  obtain ⟨hprinted, hnul⟩ :=
    wellPrinted_of_plain mod h.plain.module fun dev hdev => (h.plain.addresses dev hdev).1
  obtain ⟨reg, hparse, hdevices⟩ := parseSlice_buildSlice mod h.fits hprinted
  have hindex : ∀ dev ∈ mod.devs, ((readBack mod dev).deviceIndex : ℤ) = dev.deviceIndex := by
    intro dev hdev
    obtain ⟨di, hdi, heq⟩ := h.index dis mod dev hdev
    have hlt := hdis.range di hdi
    exact readIndex _ (by omega) (by omega)
  have hfronts : Fronts dis reg := by
    refine ⟨?_, fun d hd => ?_, fun d hd => ?_⟩
    · rw [hdevices]
      apply List.map_injective_iff.mpr (Nat.cast_injective (R := ℤ))
      rw [← h.indexes, List.map_map, List.map_map]
      apply List.map_congr_left
      exact fun dev hdev => hindex dev hdev
    · rw [hdevices] at hd
      obtain ⟨dev, hdev, rfl⟩ := List.mem_map.mp hd
      obtain ⟨hplain, hlen⟩ := h.plain.addresses dev hdev
      have haddress : (readBack mod dev).address = dev.runtimeAddress :=
        boundedCopy_slotValue 64 _ hplain hlen
      have hport := (h.fits.each dev hdev).runtimeUdpPort
      refine ⟨toUInt32_lt _, ?_, ?_, ?_⟩
      · rw [haddress]
        exact hlen
      · rw [readBack_udpPort mod dev hport]
        exact hport
      · rw [haddress]
        exact hplain
    · rw [hdevices] at hd
      obtain ⟨dev, -, rfl⟩ := List.mem_map.mp hd
      exact toUInt32_lt _
  refine ⟨reg, hparse, hfronts, ?_, hnul⟩
  funext di
  by_cases hdi : di ∈ dis
  · obtain ⟨dev, hdev, heq⟩ := h.declared dis mod di hdi
    have hmem : readBack mod dev ∈ reg.devices := by
      rw [hdevices]
      exact List.mem_map_of_mem hdev
    have hsame : (readBack mod dev).deviceIndex = di := by
      have := hindex dev hdev
      omega
    have hfound := hfronts.found dis reg hdis _ hmem
    have hserved := h.found dis mod hdis dev hdev
    rw [hsame] at hfound
    rw [heq] at hserved
    rw [heldOf_found reg di _ hfound, servedOf_found mod di dev hserved, readBack_online]
    cases honline : dev.online with
    | true => rw [h.bound dev hdev honline]; rfl
    | false => exact Bool.and_false _
  · unfold heldOf servedOf
    rw [hfronts.outside dis reg di hdi, h.outside dis mod di hdi]
    rfl

/-! ## The report -/

/-- INTERNAL: a report whose first entry names a device of the module is published. -/
theorem applyReport_changed (root : Json) (mod : MsModule) (d : HesDevice) (rest : List Json)
    (hrows : root.rows (lit "devices") = ofMembers (entryMembers d) :: rest)
    (hd : EntryFits d) (dev : MsDevprofile) (hfind : findDevice mod d.deviceIndex = some dev) :
    (applyReport root mod).2 = true := by
  have hkeep : ∀ (es : List Json) (acc : MsModule × Bool), acc.2 = true →
      (es.foldl reportDevice acc).2 = true := by
    intro es
    induction es with
    | nil => exact fun _ h => h
    | cons e es ih =>
      intro acc h
      apply ih
      unfold reportDevice
      dsimp only
      split
      · rfl
      · exact h
  unfold applyReport
  rw [hrows, List.foldl_cons]
  apply hkeep
  unfold reportDevice
  dsimp only
  rw [entry_index d hd, hfind]

section reported

variable (dis : List ℕ) (hdis : DeviceSet dis) (mod : MsModule) (hmod : Serves dis mod)
  (reg : HesDevreg) (hreg : Fronts dis reg) (root : Json)
  (hrows : root.rows (lit "devices") = reg.devices.map fun d => ofMembers (entryMembers d))

include hdis hmod hreg hrows

/-- INTERNAL: a device of the set is found as its entry makes it. -/
theorem reported_taken (di : ℕ) (hdi : di ∈ dis) :
    ∃ d dev, indexByDi reg di = some d ∧ dev ∈ mod.devs ∧
      findDevice (applyReport root mod).1 di = some (takeEntry d dev) := by
  obtain ⟨d, hd⟩ := hreg.declared dis reg di hdi
  obtain ⟨hmem, heq⟩ := indexByDi_some reg di d hd
  obtain ⟨dev, hdev, hindex⟩ := hmod.declared dis mod di hdi
  have htake := findDevice_takeEntries mod reg.devices hreg.entries
    (hreg.indexes ▸ hdis.distinct) d hmem
  have hfound := hmod.found dis mod hdis dev hdev
  rw [hindex] at hfound
  rw [heq, ← applyReport_entries root mod reg.devices hrows, hfound] at htake
  exact ⟨d, dev, hd, hdev, htake⟩

/-- INTERNAL: every device that the service holds afterwards comes of an entry. -/
theorem reported_from (dev' : MsDevprofile) (hdev' : dev' ∈ (applyReport root mod).1.devs) :
    ∃ d ∈ reg.devices, ∃ dev ∈ mod.devs, dev' = takeEntry d dev := by
  have hindexes := (applyReport_indexes root mod).trans hmod.indexes
  have hnodup : ((applyReport root mod).1.devs.map MsDevprofile.deviceIndex).Nodup := by
    rw [hindexes]
    exact hdis.distinct.map Nat.cast_injective
  have hmem := List.mem_map_of_mem (f := MsDevprofile.deviceIndex) hdev'
  rw [hindexes] at hmem
  obtain ⟨di, hdi, heq⟩ := List.mem_map.mp hmem
  have hfound := find_of_key MsDevprofile.deviceIndex _ hnodup dev' hdev'
  obtain ⟨d, dev, hd, hdev, htake⟩ := reported_taken dis hdis mod hmod reg hreg root hrows di hdi
  unfold findDevice isDevice at htake
  rw [heq, hfound, Option.some.injEq] at htake
  exact ⟨d, (indexByDi_some reg di d hd).1, dev, hdev, htake⟩

/-- INTERNAL: a report leaves the module its devices. -/
theorem reported_serves : Serves dis (applyReport root mod).1 where
  fits := applyReport_fits root mod hmod.fits
  plain := by
    refine ⟨applyReport_plain root mod hmod.plain.module, fun dev' hdev' => ?_⟩
    obtain ⟨d, hd, dev, hdev, rfl⟩ :=
      reported_from dis hdis mod hmod reg hreg root hrows dev' hdev'
    show Plain (if _ then _ else _) ∧ (if _ then _ else _ : CStr).length < 64
    split
    · exact hmod.plain.addresses dev hdev
    · exact ⟨(hreg.entries d hd).plain, (hreg.entries d hd).address⟩
  indexes := (applyReport_indexes root mod).trans hmod.indexes
  bound := by
    intro dev' hdev' _
    obtain ⟨d, -, dev, -, rfl⟩ := reported_from dis hdis mod hmod reg hreg root hrows dev' hdev'
    rfl

/-- INTERNAL: **the flags** that the service stores are those of the report. -/
theorem reported_flags : servedOf (applyReport root mod).1 = heldOf reg := by
  funext di
  by_cases hdi : di ∈ dis
  · obtain ⟨d, dev, hd, -, htake⟩ := reported_taken dis hdis mod hmod reg hreg root hrows di hdi
    rw [servedOf_found _ di _ htake, heldOf_found reg di d hd]
    rfl
  · have hserves := reported_serves dis hdis mod hmod reg hreg root hrows
    unfold heldOf servedOf
    rw [hreg.outside dis reg di hdi, hserves.outside dis _ di hdi]
    rfl

/-- INTERNAL: it is published, as its first entry names one of them. -/
theorem reported_changed : (applyReport root mod).2 = true := by
  cases hdevices : reg.devices with
  | nil =>
    have hindexes := hreg.indexes
    rw [hdevices] at hindexes
    exact absurd hindexes.symm hdis.given
  | cons d rest =>
    have hd : d ∈ reg.devices := hdevices ▸ List.mem_cons_self
    obtain ⟨dev, hdev, hindex⟩ := hmod.declared dis mod d.deviceIndex (by
      rw [← hreg.indexes]
      exact List.mem_map_of_mem hd)
    have hfound := hmod.found dis mod hdis dev hdev
    rw [hindex] at hfound
    rw [hdevices, List.map_cons] at hrows
    exact applyReport_changed root mod d _ hrows (hreg.entries d hd) dev hfound

end reported

/-- INTERNAL: **the report** of the same devices leaves the service with their flags, and its
slice is published. -/
theorem report_serves (dis : List ℕ) (hdis : DeviceSet dis) (mt : CStr) (mi : ℕ)
    (hmi : mi < 2 ^ 32) (pf : MsProfile) (mod : MsModule)
    (hfind : findModule pf (hesMregOpen mt mi).moduleType mi = some mod) (hmod : Serves dis mod)
    (reg : HesDevreg) (hreg : Fronts dis reg) :
    ∃ mod', findModule (serveRequest pf (reportRequest (hesMregOpen mt mi) reg)).pf
        (hesMregOpen mt mi).moduleType mi = some mod' ∧
      Serves dis mod' ∧ servedOf mod' = heldOf reg ∧
      (serveRequest pf (reportRequest (hesMregOpen mt mi) reg)).published =
        [publishSlice mod'] := by
  have hclient : FitsClient (hesMregOpen mt mi) reg.devices :=
    { moduleRefIndex := hmi
      deviceIndex := fun d hd => (hreg.entries d hd).deviceIndex
      netRefIndex := hreg.netRefIndex
      udpPort := fun d hd => (hreg.entries d hd).udpPort }
  have hcount : reg.devices.length ≤ hesDevregMaxDevices := by
    have hdevs := congrArg List.length hmod.indexes
    have hdevices := congrArg List.length hreg.indexes
    rw [List.length_map] at hdevs hdevices
    rw [List.length_map] at hdevs
    rw [hdevices, ← hdevs]
    exact hmod.fits.devs
  have htype := plain_moduleType pf _ _ mod hfind hmod.plain.module.labels
  obtain ⟨root, hrows, hserved⟩ := serveRequest_report pf (hesMregOpen mt mi) reg mod hclient
    hcount (fun d hd => (hreg.entries d hd).address) htype (boundedCopy_length 8 mt (by decide))
    (fun d hd => (hreg.entries d hd).plain) hfind
  refine ⟨(applyReport root mod).1, ?_, ?_, ?_, ?_⟩
  · rw [hserved]
    exact findModule_reported pf _ _ mod hfind root
  · exact reported_serves dis hdis mod hmod reg hreg root hrows
  · exact reported_flags dis hdis mod hmod reg hreg root hrows
  · rw [hserved]
    dsimp only
    rw [if_pos (reported_changed dis hdis mod hmod reg hreg root hrows)]

/-! ## The notification -/

/-- INTERNAL: **the notification** of the own slice is handed to the client, which takes the
slice out of it. -/
theorem notification_slice (mt : CStr) (mi : ℕ) (hmi : mi < 2 ^ 32) (mod : MsModule)
    (hfits : ModuleFits mod) (hindex : mod.moduleRefIndex = mi)
    (hnul : ∀ s ∈ Part.slots (sliceParts mod), ∀ c ∈ s, c ≠ 0) :
    (hesMregOpen mt mi).subscribed (publishSlice mod) = true ∧
      hesMregRecvUpdate (hesMregOpen mt mi) (publishSlice mod) = parseSlice (buildSlice mod) := by
  have htopic := topic_decimal mt mi hmi
  have hmsg : publishSlice mod = Binary64.decimal mi ++ buildSlice mod := by
    unfold publishSlice
    rw [hindex, fmtD_natural]
  have hstart : Binary64.decimal mi <+: publishSlice mod := by
    rw [hmsg]
    exact List.prefix_append _ _
  have hwhole : receivedText hesMregReplyMax (publishSlice mod) = publishSlice mod := by
    apply receivedText_whole
    · have hslice := buildSlice_length mod hfits
      have hhead := decimal_length mi hmi
      rw [hmsg, List.length_append]
      omega
    · rw [hmsg]
      intro c hc
      rcases List.mem_append.mp hc with hc | hc
      · rintro rfl
        exact absurd (Binary64.decimal_digits mi 0 hc) (by decide)
      · rw [← render_sliceParts] at hc
        exact render_no_nul _ (sliceParts_sound mod (fitsNumbers_of_fits mod hfits)) hnul c hc
  refine ⟨?_, ?_⟩
  · unfold HesMreg.subscribed
    rw [htopic]
    exact List.isPrefixOf_iff_prefix.mpr hstart
  · unfold hesMregRecvUpdate
    dsimp only
    rw [hwhole, htopic, if_pos (List.isPrefixOf_iff_prefix.mpr hstart), hmsg, List.drop_left]

/-! ## The registry of the module -/

/-- INTERNAL: merging keeps the index. -/
theorem mergeDevice_index (upd : HesDevreg) (d : HesDevice) :
    (mergeDevice upd d).deviceIndex = d.deviceIndex := by
  unfold mergeDevice
  split <;> rfl

/-- INTERNAL: it keeps the network's index. -/
theorem mergeDevice_netRefIndex (upd : HesDevreg) (d : HesDevice) :
    (mergeDevice upd d).netRefIndex = d.netRefIndex := by
  unfold mergeDevice
  split <;> rfl

/-- INTERNAL: it keeps a device one that may be reported. -/
theorem mergeDevice_entry (dis : List ℕ) (upd : HesDevreg) (hupd : Fronts dis upd) (d : HesDevice)
    (hd : EntryFits d) : EntryFits (mergeDevice upd d) := by
  unfold mergeDevice
  split
  · exact hd
  next u hu =>
    have hentry := hupd.entries u (indexByDi_some upd _ u hu).1
    refine ⟨hd.deviceIndex, ?_, hd.udpPort, ?_⟩
    · show (if _ then _ else _ : CStr).length < 64
      split
      · exact hd.address
      · exact boundedCopy_length 64 _ (by decide)
    · show Plain (if _ then _ else _)
      split
      · exact hd.plain
      · rw [boundedCopy_of_short _ _ hentry.address]
        exact hentry.plain

/-- INTERNAL: what is found in a merged registry is what was found, merged. -/
theorem indexByDi_mergeSlice (reg upd : HesDevreg) (di : ℕ) :
    indexByDi (mergeSlice reg upd) di = (indexByDi reg di).map (mergeDevice upd) := by
  unfold indexByDi mergeSlice
  dsimp only
  rw [List.find?_map]
  refine congrArg _ (congrFun (congrArg List.find? ?_) _)
  funext d
  show decide ((mergeDevice upd d).deviceIndex = di) = _
  rw [mergeDevice_index]

/-- INTERNAL: **a merge** takes the flags of the slice over. -/
theorem mergeSlice_fronts (dis : List ℕ) (reg upd : HesDevreg) (hreg : Fronts dis reg)
    (hupd : Fronts dis upd) :
    Fronts dis (mergeSlice reg upd) ∧ heldOf (mergeSlice reg upd) = heldOf upd := by
  refine ⟨⟨?_, fun d hd => ?_, fun d hd => ?_⟩, ?_⟩
  · rw [← hreg.indexes]
    show (reg.devices.map (mergeDevice upd)).map _ = _
    rw [List.map_map]
    exact List.map_congr_left fun d _ => mergeDevice_index upd d
  · obtain ⟨d', hd', rfl⟩ := List.mem_map.mp hd
    exact mergeDevice_entry dis upd hupd d' (hreg.entries d' hd')
  · obtain ⟨d', hd', rfl⟩ := List.mem_map.mp hd
    rw [mergeDevice_netRefIndex]
    exact hreg.netRefIndex d' hd'
  · funext di
    have hfind := indexByDi_mergeSlice reg upd di
    by_cases hdi : di ∈ dis
    · obtain ⟨d, hd⟩ := hreg.declared dis reg di hdi
      obtain ⟨u, hu⟩ := hupd.declared dis upd di hdi
      have hmerged : (mergeDevice upd d).online = u.online := by
        unfold mergeDevice
        rw [(indexByDi_some reg di d hd).2, hu]
      rw [hd] at hfind
      rw [heldOf_found upd di u hu, heldOf_found _ di _ hfind, hmerged]
    · unfold heldOf
      rw [hfind, hreg.outside dis reg di hdi, hupd.outside dis upd di hdi]
      rfl

/-- INTERNAL: **setting a flag** changes that flag. -/
theorem setOnline_fronts (dis : List ℕ) (reg : HesDevreg) (hreg : Fronts dis reg) (di : ℕ)
    (hdi : di ∈ dis) (online : Bool) :
    Fronts dis (setOnline reg di online) ∧
      heldOf (setOnline reg di online) = Function.update (heldOf reg) di online := by
  refine ⟨⟨?_, ?_, ?_⟩, ?_⟩
  · rw [← hreg.indexes]
    exact map_updateFirst _ _ _ _ fun _ => rfl
  · exact forall_updateFirst _ _ _ EntryFits hreg.entries fun d _ hd =>
      ⟨hd.deviceIndex, hd.address, hd.udpPort, hd.plain⟩
  · exact forall_updateFirst _ _ _ (fun d : HesDevice => d.netRefIndex < 2 ^ 32)
      hreg.netRefIndex fun _ _ hd => hd
  · funext di'
    by_cases hsame : di' = di
    · subst hsame
      obtain ⟨d, hd⟩ := hreg.declared dis reg di' hdi
      rw [Function.update_self, heldOf_found _ di' { d with online := online }]
      unfold indexByDi setOnline at *
      dsimp only
      rw [find_updateFirst, hd]
      · rfl
      · exact fun _ h => h
    · rw [Function.update_of_ne hsame]
      unfold heldOf indexByDi setOnline
      dsimp only
      rw [find_updateFirst_other]
      intro d hd
      have hd : d.deviceIndex = di := of_decide_eq_true hd
      have hne : ¬ d.deviceIndex = di' := fun heq => hsame (heq.symm.trans hd)
      exact ⟨decide_eq_false hne, decide_eq_false hne⟩

/-- INTERNAL: a device before it is registered may be reported. -/
theorem bootDevice_entry (mac : Option CStr) (hmac : ∀ m, mac = some m → Plain (boundedCopy 64 m))
    (d : HesDevice) (hd : EntryFits d) : EntryFits (bootDevice mac d) := by
  have hmade : ∀ n < 256, ((boundedCopy 64 (lit "24:71:89:BC:32:" ++ fmt02u n)).all Part.isPlain &&
      utf8CheckString (boundedCopy 64 (lit "24:71:89:BC:32:" ++ fmt02u n))) = true := by
    decide +kernel
  refine ⟨hd.deviceIndex, ?_, hd.udpPort, ?_⟩
  · show (if _ then _ else _ : CStr).length < 64
    split
    · split
      · exact boundedCopy_length 64 _ (by decide)
      · exact boundedCopy_length 64 _ (by decide)
    · exact hd.address
  · show Plain (if _ then _ else _)
    split
    · split
      · exact hmac _ rfl
      · exact plain_of_check _ (hmade _ (Nat.mod_lt _ (by decide)))
    · exact hd.plain

end OpenHes.Analysis
