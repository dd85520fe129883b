import OpenHes.Analysis.ReportText
import Mathlib.Data.List.Find

/-!
# Reports and the queries behind them

What a report does to the registry of the service, and what the next query brings back of it.
A report that the service refuses is answered too, and the answer is not read.
-/

set_option autoImplicit false

namespace OpenHes.Analysis

open OpenHes.Library OpenHes.Library.Json OpenHes.Model

/-! ## Reading a request -/

section members

variable (ms : List Member) (hnodup : (ms.map Member.key).Nodup)

include hnodup

/-- INTERNAL: the service reads a text member, cut to its array. -/
theorem objStr_ofMembers (key s : CStr) (ts : List Token) (dstsz : ℕ)
    (hm : ⟨key, ts, .string s⟩ ∈ ms) : objStr (ofMembers ms) key dstsz = boundedCopy dstsz s := by
  unfold objStr
  rw [getString_ofMembers ms hnodup key s ts hm]
  rfl

/-- INTERNAL: it reads a number through the double that the library makes of it. -/
theorem objLong_ofMembers (key : CStr) (n dflt : ℤ) (ts : List Token)
    (hm : ⟨key, ts, .integer n⟩ ∈ ms) : objLong (ofMembers ms) key dflt = readLong n := by
  have := get_ofMembers ms hnodup _ hm
  dsimp only at this
  unfold objLong
  rw [this]
  rfl

end members

/-- INTERNAL: a query is answered with the slice of its module. -/
theorem handleRequest_query (pf : MsProfile) (req : CStr) (root : Json) (mt : CStr) (mi : ℤ)
    (mod : MsModule) (hload : loads req = some root)
    (hcmd : objStr root (lit "cmd") maxCmdSize = lit "query")
    (hmt : objStr root (lit "moduleType") maxCmdSize = mt)
    (hmi : objLong root (lit "moduleRefIndex") (-1) = mi) (hpos : 0 ≤ mi)
    (hfind : findModule pf mt mi = some mod) : (handleRequest pf req).reply = buildSlice mod := by
  have hmodules : lit "query" ≠ lit "modules" := by decide +kernel
  unfold handleRequest
  rw [hload]
  dsimp only
  rw [hcmd, hmt, hmi, if_neg hmodules, if_neg (by omega), hfind]
  dsimp only
  rw [if_pos rfl]

/-- INTERNAL: a report changes its module alone. -/
theorem handleRequest_report (pf : MsProfile) (req : CStr) (root : Json) (mt : CStr) (mi : ℤ)
    (mod : MsModule) (hload : loads req = some root)
    (hcmd : objStr root (lit "cmd") maxCmdSize = lit "report")
    (hmt : objStr root (lit "moduleType") maxCmdSize = mt)
    (hmi : objLong root (lit "moduleRefIndex") (-1) = mi) (hpos : 0 ≤ mi)
    (hfind : findModule pf mt mi = some mod) :
    handleRequest pf req =
      ⟨⟨updateFirst (isModule mt mi) (fun _ => (applyReport root mod).1) pf.modules⟩,
        if (applyReport root mod).2 then [publishSlice (applyReport root mod).1] else [],
        lit "\x7b\"ok\":1\x7d"⟩ := by
  have hmodules : lit "report" ≠ lit "modules" := by decide +kernel
  have hquery : lit "report" ≠ lit "query" := by decide +kernel
  unfold handleRequest
  rw [hload]
  dsimp only
  rw [hcmd, hmt, hmi, if_neg hmodules, if_neg (by omega), hfind]
  dsimp only
  rw [if_neg hquery, if_pos rfl]

/-- INTERNAL: the module that is found has the type and the index asked for. -/
theorem findModule_is (pf : MsProfile) (mt : CStr) (mi : ℤ) (mod : MsModule)
    (h : findModule pf mt mi = some mod) :
    mod ∈ pf.modules ∧ mod.moduleRefIndex = mi ∧ (mt = [] ∨ mod.moduleType = mt) := by
  refine ⟨List.mem_of_find?_eq_some h, ?_⟩
  have := List.find?_some h
  unfold isModule at this
  simp only [Bool.and_eq_true, Bool.or_eq_true, decide_eq_true_eq] at this
  exact this

/-! ## What a report changes -/

/-- What one entry of a report makes of the device that it names. -/
def takeEntry (d : HesDevice) (dev : MsDevprofile) : MsDevprofile :=
  { dev with
    runtimeBound := true
    runtimeAddress := if d.address = [] then dev.runtimeAddress else d.address
    runtimeUdpPort := if 0 ≤ d.udpPort then d.udpPort else dev.runtimeUdpPort
    online := d.online }

/-- INTERNAL: an address that is not empty is taken. -/
theorem takeEntry_address (d : HesDevice) (dev : MsDevprofile) (h : d.address ≠ []) :
    (takeEntry d dev).runtimeAddress = d.address := if_neg h

/-- A device that a client may report. -/
structure EntryFits (d : HesDevice) : Prop where
  deviceIndex : d.deviceIndex < 2 ^ 32
  address : d.address.length < 64
  udpPort : FitsInt32 d.udpPort
  plain : Plain d.address

/-- INTERNAL: no two members of an entry have one name. -/
theorem entryMembers_nodup (d : HesDevice) : ((entryMembers d).map Member.key).Nodup := by
  show [lit "deviceIndex", lit "netRefIndex", lit "address", lit "udpPort", lit "online"].Nodup
  decide +kernel

/-- INTERNAL: the service reads the address of an entry. -/
theorem entry_address (d : HesDevice) (h : EntryFits d) :
    objStr (ofMembers (entryMembers d)) (lit "address") msPath = d.address := by
  rw [objStr_ofMembers _ (entryMembers_nodup d) (lit "address") (slotValue d.address)
    [.string (slotValue d.address)] _ (by simp [entryMembers])]
  have := h.address
  exact boundedCopy_slotValue _ _ h.plain (by unfold msPath; omega)

/-- INTERNAL: it is copied whole. -/
theorem entry_copy (d : HesDevice) (h : EntryFits d) : boundedCopy msPath d.address = d.address := by
  have := h.address
  exact boundedCopy_of_short _ _ (by unfold msPath; omega)

/-- INTERNAL: the service reads the index of an entry. -/
theorem entry_index (d : HesDevice) (h : EntryFits d) :
    objLong (ofMembers (entryMembers d)) (lit "deviceIndex") (-1) = d.deviceIndex := by
  rw [objLong_ofMembers _ (entryMembers_nodup d) (lit "deviceIndex") d.deviceIndex (-1)
    [.integer d.deviceIndex] (by simp [entryMembers])]
  have := h.deviceIndex
  exact readLong_small _ (by omega) (by omega)

/-- INTERNAL: **an entry** of a report carries the values of its device; an empty address and a
negative port change nothing. -/
theorem updateDevice_entry (d : HesDevice) (h : EntryFits d) (dev : MsDevprofile) :
    updateDevice (ofMembers (entryMembers d)) dev = takeEntry d dev := by
  have hnodup := entryMembers_nodup d
  have hport : objLong (ofMembers (entryMembers d)) (lit "udpPort") (-1) = d.udpPort := by
    rw [objLong_ofMembers _ hnodup (lit "udpPort") d.udpPort (-1) [.integer d.udpPort]
      (by simp [entryMembers])]
    obtain ⟨hlo, hhi⟩ := h.udpPort
    exact readLong_small _ (by omega) (by omega)
  have honline : objLong (ofMembers (entryMembers d)) (lit "online") (-1) =
      flagNumber d.online := by
    rw [objLong_ofMembers _ hnodup (lit "online") (flagNumber d.online) (-1)
      [.integer (flagNumber d.online)] (by simp [entryMembers])]
    unfold flagNumber
    split
    · exact readLong_small _ (by omega) (by omega)
    · exact readLong_small _ (by omega) (by omega)
  unfold updateDevice takeEntry
  rw [entry_address d h, hport, honline]
  dsimp only
  rw [entry_copy d h, toInt32_of_fits _ h.udpPort]
  cases hflag : d.online with
  | true => rfl
  | false => rfl

/-- INTERNAL: **a step of the report** changes what its device is found as, and no other. -/
theorem findDevice_reportDevice (acc : MsModule × Bool) (d : HesDevice) (h : EntryFits d)
    (di : ℤ) :
    findDevice (reportDevice acc (ofMembers (entryMembers d))).1 di =
      if di = d.deviceIndex then (findDevice acc.1 di).map (takeEntry d)
      else findDevice acc.1 di := by
  have hupdate : updateDevice (ofMembers (entryMembers d)) = takeEntry d :=
    funext (updateDevice_entry d h)
  unfold reportDevice
  dsimp only
  rw [entry_index d h, hupdate]
  cases hfound : findDevice acc.1 d.deviceIndex with
  | none =>
    dsimp only
    split
    next hdi =>
      rw [hdi, hfound]
      rfl
    · rfl
  | some dev =>
    dsimp only
    unfold findDevice
    split
    next hdi =>
      rw [hdi]
      exact find_updateFirst _ _ _ fun dev hdev => hdev
    next hdi =>
      apply find_updateFirst_other
      intro dev hdev
      unfold isDevice at hdev ⊢
      rw [decide_eq_true_eq] at hdev
      have hne : ¬ dev.deviceIndex = di := fun heq => hdi (heq.symm.trans hdev)
      exact ⟨decide_eq_false hne, decide_eq_false hne⟩

/-- The entries of a report, one after the other. -/
def takeEntries (mod : MsModule) (devices : List HesDevice) : MsModule :=
  ((devices.map fun d => ofMembers (entryMembers d)).foldl reportDevice (mod, false)).1

/-- INTERNAL: **a report** of different devices leaves each with the values of its entry. -/
theorem findDevice_takeEntries (mod : MsModule) (devices : List HesDevice)
    (hfits : ∀ d ∈ devices, EntryFits d) (hnodup : (devices.map HesDevice.deviceIndex).Nodup) :
    ∀ d ∈ devices, findDevice (takeEntries mod devices) d.deviceIndex =
      (findDevice mod d.deviceIndex).map (takeEntry d) := by
  have hother : ∀ (devices : List HesDevice) (acc : MsModule × Bool) (di : ℤ),
      (∀ d ∈ devices, EntryFits d) → (∀ d ∈ devices, (d.deviceIndex : ℤ) ≠ di) →
      findDevice ((devices.map fun d => ofMembers (entryMembers d)).foldl reportDevice acc).1 di =
        findDevice acc.1 di := by
    intro devices
    induction devices with
    | nil => exact fun _ _ _ _ => rfl
    | cons d rest ih =>
      intro acc di hfits hne
      rw [List.map_cons, List.foldl_cons, ih _ di (fun b hb => hfits b (List.mem_cons_of_mem _ hb))
        (fun b hb => hne b (List.mem_cons_of_mem _ hb)),
        findDevice_reportDevice acc d (hfits d List.mem_cons_self),
        if_neg fun heq => hne d List.mem_cons_self heq.symm]
  have hrun : ∀ (devices : List HesDevice) (acc : MsModule × Bool),
      (∀ d ∈ devices, EntryFits d) → (devices.map HesDevice.deviceIndex).Nodup →
      ∀ d ∈ devices, findDevice
        ((devices.map fun d => ofMembers (entryMembers d)).foldl reportDevice acc).1
          d.deviceIndex = (findDevice acc.1 d.deviceIndex).map (takeEntry d) := by
    intro devices
    induction devices with
    | nil => simp
    | cons first rest ih =>
      intro acc hfits hnodup d hd
      rw [List.map_cons, List.nodup_cons] at hnodup
      have hrest : ∀ b ∈ rest, EntryFits b := fun b hb => hfits b (List.mem_cons_of_mem _ hb)
      have hfirst := hfits first List.mem_cons_self
      rw [List.map_cons, List.foldl_cons]
      rcases List.mem_cons.mp hd with rfl | hd
      · rw [hother rest _ _ hrest, findDevice_reportDevice acc d hfirst, if_pos rfl]
        intro b hb heq
        apply hnodup.1
        rw [List.mem_map]
        exact ⟨b, hb, Int.ofNat.inj heq⟩
      · rw [ih _ hrest hnodup.2 d hd, findDevice_reportDevice acc first hfirst, if_neg]
        intro heq
        apply hnodup.1
        rw [List.mem_map]
        exact ⟨d, hd, Int.ofNat.inj heq⟩
  exact hrun devices (mod, false) hfits hnodup

/-! ## What a report leaves -/

/-- The texts of a device that its profile gives. -/
def profileTexts (dev : MsDevprofile) : List CStr :=
  dev.role :: dev.expectedHardware :: dev.objects.flatMap fun ob => [ob.path, ob.access]

/-- The device is the other one behind reports: what its profile gives is the same. -/
structure SameProfile (dev dev' : MsDevprofile) : Prop where
  deviceIndex : dev'.deviceIndex = dev.deviceIndex
  networkType : dev'.networkType = dev.networkType
  texts : profileTexts dev' = profileTexts dev

/-- The address is the old one, or the text of some entry. -/
def AddressFrom (es : List Json) (dev dev' : MsDevprofile) : Prop :=
  dev'.runtimeAddress = dev.runtimeAddress ∨
    ∃ e ∈ es, dev'.runtimeAddress = boundedCopy msPath (objStr e (lit "address") msPath)

/-- INTERNAL: **a report** leaves the module as its profile has it, and addresses that are old
or its own. -/
theorem applyReport_keeps (root : Json) (mod : MsModule) :
    (applyReport root mod).1.moduleType = mod.moduleType ∧
      (applyReport root mod).1.networkType = mod.networkType ∧
      ∀ dev' ∈ (applyReport root mod).1.devs, ∃ dev ∈ mod.devs, SameProfile dev dev' ∧
        AddressFrom (root.rows (lit "devices")) dev dev' := by
  refine applyReport_invariant (fun m => m.moduleType = mod.moduleType ∧
    m.networkType = mod.networkType ∧ ∀ dev' ∈ m.devs, ∃ dev ∈ mod.devs, SameProfile dev dev' ∧
      AddressFrom (root.rows (lit "devices")) dev dev') root ?_ mod ?_
  · rintro acc e he ⟨htype, hnetwork, hdevs⟩
    unfold reportDevice
    dsimp only
    split
    · refine ⟨htype, hnetwork, fun dev' hdev' => ?_⟩
      rcases mem_updateFirst _ _ _ dev' hdev' with hdev' | ⟨mid, hmid, -, rfl⟩
      · exact hdevs dev' hdev'
      · obtain ⟨dev, hdev, hsame, haddress⟩ := hdevs mid hmid
        refine ⟨dev, hdev, ⟨hsame.deviceIndex, hsame.networkType, hsame.texts⟩, ?_⟩
        unfold AddressFrom updateDevice
        dsimp only
        split
        · exact haddress
        · exact Or.inr ⟨e, he, rfl⟩
    · exact ⟨htype, hnetwork, hdevs⟩
  · exact ⟨rfl, rfl, fun dev hdev => ⟨dev, hdev, ⟨rfl, rfl, rfl⟩, Or.inl rfl⟩⟩

/-- INTERNAL: the module that was reported for is found again, as the report leaves it. -/
theorem findModule_reported (pf : MsProfile) (mt : CStr) (mi : ℤ) (mod : MsModule)
    (hfind : findModule pf mt mi = some mod) (root : Json) :
    findModule ⟨updateFirst (isModule mt mi) (fun _ => (applyReport root mod).1) pf.modules⟩ mt mi =
      some (applyReport root mod).1 := by
  unfold findModule at hfind ⊢
  dsimp only
  rw [find_updateFirst, hfind]
  · rfl
  · intro _ _
    have his := List.find?_some hfind
    unfold isModule at his ⊢
    rw [(applyReport_keeps root mod).1, applyReport_index root mod]
    exact his

/-- INTERNAL: a report of these devices is their entries, one after the other. -/
theorem applyReport_entries (root : Json) (mod : MsModule) (devices : List HesDevice)
    (hrows : root.rows (lit "devices") = devices.map fun d => ofMembers (entryMembers d)) :
    (applyReport root mod).1 = takeEntries mod devices := by
  unfold applyReport takeEntries
  rw [hrows]

/-- INTERNAL: the texts that are compared are the profile's and the address. -/
theorem mem_comparedTexts (dev : MsDevprofile) (s : CStr) :
    s ∈ comparedTexts dev ↔ s ∈ profileTexts dev ∨ s = dev.runtimeAddress := by
  unfold comparedTexts profileTexts
  simp only [List.mem_cons]
  tauto

/-- INTERNAL: a report adds no label. -/
theorem applyReport_labels (root : Json) (mod : MsModule) (s : CStr)
    (hs : s ∈ labels (applyReport root mod).1) : s ∈ labels mod := by
  obtain ⟨htype, hnetwork, hdevs⟩ := applyReport_keeps root mod
  unfold labels at hs ⊢
  rw [htype, hnetwork] at hs
  simp only [List.mem_cons, List.mem_map] at hs ⊢
  rcases hs with hs | hs | ⟨dev', hdev', rfl⟩
  · exact Or.inl hs
  · exact Or.inr (Or.inl hs)
  · obtain ⟨dev, hdev, hsame, -⟩ := hdevs dev' hdev'
    refine Or.inr (Or.inr ⟨dev, hdev, ?_⟩)
    unfold deviceNetwork
    rw [hsame.networkType, hnetwork]

/-! ## Reports and what is shown of them -/

/-- A registry that a module may report: it is within its C type, its device indexes are
different and in the profile of the module, its addresses have 1 to 63 bytes and its ports are
not negative. -/
structure Reportable (pf : MsProfile) (m : HesMreg) (reg : HesDevreg) : Prop where
  fits : FitsClient m reg.devices
  count : reg.devices.length ≤ hesDevregMaxDevices
  distinct : (reg.devices.map HesDevice.deviceIndex).Nodup
  address : ∀ d ∈ reg.devices, d.address ≠ [] ∧ d.address.length < 64 ∧ ∀ c ∈ d.address, c ≠ 0
  udpPort : ∀ d ∈ reg.devices, 0 ≤ d.udpPort
  declared : ∀ d ∈ reg.devices, ∃ mod,
    findModule pf m.moduleType m.moduleRefIndex = some mod ∧
      ∃ dev ∈ mod.devs, dev.deviceIndex = d.deviceIndex

/-- What the next query brings of the device. -/
def Shown (reply : Option (List UInt8)) (d : HesDevice) : Prop :=
  ∃ reg d', hesMregQuery reply = some reg ∧ hesDevregFind reg d.deviceIndex = some d' ∧
    d'.address = d.address ∧ d'.udpPort = d.udpPort ∧ d'.online = d.online

/-- The report fails, or it succeeds and the query behind it shows every device as it was
reported. -/
def ReportVisible (pf : MsProfile) (m : HesMreg) (reg : HesDevreg) (t : Exchange) : Prop :=
  let (pf', reply) := reqReply pf (reportRequest m reg) t
  hesMregReport reply = -1 ∨
    hesMregReport reply = 0 ∧
      ∀ d ∈ reg.devices, Shown (reqReply pf' (queryRequest m) .answered).2 d

/-- The texts of the module need no escapes, its addresses apart. -/
structure ModulePlain (mod : MsModule) : Prop where
  labels : ∀ s ∈ labels mod, Plain s
  texts : ∀ dev ∈ mod.devs, ∀ s ∈ profileTexts dev, Plain s

/-- A report that comes through: no text that is printed for it or behind it needs escapes,
where an old address of a reported device is not printed again; and the first device whose index a
client takes for a reported one has that index. -/
structure ReportCarried (mod : MsModule) (reg : HesDevreg) : Prop where
  module : ModulePlain mod
  others : ∀ dev ∈ mod.devs,
    (∃ d ∈ reg.devices, (d.deviceIndex : ℤ) = dev.deviceIndex) ∨ Plain dev.runtimeAddress
  indexes : ∀ d ∈ reg.devices, ∀ di ∈ (mod.devs.map MsDevprofile.deviceIndex).find? fun di =>
    toUInt32 (readLong di) = d.deviceIndex, di = d.deviceIndex
  addresses : ∀ d ∈ reg.devices, Plain d.address

/-- A module whose slice needs no escapes before the report, with addresses that the client's
array holds. -/
structure SlicePlain (mod : MsModule) : Prop where
  module : ModulePlain mod
  addresses : ∀ dev ∈ mod.devs, Plain dev.runtimeAddress ∧ dev.runtimeAddress.length < 64

/-- INTERNAL: it keeps the texts of the module plain. -/
theorem applyReport_plain (root : Json) (mod : MsModule) (h : ModulePlain mod) :
    ModulePlain (applyReport root mod).1 where
  labels := fun s hs => h.labels s (applyReport_labels root mod s hs)
  texts := by
    intro dev' hdev' s hs
    obtain ⟨-, -, hdevs⟩ := applyReport_keeps root mod
    obtain ⟨dev, hdev, hsame, -⟩ := hdevs dev' hdev'
    rw [hsame.texts] at hs
    exact h.texts dev hdev s hs

/-! ## The exchanges -/

/-- INTERNAL: a module is only found by a type that is plain. -/
theorem plain_moduleType (pf : MsProfile) (mt : CStr) (mi : ℤ) (mod : MsModule)
    (hfind : findModule pf mt mi = some mod) (h : ∀ s ∈ labels mod, Plain s) : Plain mt := by
  rcases (findModule_is pf mt mi mod hfind).2.2 with rfl | rfl
  · exact plain_of_check [] (by decide)
  · exact h _ List.mem_cons_self

/-- INTERNAL: the service reads the front of a request as it was printed. -/
theorem headMembers_read (cmd : String) (m : HesMreg) (rest : List Member)
    (hnodup : ((headMembers cmd m ++ rest).map Member.key).Nodup) (htype : Plain m.moduleType)
    (hlen : m.moduleType.length < 8) (hindex : m.moduleRefIndex < 2 ^ 32) :
    objStr (ofMembers (headMembers cmd m ++ rest)) (lit "cmd") maxCmdSize =
        boundedCopy maxCmdSize (lit cmd) ∧
      objStr (ofMembers (headMembers cmd m ++ rest)) (lit "moduleType") maxCmdSize =
        m.moduleType ∧
      objLong (ofMembers (headMembers cmd m ++ rest)) (lit "moduleRefIndex") (-1) =
        m.moduleRefIndex := by
  refine ⟨?_, ?_, ?_⟩
  · exact objStr_ofMembers _ hnodup (lit "cmd") (lit cmd) [.string (lit cmd)] _
      (by simp [headMembers])
  · rw [objStr_ofMembers _ hnodup (lit "moduleType") (slotValue m.moduleType)
      [.string (slotValue m.moduleType)] _ (by simp [headMembers])]
    exact boundedCopy_slotValue _ _ htype (by unfold maxCmdSize; omega)
  · rw [objLong_ofMembers _ hnodup (lit "moduleRefIndex") m.moduleRefIndex (-1)
      [.integer m.moduleRefIndex] (by simp [headMembers])]
    exact readLong_small _ (by omega) (by omega)

/-- INTERNAL: **the query** is answered with the slice of the module. -/
theorem serveRequest_query (pf : MsProfile) (m : HesMreg) (mod : MsModule)
    (htype : Plain m.moduleType) (hlen : m.moduleType.length < 8)
    (hindex : m.moduleRefIndex < 2 ^ 32)
    (hfind : findModule pf m.moduleType m.moduleRefIndex = some mod) :
    (serveRequest pf (queryRequest m)).reply = buildSlice mod := by
  have hnodup : ((headMembers "query" m ++ []).map Member.key).Nodup := by
    show [lit "cmd", lit "moduleType", lit "moduleRefIndex"].Nodup
    decide +kernel
  obtain ⟨hcmd, hmt, hmi⟩ := headMembers_read "query" m [] hnodup htype hlen hindex
  have hcopy : boundedCopy maxCmdSize (lit "query") = lit "query" := by decide +kernel
  rw [hcopy] at hcmd
  rw [List.append_nil] at hcmd hmt hmi
  unfold serveRequest
  rw [queryRequest_received m hindex hlen (htype.1.ne_zero _)]
  exact handleRequest_query pf _ _ _ _ mod (loads_query m hindex htype) hcmd hmt hmi
    (Int.natCast_nonneg _) hfind

/-- INTERNAL: **the report** replaces the module by what its entries make of it. -/
theorem serveRequest_report (pf : MsProfile) (m : HesMreg) (reg : HesDevreg) (mod : MsModule)
    (hfits : FitsClient m reg.devices) (hcount : reg.devices.length ≤ hesDevregMaxDevices)
    (hshort : ∀ d ∈ reg.devices, d.address.length < 64) (htype : Plain m.moduleType)
    (hlen : m.moduleType.length < 8) (hplain : ∀ d ∈ reg.devices, Plain d.address)
    (hfind : findModule pf m.moduleType m.moduleRefIndex = some mod) :
    ∃ root, (root.rows (lit "devices") = reg.devices.map fun d => ofMembers (entryMembers d)) ∧
      serveRequest pf (reportRequest m reg) =
        ⟨⟨updateFirst (isModule m.moduleType m.moduleRefIndex)
            (fun _ => (applyReport root mod).1) pf.modules⟩,
          if (applyReport root mod).2 then [publishSlice (applyReport root mod).1] else [],
          lit "\x7b\"ok\":1\x7d"⟩ := by
  have hnodup : ((reportMembers m reg.devices).map Member.key).Nodup := by
    show [lit "cmd", lit "moduleType", lit "moduleRefIndex", lit "devices"].Nodup
    decide +kernel
  obtain ⟨hcmd, hmt, hmi⟩ :=
    headMembers_read "report" m _ hnodup htype hlen hfits.moduleRefIndex
  have hcopy : boundedCopy maxCmdSize (lit "report") = lit "report" := by decide +kernel
  rw [hcopy] at hcmd
  have hrows : (ofMembers (reportMembers m reg.devices)).rows (lit "devices") =
      reg.devices.map fun d => ofMembers (entryMembers d) := by
    have harray := getArray_ofMembers _ hnodup (lit "devices")
      ((entryElements reg.devices).map Prod.snd) _
      (List.mem_append_right _ (List.mem_singleton.mpr rfl))
    unfold rows
    rw [harray, Option.getD_some]
    unfold entryElements
    rw [List.map_map]
    show (reg.devices.map fun d => ofMembers (entryMembers d)).filter isObject = _
    apply List.filter_eq_self.mpr
    intro e he
    obtain ⟨d, -, rfl⟩ := List.mem_map.mp he
    rfl
  refine ⟨ofMembers (reportMembers m reg.devices), hrows, ?_⟩
  unfold serveRequest
  rw [reportRequest_received m reg hfits hlen hcount hshort (htype.1.ne_zero _)
    (fun d hd => (hplain d hd).1.ne_zero _)]
  exact handleRequest_report pf _ _ _ _ mod
    (loads_report m reg.devices hfits htype hplain) hcmd hmt hmi (Int.natCast_nonneg _) hfind

/-- INTERNAL: **a well printed slice** comes to the client device by device. -/
theorem queryReply_slice (mod : MsModule) (hfits : ModuleFits mod) (h : WellPrinted mod)
    (hplain : ∀ s ∈ Part.slots (sliceParts mod), ∀ c ∈ s, c ≠ 0) :
    ∃ reg, queryReply (buildSlice mod) = some reg ∧
      reg.devices = mod.devs.map (readBack mod) := by
  unfold queryReply
  rw [buildSlice_received mod hfits hplain]
  exact parseSlice_buildSlice mod hfits h

/-- INTERNAL: a module of plain texts is well printed. -/
theorem wellPrinted_of_plain (mod : MsModule) (h : ModulePlain mod)
    (haddresses : ∀ dev ∈ mod.devs, Plain dev.runtimeAddress) :
    WellPrinted mod ∧ ∀ s ∈ Part.slots (sliceParts mod), ∀ c ∈ s, c ≠ 0 := by
  have htexts : ∀ dev ∈ mod.devs, ∀ s ∈ comparedTexts dev, Plain s := by
    intro dev hdev s hs
    rcases (mem_comparedTexts dev s).mp hs with hs | rfl
    · exact h.texts dev hdev s hs
    · exact haddresses dev hdev
  refine ⟨wellPrinted_of mod (fun s hs => ?_) htexts, fun s hs => ?_⟩
  · exact ⟨(h.labels s hs).1.wellQuoted, (h.labels s hs).2⟩
  · rcases (mem_slots_slice mod s).mp hs with hs | ⟨dev, hdev, hs | rfl⟩
    · exact (h.labels s hs).1.ne_zero s
    · exact (htexts dev hdev s hs).1.ne_zero s
    · exact (deviceStatus_plain dev).1.ne_zero _

/-- INTERNAL: what is found first is found first among the fewer, if it is one of them. -/
theorem find?_narrowed {α : Type} (p q : α → Bool) (xs : List α)
    (himp : ∀ x ∈ xs, q x = true → p x = true) (hfirst : ∀ x ∈ xs.find? p, q x = true) :
    xs.find? p = xs.find? q := by
  induction xs with
  | nil => rfl
  | cons x rest ih =>
    by_cases hp : p x = true
    · rw [List.find?_cons_of_pos hp] at hfirst ⊢
      rw [List.find?_cons_of_pos (hfirst x rfl)]
    · have hq : ¬ q x = true := fun hq => hp (himp x List.mem_cons_self hq)
      rw [List.find?_cons_of_neg hp] at hfirst ⊢
      rw [List.find?_cons_of_neg hq]
      exact ih (fun y hy => himp y (List.mem_cons_of_mem _ hy)) hfirst

/-- INTERNAL: a device that is found behind a report is shown by the query. -/
theorem found_shown (mod : MsModule) (hfits : ModuleFits mod) (hmodule : ModulePlain mod)
    (haddresses : ∀ dev ∈ mod.devs, Plain dev.runtimeAddress) (d : HesDevice)
    (hentry : EntryFits d) (first : MsDevprofile)
    (hfind : findDevice mod d.deviceIndex = some (takeEntry d first))
    (hindexes : ∀ di ∈ (mod.devs.map MsDevprofile.deviceIndex).find? fun di =>
      toUInt32 (readLong di) = d.deviceIndex, di = d.deviceIndex)
    (hgiven : d.address ≠ [] ∧ 0 ≤ d.udpPort) : Shown (some (buildSlice mod)) d := by
  have haddress := takeEntry_address d first hgiven.1
  have hport : (takeEntry d first).runtimeUdpPort = d.udpPort := if_pos hgiven.2
  obtain ⟨hprinted, hnul⟩ := wellPrinted_of_plain mod hmodule haddresses
  obtain ⟨found, hquery, hdevices⟩ := queryReply_slice mod hfits hprinted hnul
  have hreply : hesMregQuery (some (buildSlice mod)) = some found := by
    unfold hesMregQuery
    rw [Option.bind_some]
    exact hquery
  refine ⟨found, readBack mod (takeEntry d first), hreply, ?_, ?_, ?_, ?_⟩
  · have hlookup : mod.devs.find? ((fun d' : HesDevice => decide (d'.deviceIndex = d.deviceIndex)) ∘
        readBack mod) = mod.devs.find? (isDevice d.deviceIndex) := by
      apply find?_narrowed
      · intro dev _ his
        have heq := of_decide_eq_true his
        have hlt := hentry.deviceIndex
        have hread := readIndex dev.deviceIndex (by omega) (by omega)
        exact decide_eq_true (by omega : toUInt32 (readLong dev.deviceIndex) = d.deviceIndex)
      · intro dev hdev
        rw [List.find?_map] at hindexes
        exact decide_eq_true (hindexes dev.deviceIndex (Option.mem_map_of_mem _ hdev))
    unfold findDevice at hfind
    unfold hesDevregFind
    rw [hdevices, List.find?_map, hlookup, hfind]
    rfl
  · show boundedCopy 64 (slotValue (takeEntry d first).runtimeAddress) = d.address
    rw [haddress]
    exact boundedCopy_slotValue 64 _ hentry.plain hentry.address
  · rw [readBack_udpPort mod (takeEntry d first) (by rw [hport]; exact hentry.udpPort), hport]
  · rw [readBack_online]
    exact Bool.true_and d.online

/-! ## A report that comes through -/

section through

variable (mod : MsModule) (reg : HesDevreg) (root : Json)
  (hrows : root.rows (lit "devices") = reg.devices.map fun d => ofMembers (entryMembers d))
  (hreport : ∀ d ∈ reg.devices, EntryFits d)
  (hdistinct : (reg.devices.map HesDevice.deviceIndex).Nodup)
  (hdeclared : ∀ d ∈ reg.devices, ∃ dev ∈ mod.devs, dev.deviceIndex = d.deviceIndex)
  (hgiven : ∀ d ∈ reg.devices, d.address ≠ [] ∧ 0 ≤ d.udpPort)
  (hfits : ModuleFits (applyReport root mod).1)
  (h : ReportCarried mod reg)

include hrows hreport hdistinct hdeclared

/-- INTERNAL: a reported device is found with the values of its entry. -/
theorem reported_found (d : HesDevice) (hd : d ∈ reg.devices) :
    ∃ dev, findDevice (applyReport root mod).1 d.deviceIndex = some (takeEntry d dev) := by
  rw [applyReport_entries root mod reg.devices hrows, findDevice_takeEntries mod reg.devices hreport hdistinct d hd]
  obtain ⟨dev, hdev, hindex⟩ := hdeclared d hd
  cases hfind : findDevice mod d.deviceIndex with
  | none =>
    have := List.find?_eq_none.mp hfind dev hdev
    unfold isDevice at this
    exact absurd (decide_eq_true hindex) this
  | some first => exact ⟨first, rfl⟩

include hgiven hfits h

/-- INTERNAL: **behind the report** no address needs escapes: it is that of an entry, the old one
of a device that was not reported, or an empty one. -/
theorem reported_addresses :
    ∀ dev' ∈ (applyReport root mod).1.devs, Plain dev'.runtimeAddress := by
  intro dev' hdev'
  obtain ⟨-, -, hdevs⟩ := applyReport_keeps root mod
  obtain ⟨dev, hdev, hsame, hold | ⟨e, he, hnew⟩⟩ := hdevs dev' hdev'
  · rcases h.others dev hdev with ⟨d, hd, hindex⟩ | hplain
    · obtain ⟨first, hfind⟩ := reported_found mod reg root hrows hreport hdistinct hdeclared d hd
      obtain ⟨hlook, as, bs, hsplit, has⟩ := List.find?_eq_some_iff_append.mp hfind
      have his : isDevice d.deviceIndex dev' = true := by
        unfold isDevice
        rw [hsame.deviceIndex, hindex]
        exact decide_eq_true rfl
      have hshadowed := hfits.shadowed
      rw [hsplit] at hdev' hshadowed
      rcases List.mem_append.mp hdev' with hmem | hmem
      · have := has dev' hmem
        rw [his] at this
        cases this
      · rcases List.mem_cons.mp hmem with rfl | hmem
        · rw [takeEntry_address d first (hgiven d hd).1]
          exact h.addresses d hd
        · -- A device behind the first of its index has no address.
          have hpair := (List.pairwise_append.mp hshadowed).2.1
          have hempty := (List.pairwise_cons.mp hpair).1 dev' hmem (by
            unfold isDevice at his hlook
            rw [decide_eq_true_eq] at his hlook
            rw [hlook, his])
          rw [hempty]
          exact plain_of_check [] (by decide)
    · rw [hold]
      exact hplain
  · rw [hrows] at he
    obtain ⟨d, hd, rfl⟩ := List.mem_map.mp he
    rw [entry_address d (hreport d hd), entry_copy d (hreport d hd)] at hnew
    rw [hnew]
    exact h.addresses d hd

/-- INTERNAL: **the slice behind the report** shows every reported device. -/
theorem reported_shown (d : HesDevice) (hd : d ∈ reg.devices) :
    Shown (some (buildSlice (applyReport root mod).1)) d := by
  have hmodule := applyReport_plain root mod h.module
  have haddresses := reported_addresses mod reg root hrows hreport hdistinct hdeclared hgiven hfits h
  obtain ⟨first, hfind⟩ := reported_found mod reg root hrows hreport hdistinct hdeclared d hd
  refine found_shown _ hfits hmodule haddresses d (hreport d hd) first hfind ?_ (hgiven d hd)
  rw [applyReport_indexes]
  exact h.indexes d hd

end through

/-- INTERNAL: **a report is visible** where nothing that is printed needs escapes. -/
theorem visible_of_carried (pf : MsProfile) (hpf : ∀ mod ∈ pf.modules, ModuleFits mod)
    (m : HesMreg) (hlen : m.moduleType.length < 8) (reg : HesDevreg) (h : Reportable pf m reg)
    (hcarried : ∀ mod, findModule pf m.moduleType m.moduleRefIndex = some mod →
      ReportCarried mod reg) : ReportVisible pf m reg .answered := by
  refine Or.inr ⟨rfl, fun d hd => ?_⟩
  obtain ⟨mod, hfind, -⟩ := h.declared d hd
  have hmod := findModule_is pf _ _ mod hfind
  have hreport := hcarried mod hfind
  have htype := plain_moduleType pf _ _ mod hfind hreport.module.labels
  have hentries : ∀ d ∈ reg.devices, EntryFits d := fun d hd =>
    ⟨h.fits.deviceIndex d hd, (h.address d hd).2.1, h.fits.udpPort d hd, hreport.addresses d hd⟩
  have hdeclared : ∀ d ∈ reg.devices, ∃ dev ∈ mod.devs, dev.deviceIndex = d.deviceIndex := by
    intro d hd
    obtain ⟨mod', hfind', hdev⟩ := h.declared d hd
    rw [hfind, Option.some.injEq] at hfind'
    rw [hfind']
    exact hdev
  obtain ⟨root, hrows, hserved⟩ :=
    serveRequest_report pf m reg mod h.fits h.count (fun d hd => (h.address d hd).2.1) htype hlen
      hreport.addresses hfind
  have hfits := applyReport_fits root mod (hpf mod hmod.1)
  have hfind' : findModule (serveRequest pf (reportRequest m reg)).pf m.moduleType
      m.moduleRefIndex = some (applyReport root mod).1 := by
    rw [hserved]
    exact findModule_reported pf _ _ mod hfind root
  show Shown (some (serveRequest _ (queryRequest m)).reply) d
  rw [serveRequest_query _ m _ htype hlen h.fits.moduleRefIndex hfind']
  have hgiven : ∀ d ∈ reg.devices, d.address ≠ [] ∧ 0 ≤ d.udpPort := fun d hd =>
    ⟨(h.address d hd).1, h.udpPort d hd⟩
  exact reported_shown mod reg root hrows hentries h.distinct hdeclared hgiven hfits hreport d hd

/-! ## A report that does not come through -/

/-- INTERNAL: what the service copies is the start of a string of the value. -/
theorem textOf_objStr (o : Json) (key : CStr) (dstsz : ℕ) : TextOf o (objStr o key dstsz) := by
  unfold objStr
  cases hs : o.getString key with
  | none => exact Or.inl rfl
  | some s =>
    apply getMemberString_textOf o key _ dstsz
    unfold getMemberString
    rw [hs]
    rfl

/-- INTERNAL: so is the address of an entry, among the strings of the request. -/
theorem textOf_entry (root : Json) (e : Json) (he : e ∈ root.rows (lit "devices")) :
    TextOf root (boundedCopy msPath (objStr e (lit "address") msPath)) := by
  have hsub : ∀ s, HasString e s → HasString root s := by
    have he := (List.mem_filter.mp he).1
    cases harray : root.getArray (lit "devices") with
    | none =>
      rw [harray] at he
      cases he
    | some es =>
      rw [harray] at he
      exact fun s hs => hasString_getArray root _ es harray e he s hs
  have htext := (textOf_objStr e (lit "address") msPath).mono _ _ _ hsub
  rcases htext with hnil | ⟨s, hs, hstart⟩
  · rw [hnil]
    exact Or.inl rfl
  · exact Or.inr ⟨s, hs, (List.take_prefix _ _).trans hstart⟩

/-- INTERNAL: **an old slice** shows only addresses that need no escapes. -/
theorem shown_old (mod : MsModule) (hfits : ModuleFits mod) (h : SlicePlain mod) (d : HesDevice)
    (hshown : Shown (some (buildSlice mod)) d) : Plain d.address := by
  obtain ⟨hprinted, hnul⟩ :=
    wellPrinted_of_plain mod h.module fun dev hdev => (h.addresses dev hdev).1
  obtain ⟨found, hquery, hdevices⟩ := queryReply_slice mod hfits hprinted hnul
  obtain ⟨reg, d', hreg, hfind, haddress, -⟩ := hshown
  unfold hesMregQuery at hreg
  rw [Option.bind_some, hquery, Option.some.injEq] at hreg
  subst hreg
  have hmem := List.mem_of_find?_eq_some hfind
  rw [hdevices] at hmem
  obtain ⟨dev, hdev, rfl⟩ := List.mem_map.mp hmem
  obtain ⟨hplain, hlen⟩ := h.addresses dev hdev
  have hsame : (readBack mod dev).address = dev.runtimeAddress :=
    boundedCopy_slotValue 64 _ hplain hlen
  rw [← haddress, hsame]
  exact hplain

/-- INTERNAL: **a new slice** shows an address that needs escapes only where a longer one of the
report does. -/
theorem shown_new (mod : MsModule) (hfits : ModuleFits mod) (h : SlicePlain mod) (m : HesMreg)
    (htype : Plain m.moduleType) (devices : List HesDevice) (hclient : FitsClient m devices)
    (root : Json) (hload : loads (render (reportParts m devices)) = some root) (d : HesDevice)
    (hshown : Shown (some (buildSlice (applyReport root mod).1)) d)
    (hesc : ¬ Unquoted d.address) :
    ∃ d' ∈ devices, ¬ Unquoted d'.address ∧ d.address.length < d'.address.length := by
  have hsound := reportParts_sound m devices hclient
  obtain ⟨-, hstrings⟩ := loaded_render _ hsound (reportParts_names m devices) root hload
  obtain ⟨-, -, hdevs⟩ := applyReport_keeps root mod
  have hfits' := applyReport_fits root mod hfits
  -- What stands between the quotes of the new slice.
  have hslots : ∀ s ∈ Part.slots (sliceParts (applyReport root mod).1), Plain s ∨ TextOf root s := by
    intro s hs
    rcases (mem_slots_slice _ s).mp hs with hs | ⟨dev', hdev', hs | rfl⟩
    · exact Or.inl (h.module.labels s (applyReport_labels root mod s hs))
    · obtain ⟨dev, hdev, hsame, haddress⟩ := hdevs dev' hdev'
      rcases (mem_comparedTexts dev' s).mp hs with hs | rfl
      · rw [hsame.texts] at hs
        exact Or.inl (h.module.texts dev hdev s hs)
      · rcases haddress with hold | ⟨e, he, hnew⟩
        · rw [hold]
          exact Or.inl (h.addresses dev hdev).1
        · rw [hnew]
          exact Or.inr (textOf_entry root e he)
    · exact Or.inl (deviceStatus_plain dev')
  have hnul : ∀ s ∈ Part.slots (sliceParts (applyReport root mod).1), ∀ c ∈ s, c ≠ 0 := by
    intro s hs
    rcases hslots s hs with hplain | rfl | ⟨w, hw, hstart⟩
    · exact hplain.1.ne_zero s
    · simp
    · exact fun c hc => loads_no_nul _ root hload w hw c (hstart.subset hc)
  obtain ⟨reg, d', hreg, hfind, haddress, -⟩ := hshown
  unfold hesMregQuery queryReply at hreg
  rw [Option.bind_some, buildSlice_received _ hfits' hnul] at hreg
  unfold parseSlice at hreg
  rw [Option.bind_eq_some_iff] at hreg
  obtain ⟨slice, hslice, hparse⟩ := hreg
  have htext := (hesDevregParse_from slice reg hparse d' (List.mem_of_find?_eq_some hfind)).address.1
  rw [haddress] at htext
  rw [← render_sliceParts] at hslice
  have hsliceSound := sliceParts_sound _ (fitsNumbers_of_fits _ hfits')
  obtain ⟨-, hsliceStrings⟩ := loaded_render _ hsliceSound (sliceParts_names _) slice hslice
  obtain ⟨s, hs, hsesc, hlen⟩ := longer_slot _ slice hsliceStrings _ htext hesc
  rcases hslots s hs with hplain | hfrom
  · exact absurd hplain.1 hsesc
  · obtain ⟨u, hu, huesc, hulen⟩ := longer_slot _ root hstrings s hfrom hsesc
    rw [slots_reportParts] at hu
    rcases List.mem_cons.mp hu with rfl | hu
    · exact absurd htype.1 huesc
    · obtain ⟨d'', hd'', rfl⟩ := List.mem_map.mp hu
      exact ⟨d'', hd'', huesc, by omega⟩

/-- INTERNAL: **only plain addresses are visible**, where the slice was plain before. -/
theorem plain_of_visible (pf : MsProfile) (hpf : ∀ mod ∈ pf.modules, ModuleFits mod)
    (m : HesMreg) (hlen : m.moduleType.length < 8) (reg : HesDevreg) (h : Reportable pf m reg)
    (hplain : ∀ mod, findModule pf m.moduleType m.moduleRefIndex = some mod → SlicePlain mod)
    (hvisible : ReportVisible pf m reg .answered) : ∀ d ∈ reg.devices, Plain d.address := by
  intro d₀ hd₀
  obtain ⟨mod, hfind, -⟩ := h.declared d₀ hd₀
  have hfits := hpf mod (findModule_is pf _ _ mod hfind).1
  have hslice := hplain mod hfind
  have htype := plain_moduleType pf _ _ mod hfind hslice.module.labels
  rcases hvisible with hfail | ⟨-, hshown⟩
  · cases hfail
  have hshown : ∀ d ∈ reg.devices, Shown (some (serveRequest
      (serveRequest pf (reportRequest m reg)).pf (queryRequest m)).reply) d := hshown
  have hquery : ∀ pf' mod', findModule pf' m.moduleType m.moduleRefIndex = some mod' →
      (serveRequest pf' (queryRequest m)).reply = buildSlice mod' := fun pf' mod' hfind' =>
    serveRequest_query pf' m mod' htype hlen h.fits.moduleRefIndex hfind'
  have hreceived := reportRequest_received m reg h.fits hlen h.count
    (fun d hd => (h.address d hd).2.1) (htype.1.ne_zero _) (fun d hd => (h.address d hd).2.2)
  -- Where the query still shows the old slice, its addresses are plain.
  have hold : findModule (serveRequest pf (reportRequest m reg)).pf m.moduleType
      m.moduleRefIndex = some mod → ∀ d ∈ reg.devices, Plain d.address := by
    intro hsame d hd
    have := hshown d hd
    rw [hquery _ mod hsame] at this
    exact shown_old mod hfits hslice d this
  have hpf' := handleRequest_pf pf (receivedText msMaxReqBufSize (reportRequest m reg))
  rcases hpf' with hsame | ⟨root, mt, mi, target, hload, htarget, hserved⟩
  · apply hold _ d₀ hd₀
    unfold serveRequest
    rw [hsame]
    exact hfind
  · have hlook : isModule m.moduleType m.moduleRefIndex (applyReport root target).1 =
        isModule m.moduleType m.moduleRefIndex target := by
      unfold isModule
      rw [(applyReport_keeps root target).1, applyReport_index root target]
    rcases find_replaced _ _ pf.modules target _ htarget hlook with hkeep | ⟨hhere, hnew⟩
    · apply hold _ d₀ hd₀
      unfold serveRequest findModule
      rw [hserved, hkeep]
      exact hfind
    · have heq : target = mod := by
        unfold findModule at hfind
        rw [hhere, Option.some.injEq] at hfind
        exact hfind
      subst heq
      rw [hreceived] at hload
      have hsound := reportParts_sound m reg.devices h.fits
      obtain ⟨hutf8, -⟩ := loaded_render _ hsound (reportParts_names m reg.devices) root hload
      have hfind' : findModule (serveRequest pf (reportRequest m reg)).pf m.moduleType
          m.moduleRefIndex = some (applyReport root target).1 := by
        unfold serveRequest findModule
        rw [hserved]
        exact hnew
      -- An address that needs escapes would have a longer one that does.
      have hunq := no_longer (fun s => ¬ Unquoted s ∧ ∃ d ∈ reg.devices, s = d.address) 64
        (by
          rintro s ⟨-, d, hd, rfl⟩
          exact (h.address d hd).2.1)
        (by
          rintro s ⟨hesc, d, hd, rfl⟩
          have hd' := hshown d hd
          rw [hquery _ _ hfind'] at hd'
          obtain ⟨d', hd', hesc', hlt⟩ :=
            shown_new target hfits hslice m htype reg.devices h.fits root hload d hd' hesc
          exact ⟨d'.address, ⟨hesc', d', hd', rfl⟩, hlt⟩)
      refine ⟨by_contra fun hesc => hunq d₀.address ⟨hesc, d₀, hd₀, rfl⟩, hutf8 _ ?_⟩
      rw [slots_reportParts]
      exact List.mem_cons_of_mem _ (List.mem_map.mpr ⟨d₀, hd₀, rfl⟩)

/-! ## Visible reports -/

/-- **A report that returns 0 is visible**, for every state of the service and every registry
that may be reported, when the transport fails or no text that is printed needs escapes; and,
where the slice needed none before, only then.
SRCLINE: common/hes_mreg.c:112-129, 332-355, dm/dm.c:456-581 -/
theorem report_visible_iff (txt : CStr) (pf : MsProfile) (hload : loadProfile txt = some pf)
    (requests : List (List UInt8)) (moduleType : CStr) (moduleRefIndex : ℕ) (reg : HesDevreg)
    (t : Exchange)
    (h : Reportable (serveRequests pf requests) (hesMregOpen moduleType moduleRefIndex) reg) :
    ((t ≠ .answered ∨ ∀ mod, findModule (serveRequests pf requests)
        (hesMregOpen moduleType moduleRefIndex).moduleType moduleRefIndex = some mod →
          ReportCarried mod reg) →
      ReportVisible (serveRequests pf requests) (hesMregOpen moduleType moduleRefIndex) reg t) ∧
    ((∀ mod, findModule (serveRequests pf requests)
        (hesMregOpen moduleType moduleRefIndex).moduleType moduleRefIndex = some mod →
          SlicePlain mod) →
      ReportVisible (serveRequests pf requests) (hesMregOpen moduleType moduleRefIndex) reg t →
      t ≠ .answered ∨ ∀ d ∈ reg.devices, Plain d.address) := by
  have hpf := serveRequests_fits txt pf hload requests
  have hlen : (hesMregOpen moduleType moduleRefIndex).moduleType.length < 8 :=
    boundedCopy_length 8 moduleType (by decide)
  cases t with
  | answered =>
    refine ⟨fun hcarried => ?_, fun hplain hvisible => Or.inr ?_⟩
    · exact visible_of_carried _ hpf _ hlen reg h (hcarried.resolve_left fun hne => hne rfl)
    · exact plain_of_visible _ hpf _ hlen reg h hplain hvisible
  | unanswered => exact ⟨fun _ => Or.inl rfl, fun _ _ => Or.inl (by decide)⟩
  | unsent => exact ⟨fun _ => Or.inl rfl, fun _ _ => Or.inl (by decide)⟩

/-- A registry with one device at the address. -/
def oneDeviceReport (address : CStr) : HesDevreg where
  gatewayId := []
  moduleType := lit "hi"
  moduleRefIndex := 1
  networkType := []
  devices := [⟨6, 0, [], [], [], address, 5683, true, []⟩]

/-- INTERNAL: a report of one device fits the client's arrays. -/
theorem oneDeviceReport_reportable (address : CStr) (role : CStr)
    (haddress : address ≠ [] ∧ address.length < 64 ∧ ∀ c ∈ address, c ≠ 0) :
    Reportable ⟨[oneDeviceModule role]⟩ (hesMregOpen (lit "hi") 1) (oneDeviceReport address) where
  fits :=
    { moduleRefIndex := by decide
      deviceIndex := by simp [oneDeviceReport]
      netRefIndex := by simp [oneDeviceReport]
      udpPort := by
        intro d hd
        rw [List.mem_singleton.mp hd]
        exact (by decide : FitsInt32 5683) }
  count := by
    show 1 ≤ 16
    decide
  distinct := List.nodup_singleton _
  address := by
    intro d hd
    rw [List.mem_singleton.mp hd]
    exact haddress
  udpPort := by simp [oneDeviceReport]
  declared := by
    intro d hd
    rw [List.mem_singleton.mp hd]
    exact ⟨oneDeviceModule role, rfl, _, List.mem_cons_self, rfl⟩

/-- The report of one lamp is visible. -/
theorem report_visible_lamp :
    ReportVisible ⟨[oneDeviceModule (lit "lamp")]⟩ (hesMregOpen (lit "hi") 1)
      (oneDeviceReport (lit "10.0.0.7")) .answered := by
  have hiff := report_visible_iff (oneDeviceProfile "lamp") ⟨[oneDeviceModule (lit "lamp")]⟩
    lampProfile_loaded [] (lit "hi") 1 (oneDeviceReport (lit "10.0.0.7")) .answered
    (oneDeviceReport_reportable _ _ (by decide +kernel))
  apply hiff.1
  refine Or.inr fun mod hmod => ?_
  have heq : oneDeviceModule (lit "lamp") = mod := Option.some.inj hmod
  subst heq
  have hplain : ∀ s ∈ [lit "hi", [], lit "lamp", lit "10.0.0.7"], Plain s := by
    intro s hs
    apply plain_of_check
    revert s
    decide +kernel
  exact
    { module :=
        { labels := by
            intro s hs
            have hs : s ∈ [lit "hi", [], []] := hs
            apply hplain
            simp only [List.mem_cons, List.not_mem_nil, or_false] at hs ⊢
            tauto
          texts := by
            intro dev hdev s hs
            rw [List.mem_singleton.mp hdev] at hs
            have hs : s ∈ [lit "lamp", []] := hs
            apply hplain
            simp only [List.mem_cons, List.not_mem_nil, or_false] at hs ⊢
            tauto }
      others := by
        intro dev hdev
        rw [List.mem_singleton.mp hdev]
        exact Or.inr (hplain [] (by simp))
      indexes := by
        intro d hd di hdi
        obtain ⟨dev, hdev, rfl⟩ := List.mem_map.mp (List.mem_of_find?_eq_some hdi)
        rw [List.mem_singleton.mp hdev, List.mem_singleton.mp hd]
        rfl
      addresses := by
        intro d hd
        rw [List.mem_singleton.mp hd]
        exact hplain _ (by simp) }

/-- A report with a quote in an address is refused, returns 0, and is not visible. -/
theorem refused_report_succeeds :
    ∃ txt pf m reg, loadProfile txt = some pf ∧ Reportable pf m reg ∧
      ¬ ReportVisible pf m reg .answered := by
  refine ⟨oneDeviceProfile "lamp", ⟨[oneDeviceModule (lit "lamp")]⟩, hesMregOpen (lit "hi") 1,
    oneDeviceReport (lit "a\"b"), lampProfile_loaded,
    oneDeviceReport_reportable _ _ (by decide +kernel), ?_⟩
  rintro (hfail | ⟨-, hshown⟩)
  · cases hfail
  · obtain ⟨reg, d', hquery, hfind, haddress, -⟩ := hshown _ List.mem_cons_self
    have hempty : (((hesMregQuery (reqReply
        (serveRequest ⟨[oneDeviceModule (lit "lamp")]⟩ (reportRequest (hesMregOpen (lit "hi") 1)
          (oneDeviceReport (lit "a\"b")))).pf
        (queryRequest (hesMregOpen (lit "hi") 1)) .answered).2).bind fun reg =>
          hesDevregFind reg 6).map HesDevice.address) = some [] := by
      decide +kernel
    have hfind : hesDevregFind reg 6 = some d' := hfind
    rw [hquery, Option.bind_some, hfind, Option.map_some, haddress] at hempty
    cases hempty

end OpenHes.Analysis
