import OpenHes.Analysis.HeldModules
import OpenHes.Analysis.SliceText

/-!
# Slices there and back

What a client makes of a slice: each device of the module comes back, cut to the client's
arrays. The texts stand between quotes as they are, so a text that JSON escapes does not come
back as itself.
-/

set_option autoImplicit false

namespace OpenHes.Analysis

open OpenHes.Library OpenHes.Library.Json OpenHes.Model

/-! ## Members of a document -/

section members

variable (ms : List Member) (hnodup : (ms.map Member.key).Nodup)

include hnodup

/-- INTERNAL: a text member is found by its name. -/
theorem getString_ofMembers (key s : CStr) (ts : List Token) (hm : ⟨key, ts, .string s⟩ ∈ ms) :
    (ofMembers ms).getString key = some s := by
  have := get_ofMembers ms hnodup _ hm
  dsimp only at this
  unfold getString
  rw [this]

/-- INTERNAL: so is an array. -/
theorem getArray_ofMembers (key : CStr) (vs : List Json) (ts : List Token)
    (hm : ⟨key, ts, .array vs⟩ ∈ ms) : (ofMembers ms).getArray key = some vs := by
  have := get_ofMembers ms hnodup _ hm
  dsimp only at this
  unfold getArray
  rw [this]

/-- INTERNAL: a client reads a text member, cut to its array. -/
theorem getMemberString_ofMembers (key s : CStr) (ts : List Token) (dstsz : ℕ)
    (hm : ⟨key, ts, .string s⟩ ∈ ms) :
    getMemberString (ofMembers ms) key dstsz = some (boundedCopy dstsz s) := by
  unfold getMemberString
  rw [getString_ofMembers ms hnodup key s ts hm]
  rfl

/-- INTERNAL: it reads a number through the double that the library makes of it. -/
theorem getMemberLong_ofMembers (key : CStr) (n : ℤ) (ts : List Token)
    (hm : ⟨key, ts, .integer n⟩ ∈ ms) :
    getMemberLong (ofMembers ms) key = some (Binary64.toLong (Binary64.ofInt n)) := by
  have := get_ofMembers ms hnodup _ hm
  dsimp only at this
  unfold getMemberLong
  rw [this]
  rfl

end members

/-! ## The registry that is read -/

/-- The number that a client makes of an integer. -/
def readLong (n : ℤ) : ℤ := Binary64.toLong (Binary64.ofInt n)

/-- The object that a client makes of an entry. -/
def readBackObject (ob : MsObject) : HesDevObject where
  path := boundedCopy hesPathMax (slotValue ob.path)
  access := boundedCopy 4 (slotValue ob.access)

/-- The device that a client makes of an entry. -/
def readBack (mod : MsModule) (dev : MsDevprofile) : HesDevice where
  deviceIndex := toUInt32 (readLong dev.deviceIndex)
  netRefIndex := toUInt32 (readLong dev.netRefIndex)
  role := boundedCopy 32 (slotValue dev.role)
  expectedHardware := boundedCopy 48 (slotValue dev.expectedHardware)
  networkType := boundedCopy 16 (slotValue (deviceNetwork mod dev))
  address := boundedCopy 64 (slotValue dev.runtimeAddress)
  udpPort := toInt32 (readLong dev.runtimeUdpPort)
  online := slotValue (deviceStatus dev) = lit "online"
  objects := (dev.objects.map readBackObject).take hesDevregMaxObjects

/-- INTERNAL: an entry of the objects is read as the object it prints. -/
theorem parseObjectEntry_members (ob : MsObject) :
    parseObjectEntry (ofMembers (objectMembers ob)) = some (readBackObject ob) := by
  have hnodup : ((objectMembers ob).map Member.key).Nodup := by
    show [lit "lexiconPath", lit "access"].Nodup
    decide +kernel
  have hpath := getMemberString_ofMembers _ hnodup (lit "lexiconPath") (slotValue ob.path)
    [.string (slotValue ob.path)] hesPathMax (by simp [objectMembers])
  have haccess := getMemberString_ofMembers _ hnodup (lit "access") (slotValue ob.access)
    [.string (slotValue ob.access)] 4 (by simp [objectMembers])
  unfold parseObjectEntry
  rw [hpath, haccess]
  rfl

/-- INTERNAL: no two members of a device have one name. -/
theorem deviceMembers_nodup (mod : MsModule) (dev : MsDevprofile) :
    ((deviceMembers mod dev).map Member.key).Nodup := by
  show [lit "deviceIndex", lit "netRefIndex", lit "deviceRole", lit "expectedHardware",
    lit "networkType", lit "address", lit "udpPort", lit "status", lit "objects"].Nodup
  decide +kernel

/-- INTERNAL: **an entry** of the devices is read as the device it prints. -/
theorem parseDeviceEntry_members (mod : MsModule) (dev : MsDevprofile) :
    parseDeviceEntry (ofMembers (deviceMembers mod dev)) = some (readBack mod dev) := by
  have hnodup := deviceMembers_nodup mod dev
  have htext : ∀ (key s : CStr) (dstsz : ℕ),
      ⟨key, [.string (slotValue s)], .string (slotValue s)⟩ ∈ deviceMembers mod dev →
      getMemberString (ofMembers (deviceMembers mod dev)) key dstsz =
        some (boundedCopy dstsz (slotValue s)) :=
    fun key s dstsz hm => getMemberString_ofMembers _ hnodup key _ _ dstsz hm
  have hlong : ∀ (key : CStr) (n : ℤ), ⟨key, [.integer n], .integer n⟩ ∈ deviceMembers mod dev →
      getMemberLong (ofMembers (deviceMembers mod dev)) key = some (readLong n) :=
    fun key n hm => getMemberLong_ofMembers _ hnodup key n _ hm
  have hobjects : (ofMembers (deviceMembers mod dev)).getArray (lit "objects") =
      some ((objectElements dev).map Prod.snd) :=
    getArray_ofMembers _ hnodup (lit "objects") _ _ (by simp [deviceMembers]; rfl)
  have hstatus : (ofMembers (deviceMembers mod dev)).getString (lit "status") =
      some (slotValue (deviceStatus dev)) :=
    getString_ofMembers _ hnodup (lit "status") _ [.string (slotValue (deviceStatus dev))]
      (by simp [deviceMembers])
  have hread : ((objectElements dev).map Prod.snd).filterMap parseObjectEntry =
      dev.objects.map readBackObject := by
    unfold objectElements
    rw [List.map_map, List.filterMap_map, ← List.filterMap_eq_map]
    apply List.filterMap_congr
    intro ob _
    exact parseObjectEntry_members ob
  unfold parseDeviceEntry statusToOnline
  rw [hlong (lit "deviceIndex") dev.deviceIndex (by simp [deviceMembers]),
    hlong (lit "netRefIndex") dev.netRefIndex (by simp [deviceMembers]),
    htext (lit "deviceRole") dev.role 32 (by simp [deviceMembers]),
    htext (lit "expectedHardware") dev.expectedHardware 48 (by simp [deviceMembers]),
    htext (lit "networkType") (deviceNetwork mod dev) 16 (by simp [deviceMembers]),
    htext (lit "address") dev.runtimeAddress 64 (by simp [deviceMembers]),
    hlong (lit "udpPort") dev.runtimeUdpPort (by simp [deviceMembers]), hobjects, hstatus]
  simp only [Option.map_some, Option.getD_some, hread]
  rfl

/-- INTERNAL: **the document of a slice** is read as the devices of the module. -/
theorem hesDevregParse_slice (mod : MsModule) :
    ∃ reg, hesDevregParse (ofMembers (sliceMembers mod)) = some reg ∧
      reg.devices = (mod.devs.map (readBack mod)).take hesDevregMaxDevices := by
  have hnodup : ((sliceMembers mod).map Member.key).Nodup := by
    show [lit "gatewayId", lit "moduleType", lit "moduleRefIndex", lit "networkType",
      lit "devices"].Nodup
    decide +kernel
  have herror : (ofMembers (sliceMembers mod)).getString (lit "error") = none := by
    have hnone := get_ofMembers_none (sliceMembers mod) (lit "error") (by
      show lit "error" ∉ [lit "gatewayId", lit "moduleType", lit "moduleRefIndex",
        lit "networkType", lit "devices"]
      decide +kernel)
    unfold getString
    rw [hnone]
  have hdevices : (ofMembers (sliceMembers mod)).getArray (lit "devices") =
      some ((deviceElements mod).map Prod.snd) :=
    getArray_ofMembers _ hnodup (lit "devices") _ _ (by simp [sliceMembers]; rfl)
  have hread : ((deviceElements mod).map Prod.snd).filterMap parseDeviceEntry =
      mod.devs.map (readBack mod) := by
    unfold deviceElements
    rw [List.map_map, List.filterMap_map, ← List.filterMap_eq_map]
    apply List.filterMap_congr
    intro dev _
    exact parseDeviceEntry_members mod dev
  unfold hesDevregParse
  rw [herror, if_neg (by simp), hdevices, Option.map_some]
  refine ⟨_, rfl, ?_⟩
  show (List.filterMap parseDeviceEntry _).take _ = _
  rw [hread]

/-! ## Texts of a slice -/

/-- The texts of a device that a client compares. -/
def comparedTexts (dev : MsDevprofile) : List CStr :=
  dev.role :: dev.expectedHardware :: dev.runtimeAddress ::
    dev.objects.flatMap fun ob => [ob.path, ob.access]

/-- The other texts of a slice: the types of the module and of its networks. -/
def labels (mod : MsModule) : List CStr :=
  mod.moduleType :: mod.networkType :: mod.devs.map (deviceNetwork mod)

/-- INTERNAL: the texts between the quotes of the objects. -/
theorem slots_objectsParts (obs : List MsObject) :
    Part.slots (objectsParts obs) = obs.flatMap fun ob => [ob.path, ob.access] := by
  induction obs with
  | nil => rfl
  | cons ob rest ih =>
    rw [objectsParts, Part.slots_append, ih]
    rfl

/-- INTERNAL: the texts between the quotes of a device. -/
theorem slots_deviceParts (mod : MsModule) (dev : MsDevprofile) :
    Part.slots (deviceParts mod dev) =
      [dev.role, dev.expectedHardware, deviceNetwork mod dev, dev.runtimeAddress,
        deviceStatus dev] ++ dev.objects.flatMap fun ob => [ob.path, ob.access] := by
  unfold deviceParts
  rw [Part.slots_append, Part.slots_append, slots_objectsParts]
  simp [Part.slots]

/-- INTERNAL: those of the devices, one device after the other. -/
theorem slots_devicesParts (mod : MsModule) (devs : List MsDevprofile) :
    Part.slots (devicesParts mod devs) =
      devs.flatMap fun dev => Part.slots (deviceParts mod dev) := by
  have hrest : ∀ rest : List MsDevprofile,
      Part.slots (rest.flatMap fun dev => .fixed (lit ",\n") [.comma] :: deviceParts mod dev) =
        rest.flatMap fun dev => Part.slots (deviceParts mod dev) := by
    intro rest
    induction rest with
    | nil => rfl
    | cons dev rest ih =>
      rw [List.flatMap_cons, List.flatMap_cons, Part.slots_append, ih]
      rfl
  cases devs with
  | nil => rfl
  | cons dev rest =>
    unfold devicesParts
    rw [Part.slots_append, hrest, List.flatMap_cons]

/-- INTERNAL: **the texts between the quotes** of a slice. -/
theorem slots_sliceParts (mod : MsModule) :
    Part.slots (sliceParts mod) =
      mod.moduleType :: mod.networkType ::
        mod.devs.flatMap fun dev => Part.slots (deviceParts mod dev) := by
  unfold sliceParts
  rw [Part.slots_append, Part.slots_append, slots_devicesParts]
  simp [Part.slots]

/-- INTERNAL: a text of a device is compared, its network's type or its status. -/
theorem mem_slots_device (mod : MsModule) (dev : MsDevprofile) (s : CStr) :
    s ∈ Part.slots (deviceParts mod dev) ↔
      s ∈ comparedTexts dev ∨ s = deviceNetwork mod dev ∨ s = deviceStatus dev := by
  rw [slots_deviceParts]
  unfold comparedTexts
  simp only [List.mem_append, List.mem_cons, List.not_mem_nil, or_false]
  tauto

/-- INTERNAL: a text between the quotes is a label, compared, or a status. -/
theorem mem_slots_slice (mod : MsModule) (s : CStr) :
    s ∈ Part.slots (sliceParts mod) ↔
      s ∈ labels mod ∨ ∃ dev ∈ mod.devs, s ∈ comparedTexts dev ∨ s = deviceStatus dev := by
  rw [slots_sliceParts]
  unfold labels
  simp only [List.mem_cons, List.mem_flatMap, List.mem_map, mem_slots_device]
  constructor
  · rintro (h | h | ⟨dev, hdev, h | h | h⟩)
    · exact Or.inl (Or.inl h)
    · exact Or.inl (Or.inr (Or.inl h))
    · exact Or.inr ⟨dev, hdev, Or.inl h⟩
    · exact Or.inl (Or.inr (Or.inr ⟨dev, hdev, h.symm⟩))
    · exact Or.inr ⟨dev, hdev, Or.inr h⟩
  · rintro ((h | h | ⟨dev, hdev, h⟩) | ⟨dev, hdev, h | h⟩)
    · exact Or.inl h
    · exact Or.inr (Or.inl h)
    · exact Or.inr (Or.inr ⟨dev, hdev, Or.inr (Or.inl h.symm)⟩)
    · exact Or.inr (Or.inr ⟨dev, hdev, Or.inl h⟩)
    · exact Or.inr (Or.inr ⟨dev, hdev, Or.inr (Or.inr h)⟩)

/-- INTERNAL: a text of plain bytes needs no escapes. -/
theorem unquoted_of_all (s : CStr) (h : s.all Part.isPlain = true) : Unquoted s := by
  intro c hc
  have hc := List.all_eq_true.mp h c hc
  unfold Part.isPlain at hc
  simp only [Bool.and_eq_true, decide_eq_true_eq] at hc
  exact ⟨hc.1.1, hc.1.2, hc.2⟩

/-- INTERNAL: a text that passes both checks is plain. -/
theorem plain_of_check (s : CStr) (h : (s.all Part.isPlain && utf8CheckString s) = true) :
    Plain s := by
  rw [Bool.and_eq_true] at h
  exact ⟨unquoted_of_all s h.1, h.2⟩

/-- INTERNAL: the three statuses are plain. -/
theorem deviceStatus_plain (dev : MsDevprofile) : Plain (deviceStatus dev) := by
  apply plain_of_check
  unfold deviceStatus
  split
  · split
    · decide +kernel
    · decide +kernel
  · decide +kernel

/-- INTERNAL: the names in the fixed texts need no escapes. -/
theorem plain_tokens (ts : List Token)
    (h : (ts.all fun t => match t with
      | .string v => v.all Part.isPlain
      | _ => true) = true) (v : CStr) (hv : .string v ∈ ts) : Unquoted v :=
  unquoted_of_all v (List.all_eq_true.mp h _ hv)

/-- INTERNAL: the names of the objects need no escapes. -/
theorem objectsParts_names (obs : List MsObject) (p : Part) (hp : p ∈ objectsParts obs) (v : CStr)
    (hv : .string v ∈ p.afterTokens) : Unquoted v := by
  induction obs with
  | nil => cases hp
  | cons ob rest ih =>
    rw [objectsParts, List.mem_append] at hp
    rcases hp with hp | hp
    · unfold objectParts at hp
      simp only [List.mem_cons, List.not_mem_nil, or_false] at hp
      rcases hp with rfl | rfl | rfl
      · exact plain_tokens (.openBrace :: keyTokens "lexiconPath") (by decide +kernel) v hv
      · exact plain_tokens (.comma :: keyTokens "access") (by decide +kernel) v hv
      · cases hlast : rest.isEmpty with
        | true =>
          rw [hlast] at hv
          exact plain_tokens [.closeBrace] (by decide) v hv
        | false =>
          rw [hlast] at hv
          exact plain_tokens [.closeBrace, .comma] (by decide) v hv
    · exact ih hp

/-- INTERNAL: the names of a device need none. -/
theorem deviceParts_names (mod : MsModule) (dev : MsDevprofile) (p : Part)
    (hp : p ∈ deviceParts mod dev) (v : CStr) (hv : .string v ∈ p.afterTokens) : Unquoted v := by
  unfold deviceParts at hp
  rw [List.mem_append, List.mem_append] at hp
  rcases hp with (hp | hp) | hp
  · simp only [List.mem_cons, List.not_mem_nil, or_false] at hp
    rcases hp with rfl | rfl | rfl | rfl | rfl | rfl | rfl | rfl | rfl | rfl | rfl | rfl | rfl |
      rfl | rfl | rfl | rfl | rfl <;>
      (unfold Part.afterTokens at hv
       dsimp only at hv
       exact plain_tokens _ (by decide +kernel) v hv)
  · exact objectsParts_names _ p hp v hv
  · rw [List.mem_singleton] at hp
    subst hp
    exact plain_tokens [.closeBracket, .closeBrace] (by decide) v hv

/-- INTERNAL: the names of a slice need no escapes. -/
theorem sliceParts_names (mod : MsModule) (p : Part) (hp : p ∈ sliceParts mod) (v : CStr)
    (hv : .string v ∈ p.afterTokens) : Unquoted v := by
  unfold sliceParts at hp
  rw [List.mem_append, List.mem_append] at hp
  rcases hp with (hp | hp) | hp
  · simp only [List.mem_cons, List.not_mem_nil, or_false] at hp
    rcases hp with rfl | rfl | rfl | rfl | rfl | rfl | rfl | rfl | rfl <;>
      (unfold Part.afterTokens at hv
       dsimp only at hv
       exact plain_tokens _ (by decide +kernel) v hv)
  · rcases mem_devicesParts mod _ p hp with rfl | ⟨dev, -, hp⟩
    · exact plain_tokens [.comma] (by decide) v hv
    · exact deviceParts_names mod dev p hp v hv
  · rw [List.mem_singleton] at hp
    subst hp
    exact plain_tokens [.closeBracket, .closeBrace] (by decide) v hv

/-! ## What is parsed -/

/-- The text is empty, or the start of a string of the value. -/
def TextOf (root : Json) (v : CStr) : Prop := v = [] ∨ ∃ s, HasString root s ∧ v <+: s

/-- INTERNAL: a text of a value is one of every value that holds its strings. -/
theorem TextOf.mono (o root : Json) (v : CStr) (h : TextOf o v)
    (hsub : ∀ s, HasString o s → HasString root s) : TextOf root v := by
  rcases h with h | ⟨s, hs, hv⟩
  · exact Or.inl h
  · exact Or.inr ⟨s, hsub s hs, hv⟩

/-- INTERNAL: what a client copies is the start of a string of the value. -/
theorem getMemberString_textOf (o : Json) (key v : CStr) (dstsz : ℕ)
    (h : getMemberString o key dstsz = some v) : TextOf o v := by
  unfold getMemberString at h
  rw [Option.map_eq_some_iff] at h
  obtain ⟨s, hs, rfl⟩ := h
  unfold getString at hs
  split at hs
  next text hget =>
    cases hs
    exact Or.inr ⟨s, hasString_of_get o _ key s hget (HasString.here s), List.take_prefix _ _⟩
  · cases hs

/-- INTERNAL: it fits the array. -/
theorem getMemberString_length (o : Json) (key v : CStr) (dstsz : ℕ) (hpos : 0 < dstsz)
    (h : getMemberString o key dstsz = some v) : v.length < dstsz := by
  unfold getMemberString at h
  rw [Option.map_eq_some_iff] at h
  obtain ⟨s, -, rfl⟩ := h
  exact boundedCopy_length dstsz s hpos

/-- INTERNAL: so does the empty text that stands for a member that is missing. -/
theorem getD_textOf (o : Json) (key : CStr) (dstsz : ℕ) (hpos : 0 < dstsz) :
    TextOf o ((getMemberString o key dstsz).getD []) ∧
      ((getMemberString o key dstsz).getD []).length < dstsz := by
  cases h : getMemberString o key dstsz with
  | none => exact ⟨Or.inl rfl, hpos⟩
  | some v =>
    exact ⟨getMemberString_textOf o key v dstsz h, getMemberString_length o key v dstsz hpos h⟩

/-- INTERNAL: a converted number fits 32 bits. -/
theorem toUInt32_lt (n : ℤ) : toUInt32 n < 2 ^ 32 := by
  unfold toUInt32
  omega

/-- The device fits the client's type, and its texts are those of the value. -/
structure ParsedFrom (root : Json) (d : HesDevice) : Prop where
  deviceIndex : d.deviceIndex < 2 ^ 32
  netRefIndex : d.netRefIndex < 2 ^ 32
  role : TextOf root d.role ∧ d.role.length < 32
  expectedHardware : TextOf root d.expectedHardware ∧ d.expectedHardware.length < 48
  address : TextOf root d.address ∧ d.address.length < 64
  path : ∀ ob ∈ d.objects, TextOf root ob.path ∧ ob.path.length < hesPathMax
  access : ∀ ob ∈ d.objects, TextOf root ob.access ∧ ob.access.length < 4

/-- INTERNAL: a parsed object's texts are those of its entry, and they fit. -/
theorem parseObjectEntry_from (o : Json) (ob : HesDevObject) (h : parseObjectEntry o = some ob) :
    (TextOf o ob.path ∧ ob.path.length < hesPathMax) ∧
      (TextOf o ob.access ∧ ob.access.length < 4) := by
  unfold parseObjectEntry at h
  simp only [Option.bind_eq_some_iff, Option.map_eq_some_iff] at h
  obtain ⟨path, hpath, access, haccess, rfl⟩ := h
  exact ⟨⟨getMemberString_textOf _ _ _ _ hpath,
      getMemberString_length _ _ _ _ (by decide) hpath⟩,
    getMemberString_textOf _ _ _ _ haccess, getMemberString_length _ _ _ _ (by decide) haccess⟩

/-- INTERNAL: the strings of an element are strings of the object with the array. -/
theorem hasString_getArray (o : Json) (key : CStr) (vs : List Json) (h : o.getArray key = some vs)
    (v : Json) (hv : v ∈ vs) (s : CStr) (hs : HasString v s) : HasString o s := by
  unfold getArray at h
  split at h
  next elements hget =>
    cases h
    exact hasString_of_get o _ key s hget (HasString.element vs v s hv hs)
  · cases h

/-- INTERNAL: a parsed device fits the client's type, with the texts of its entry. -/
theorem parseDeviceEntry_from (o : Json) (d : HesDevice) (h : parseDeviceEntry o = some d) :
    ParsedFrom o d := by
  have hobjects : ∀ ob ∈ d.objects, ∃ e, (∀ s, HasString e s → HasString o s) ∧
      parseObjectEntry e = some ob := by
    unfold parseDeviceEntry at h
    rw [Option.map_eq_some_iff] at h
    obtain ⟨v, -, rfl⟩ := h
    intro ob hob
    obtain ⟨e, he, hread⟩ := List.mem_filterMap.mp (List.mem_of_mem_take hob)
    cases hget : o.getArray (lit "objects") with
    | none =>
      rw [hget] at he
      cases he
    | some es =>
      rw [hget] at he
      exact ⟨e, fun s hs => hasString_getArray o _ es hget e he s hs, hread⟩
  unfold parseDeviceEntry at h
  rw [Option.map_eq_some_iff] at h
  obtain ⟨v, -, rfl⟩ := h
  exact
    { deviceIndex := toUInt32_lt _
      netRefIndex := toUInt32_lt _
      role := getD_textOf o _ _ (by decide)
      expectedHardware := getD_textOf o _ _ (by decide)
      address := getD_textOf o _ _ (by decide)
      path := by
        intro ob hob
        obtain ⟨e, hsub, hread⟩ := hobjects ob hob
        obtain ⟨⟨htext, hlen⟩, -⟩ := parseObjectEntry_from e ob hread
        exact ⟨htext.mono _ _ _ hsub, hlen⟩
      access := by
        intro ob hob
        obtain ⟨e, hsub, hread⟩ := hobjects ob hob
        obtain ⟨-, htext, hlen⟩ := parseObjectEntry_from e ob hread
        exact ⟨htext.mono _ _ _ hsub, hlen⟩ }

/-- INTERNAL: **a device that is parsed** fits its type and holds texts of the document. -/
theorem hesDevregParse_from (root : Json) (reg : HesDevreg) (h : hesDevregParse root = some reg) :
    ∀ d ∈ reg.devices, ParsedFrom root d := by
  unfold hesDevregParse at h
  split at h
  · cases h
  · rw [Option.map_eq_some_iff] at h
    obtain ⟨entries, hentries, rfl⟩ := h
    intro d hd
    obtain ⟨e, he, hread⟩ := List.mem_filterMap.mp (List.mem_of_mem_take hd)
    have hsub := hasString_getArray root _ entries hentries e he
    have hfrom := parseDeviceEntry_from e d hread
    exact
      { deviceIndex := hfrom.deviceIndex
        netRefIndex := hfrom.netRefIndex
        role := ⟨hfrom.role.1.mono _ _ _ hsub, hfrom.role.2⟩
        expectedHardware := ⟨hfrom.expectedHardware.1.mono _ _ _ hsub, hfrom.expectedHardware.2⟩
        address := ⟨hfrom.address.1.mono _ _ _ hsub, hfrom.address.2⟩
        path := fun ob hob =>
          ⟨(hfrom.path ob hob).1.mono _ _ _ hsub, (hfrom.path ob hob).2⟩
        access := fun ob hob =>
          ⟨(hfrom.access ob hob).1.mono _ _ _ hsub, (hfrom.access ob hob).2⟩ }

/-! ## The round trip -/

/-- The client's device is the one of the profile, with what was reported for it. -/
structure SameDevice (d : HesDevice) (dev : MsDevprofile) : Prop where
  deviceIndex : (d.deviceIndex : ℤ) = dev.deviceIndex
  netRefIndex : (d.netRefIndex : ℤ) = dev.netRefIndex
  role : d.role = dev.role
  expectedHardware : d.expectedHardware = dev.expectedHardware
  address : d.address = dev.runtimeAddress
  udpPort : d.udpPort = dev.runtimeUdpPort
  objects : d.objects = dev.objects.map fun ob => ⟨ob.path, ob.access⟩
  online : d.online = (dev.runtimeBound && dev.online)

/-- The slice is parsed, and its devices are those of the module, in order. -/
def RoundTrips (mod : MsModule) : Prop :=
  ∃ reg, parseSlice (buildSlice mod) = some reg ∧ List.Forall₂ SameDevice reg.devices mod.devs

/-- The client's types hold the device, and its texts need no escapes. -/
structure DeviceCarried (dev : MsDevprofile) : Prop where
  deviceIndex : 0 ≤ dev.deviceIndex ∧ dev.deviceIndex < 2 ^ 32
  netRefIndex : 0 ≤ dev.netRefIndex ∧ dev.netRefIndex < 2 ^ 32
  role : dev.role.length < 32
  expectedHardware : dev.expectedHardware.length < 48
  address : dev.runtimeAddress.length < 64
  path : ∀ ob ∈ dev.objects, ob.path.length < hesPathMax
  access : ∀ ob ∈ dev.objects, ob.access.length < 4
  texts : ∀ s ∈ comparedTexts dev, Plain s

/-- A slice that comes back: each device is carried, and each label is one JSON string. -/
structure SliceCarried (mod : MsModule) : Prop where
  devices : ∀ dev ∈ mod.devs, DeviceCarried dev
  labels : ∀ s ∈ labels mod, WellQuoted s ∧ utf8CheckString s = true

/-- INTERNAL: the numbers of a module of the loader's type can be printed. -/
theorem fitsNumbers_of_fits (mod : MsModule) (h : ModuleFits mod) : FitsNumbers mod where
  moduleRefIndex := h.moduleRefIndex
  deviceIndex := fun dev hdev => (h.each dev hdev).deviceIndex
  netRefIndex := fun dev hdev => (h.each dev hdev).netRefIndex
  runtimeUdpPort := fun dev hdev =>
    fitsInt64_of_fitsInt32 _ (h.each dev hdev).runtimeUdpPort

/-- INTERNAL: numbers below 2⁵³ are read as they are. -/
theorem readLong_small (n : ℤ) (hlo : -2 ^ 32 ≤ n) (hhi : n < 2 ^ 32) : readLong n = n := by
  apply Binary64.toLong_ofInt
  omega

/-- INTERNAL: an index of 32 bits comes back. -/
theorem readIndex (n : ℤ) (hlo : 0 ≤ n) (hhi : n < 2 ^ 32) :
    (toUInt32 (readLong n) : ℤ) = n := by
  rw [readLong_small n (by omega) hhi]
  unfold toUInt32
  omega

/-- INTERNAL: a text that fits is copied whole. -/
theorem boundedCopy_of_short (dstsz : ℕ) (s : CStr) (h : s.length < dstsz) :
    boundedCopy dstsz s = s := by
  unfold boundedCopy
  exact List.take_of_length_le (by omega)

/-- INTERNAL: a plain text that fits comes back. -/
theorem boundedCopy_slotValue (dstsz : ℕ) (s : CStr) (hplain : Plain s) (h : s.length < dstsz) :
    boundedCopy dstsz (slotValue s) = s := by
  rw [slotValue_unquoted s hplain.1, boundedCopy_of_short dstsz s h]

/-- INTERNAL: a reported device comes back online exactly when it is bound and online. -/
theorem readBack_online (mod : MsModule) (dev : MsDevprofile) :
    (readBack mod dev).online = (dev.runtimeBound && dev.online) := by
  show decide (slotValue (deviceStatus dev) = lit "online") = _
  rw [slotValue_unquoted _ (deviceStatus_plain dev).1]
  unfold deviceStatus
  cases dev.runtimeBound with
  | false =>
    rw [if_neg (by decide), Bool.false_and]
    decide +kernel
  | true =>
    cases dev.online with
    | false => decide +kernel
    | true => decide +kernel

/-- INTERNAL: a port comes back, whatever its sign. -/
theorem readBack_udpPort (mod : MsModule) (dev : MsDevprofile)
    (h : FitsInt32 dev.runtimeUdpPort) : (readBack mod dev).udpPort = dev.runtimeUdpPort := by
  show toInt32 (readLong dev.runtimeUdpPort) = _
  obtain ⟨hlo, hhi⟩ := h
  rw [readLong_small _ (by omega) (by omega)]
  exact toInt32_of_fits _ ⟨hlo, hhi⟩

/-- INTERNAL: a device that can be carried comes back the same. -/
theorem readBack_same (mod : MsModule) (dev : MsDevprofile) (hfits : DeviceFits dev)
    (h : DeviceCarried dev) : SameDevice (readBack mod dev) dev where
  deviceIndex := readIndex _ h.deviceIndex.1 h.deviceIndex.2
  netRefIndex := readIndex _ h.netRefIndex.1 h.netRefIndex.2
  role := boundedCopy_slotValue 32 _ (h.texts _ (by simp [comparedTexts])) h.role
  expectedHardware :=
    boundedCopy_slotValue 48 _ (h.texts _ (by simp [comparedTexts])) h.expectedHardware
  address := boundedCopy_slotValue 64 _ (h.texts _ (by simp [comparedTexts])) h.address
  udpPort := readBack_udpPort mod dev hfits.runtimeUdpPort
  objects := by
    show (dev.objects.map readBackObject).take hesDevregMaxObjects = _
    rw [List.take_of_length_le]
    · apply List.map_congr_left
      intro ob hob
      have hpath : Plain ob.path := by
        apply h.texts
        unfold comparedTexts
        simp only [List.mem_cons, List.mem_flatMap]
        exact Or.inr (Or.inr (Or.inr ⟨ob, hob, by simp⟩))
      have haccess : Plain ob.access := by
        apply h.texts
        unfold comparedTexts
        simp only [List.mem_cons, List.mem_flatMap]
        exact Or.inr (Or.inr (Or.inr ⟨ob, hob, by simp⟩))
      unfold readBackObject
      rw [boundedCopy_slotValue _ _ hpath (h.path ob hob),
        boundedCopy_slotValue _ _ haccess (h.access ob hob)]
    · have := hfits.objects
      rw [List.length_map]
      unfold msMaxObjects at this
      unfold hesDevregMaxObjects
      omega
  online := readBack_online mod dev

/-- INTERNAL: **a slice that is well printed** is parsed as the devices of the module. -/
theorem parseSlice_buildSlice (mod : MsModule) (hfits : ModuleFits mod)
    (h : WellPrinted mod) :
    ∃ reg, parseSlice (buildSlice mod) = some reg ∧
      reg.devices = mod.devs.map (readBack mod) := by
  obtain ⟨reg, hreg, hdevices⟩ := hesDevregParse_slice mod
  refine ⟨reg, ?_, ?_⟩
  · unfold parseSlice
    rw [loads_buildSlice mod (fitsNumbers_of_fits mod hfits) h, Option.bind_some, hreg]
  · rw [hdevices, List.take_of_length_le]
    rw [List.length_map]
    exact hfits.devs

/-- INTERNAL: with well quoted labels and plain texts a slice is well printed. -/
theorem wellPrinted_of (mod : MsModule)
    (hlabels : ∀ s ∈ labels mod, WellQuoted s ∧ utf8CheckString s = true)
    (htexts : ∀ dev ∈ mod.devs, ∀ s ∈ comparedTexts dev, Plain s) : WellPrinted mod := by
  have hall : ∀ s ∈ Part.slots (sliceParts mod), WellQuoted s ∧ utf8CheckString s = true := by
    intro s hs
    rcases (mem_slots_slice mod s).mp hs with hs | ⟨dev, hdev, hs | rfl⟩
    · exact hlabels s hs
    · have := htexts dev hdev s hs
      exact ⟨this.1.wellQuoted, this.2⟩
    · have := deviceStatus_plain dev
      exact ⟨this.1.wellQuoted, this.2⟩
  exact ⟨fun s hs => (hall s hs).1, fun s hs => (hall s hs).2⟩

/-- INTERNAL: a slice that can be carried comes back. -/
theorem roundTrips_of_carried (mod : MsModule) (hfits : ModuleFits mod) (h : SliceCarried mod) :
    RoundTrips mod := by
  have hprinted := wellPrinted_of mod h.labels fun dev hdev => (h.devices dev hdev).texts
  obtain ⟨reg, hparse, hdevices⟩ := parseSlice_buildSlice mod hfits hprinted
  refine ⟨reg, hparse, ?_⟩
  rw [hdevices, List.forall₂_map_left_iff, List.forall₂_same]
  exact fun dev hdev => readBack_same mod dev (hfits.each dev hdev) (h.devices dev hdev)

/-- INTERNAL: of texts of a bounded length, one has none that is longer. -/
theorem no_longer (S : CStr → Prop) (bound : ℕ) (hbound : ∀ s, S s → s.length < bound)
    (hlonger : ∀ s, S s → ∃ t, S t ∧ s.length < t.length) : ∀ s, ¬ S s := by
  have hgap : ∀ k s, bound ≤ s.length + k → ¬ S s := by
    intro k
    induction k with
    | zero =>
      intro s hlen hs
      have := hbound s hs
      omega
    | succ k ih =>
      intro s hlen hs
      obtain ⟨t, ht, hlt⟩ := hlonger s hs
      exact ih t (by omega) ht
  exact fun s => hgap bound s (by omega)

/-- INTERNAL: the start of a text without escapes has none. -/
theorem unquoted_start (v s : CStr) (h : v <+: s) (hs : Unquoted s) : Unquoted v :=
  fun c hc => hs c (h.subset hc)

/-- INTERNAL: a text of a loaded template is free of escapes, or a longer one between the
quotes is not. -/
theorem longer_slot (ps : List Part) (value : Json)
    (hstrings : ∀ v, HasString value v → ¬ Unquoted v →
      ∃ s ∈ Part.slots ps, ¬ Unquoted s ∧ v.length < s.length)
    (v : CStr) (htext : TextOf value v) (hv : ¬ Unquoted v) :
    ∃ s ∈ Part.slots ps, ¬ Unquoted s ∧ v.length < s.length := by
  rcases htext with rfl | ⟨w, hw, hstart⟩
  · exact absurd (fun c hc => by cases hc) hv
  · have hunq : ¬ Unquoted w := fun h => hv (unquoted_start v w hstart h)
    obtain ⟨s, hs, hsunq, hlen⟩ := hstrings w hw hunq
    have := hstart.length_le
    exact ⟨s, hs, hsunq, by omega⟩

/-- INTERNAL: the compared texts are shorter than a path. -/
theorem comparedTexts_length (dev : MsDevprofile) (h : DeviceFits dev) (s : CStr)
    (hs : s ∈ comparedTexts dev) : s.length < msPath := by
  unfold comparedTexts at hs
  simp only [List.mem_cons, List.mem_flatMap, List.not_mem_nil, or_false] at hs
  have hrole := h.role
  have hhardware := h.expectedHardware
  rcases hs with rfl | rfl | rfl | ⟨ob, hob, rfl | rfl⟩
  · unfold msPath
    omega
  · unfold msPath
    omega
  · exact h.runtimeAddress
  · exact h.path ob hob
  · have := h.access ob hob
    unfold msPath
    omega

/-- INTERNAL: the texts of a device that came back are texts of the document. -/
theorem sameDevice_textOf (root : Json) (d : HesDevice) (dev : MsDevprofile)
    (hsame : SameDevice d dev) (hfrom : ParsedFrom root d) :
    ∀ s ∈ comparedTexts dev, TextOf root s := by
  intro s hs
  unfold comparedTexts at hs
  simp only [List.mem_cons, List.mem_flatMap, List.not_mem_nil, or_false] at hs
  rcases hs with rfl | rfl | rfl | ⟨ob, hob, rfl | rfl⟩
  · rw [← hsame.role]
    exact hfrom.role.1
  · rw [← hsame.expectedHardware]
    exact hfrom.expectedHardware.1
  · rw [← hsame.address]
    exact hfrom.address.1
  · have hmem : ⟨ob.path, ob.access⟩ ∈ d.objects := by
      rw [hsame.objects]
      exact List.mem_map.mpr ⟨ob, hob, rfl⟩
    exact (hfrom.path _ hmem).1
  · have hmem : ⟨ob.path, ob.access⟩ ∈ d.objects := by
      rw [hsame.objects]
      exact List.mem_map.mpr ⟨ob, hob, rfl⟩
    exact (hfrom.access _ hmem).1

/-- INTERNAL: a device that came back could be carried. -/
theorem carried_of_same (root : Json) (d : HesDevice) (dev : MsDevprofile)
    (hsame : SameDevice d dev) (hfrom : ParsedFrom root d)
    (htexts : ∀ s ∈ comparedTexts dev, Plain s) : DeviceCarried dev where
  deviceIndex := by
    have := hsame.deviceIndex
    have := hfrom.deviceIndex
    omega
  netRefIndex := by
    have := hsame.netRefIndex
    have := hfrom.netRefIndex
    omega
  role := by
    rw [← hsame.role]
    exact hfrom.role.2
  expectedHardware := by
    rw [← hsame.expectedHardware]
    exact hfrom.expectedHardware.2
  address := by
    rw [← hsame.address]
    exact hfrom.address.2
  path := by
    intro ob hob
    have hmem : ⟨ob.path, ob.access⟩ ∈ d.objects := by
      rw [hsame.objects]
      exact List.mem_map.mpr ⟨ob, hob, rfl⟩
    exact (hfrom.path _ hmem).2
  access := by
    intro ob hob
    have hmem : ⟨ob.path, ob.access⟩ ∈ d.objects := by
      rw [hsame.objects]
      exact List.mem_map.mpr ⟨ob, hob, rfl⟩
    exact (hfrom.access _ hmem).2
  texts := htexts

/-- INTERNAL: **a slice that comes back** is carried, where the labels are free of escapes. -/
theorem carried_of_roundTrips (mod : MsModule) (hfits : ModuleFits mod)
    (hlabels : ∀ s ∈ labels mod, Unquoted s) (h : RoundTrips mod) : SliceCarried mod := by
  obtain ⟨reg, hparse, hsame⟩ := h
  unfold parseSlice at hparse
  rw [Option.bind_eq_some_iff] at hparse
  obtain ⟨root, hload, hreg⟩ := hparse
  have hfrom := hesDevregParse_from root reg hreg
  rw [← render_sliceParts] at hload
  have hsound := sliceParts_sound mod (fitsNumbers_of_fits mod hfits)
  obtain ⟨hutf8, hstrings⟩ := loaded_render _ hsound (sliceParts_names mod) root hload
  have hmatch : ∀ dev ∈ mod.devs, ∃ d ∈ reg.devices, SameDevice d dev := by
    intro dev hdev
    obtain ⟨i, hi, rfl⟩ := List.mem_iff_getElem.mp hdev
    have hi' : i < reg.devices.length := by
      rw [hsame.length_eq]
      exact hi
    exact ⟨reg.devices[i], List.getElem_mem _, hsame.get hi' hi⟩
  -- A compared text that is not free of escapes has a longer one.
  have hunq := no_longer
    (fun s => ¬ Unquoted s ∧ ∃ dev ∈ mod.devs, s ∈ comparedTexts dev) msPath
    (by
      rintro s ⟨-, dev, hdev, hs⟩
      exact comparedTexts_length dev (hfits.each dev hdev) s hs)
    (by
      rintro s ⟨hesc, dev, hdev, hs⟩
      obtain ⟨d, hd, hsame⟩ := hmatch dev hdev
      have htext := sameDevice_textOf root d dev hsame (hfrom d hd) s hs
      obtain ⟨t, ht, htesc, hlen⟩ := longer_slot _ root hstrings s htext hesc
      refine ⟨t, ⟨htesc, ?_⟩, hlen⟩
      rcases (mem_slots_slice mod t).mp ht with ht | ⟨dev', hdev', ht | rfl⟩
      · exact absurd (hlabels t ht) htesc
      · exact ⟨dev', hdev', ht⟩
      · exact absurd (deviceStatus_plain dev').1 htesc)
  have htexts : ∀ dev ∈ mod.devs, ∀ s ∈ comparedTexts dev, Plain s := by
    intro dev hdev s hs
    refine ⟨by_contra fun hesc => hunq s ⟨hesc, dev, hdev, hs⟩, ?_⟩
    exact hutf8 s ((mem_slots_slice mod s).mpr (Or.inr ⟨dev, hdev, Or.inl hs⟩))
  exact
    { devices := by
        intro dev hdev
        obtain ⟨d, hd, hsame⟩ := hmatch dev hdev
        exact carried_of_same root d dev hsame (hfrom d hd) (htexts dev hdev)
      labels := fun s hs =>
        ⟨(hlabels s hs).wellQuoted, hutf8 s ((mem_slots_slice mod s).mpr (Or.inl hs))⟩ }

/-- **The round trip of a slice**, for every module that the service holds: it comes back when
every device is carried and the labels are JSON strings, and, where the labels are free of
escapes, only then.
SRCLINE: dm/dm.c:316-352, common/hes_devreg.c:120-225 -/
theorem slice_round_trip_iff (txt : CStr) (pf : MsProfile) (hload : loadProfile txt = some pf)
    (requests : List (List UInt8)) (mod : MsModule)
    (hmod : mod ∈ (serveRequests pf requests).modules) :
    (SliceCarried mod → RoundTrips mod) ∧
      ((∀ s ∈ labels mod, Unquoted s) → RoundTrips mod → SliceCarried mod) := by
  have hfits := serveRequests_fits txt pf hload requests mod hmod
  exact ⟨roundTrips_of_carried mod hfits, carried_of_roundTrips mod hfits⟩

/-- A profile of one module with one device of the role. -/
def oneDeviceProfile (role : String) : CStr :=
  lit ("\x7b\"modules\":[\x7b\"moduleType\":\"hi\",\"moduleRefIndex\":1,\"deviceProfiles\":[" ++
    "\x7b\"deviceIndex\":6,\"deviceRole\":\"" ++ role ++ "\"\x7d]\x7d]\x7d")

/-- The module of such a profile. -/
def oneDeviceModule (role : CStr) : MsModule where
  moduleType := lit "hi"
  moduleRefIndex := 1
  serviceModuleType := []
  networkType := []
  devs := [⟨6, 0, role, [], [], [], [], 0, false, false⟩]

/-- INTERNAL: the loader makes the module with one lamp. -/
theorem lampProfile_loaded :
    loadProfile (oneDeviceProfile "lamp") = some ⟨[oneDeviceModule (lit "lamp")]⟩ := by
  unfold oneDeviceProfile
  simp only [lit_append]
  rw [lit_ofList, lit_ofList, lit_ofList]
  decide +kernel

/-- A module with one lamp comes back. -/
theorem slice_round_trip_lamp : RoundTrips (oneDeviceModule (lit "lamp")) := by
  have hiff := slice_round_trip_iff (oneDeviceProfile "lamp") ⟨[oneDeviceModule (lit "lamp")]⟩
    lampProfile_loaded [] (oneDeviceModule (lit "lamp")) List.mem_cons_self
  apply hiff.1
  have hplain : ∀ s ∈ [lit "hi", [], lit "lamp"], Plain s := by
    intro s hs
    apply plain_of_check
    revert s
    decide +kernel
  refine ⟨?_, ?_⟩
  · intro dev hdev
    rw [List.mem_singleton.mp hdev]
    exact
      { deviceIndex := by decide
        netRefIndex := by decide
        role := by decide +kernel
        expectedHardware := by decide
        address := by decide
        path := by simp
        access := by simp
        texts := by
          intro s hs
          apply hplain
          simp only [comparedTexts, List.flatMap_nil, List.mem_cons, List.not_mem_nil,
            or_false] at hs ⊢
          rcases hs with hlamp | hempty | hempty
          · exact Or.inr (Or.inr hlamp)
          · exact Or.inr (Or.inl hempty)
          · exact Or.inr (Or.inl hempty) }
  · intro s hs
    have hs : s ∈ [lit "hi", [], []] := hs
    have : Plain s := by
      apply hplain
      simp only [List.mem_cons, List.not_mem_nil, or_false] at hs ⊢
      rcases hs with hi | hempty | hempty
      · exact Or.inl hi
      · exact Or.inr (Or.inl hempty)
      · exact Or.inr (Or.inl hempty)
    exact ⟨this.1.wellQuoted, this.2⟩

/-- A role with a quote in it does not come back: the slice is no JSON text. -/
theorem quoted_role_lost :
    ∃ txt pf requests mod, loadProfile txt = some pf ∧
      mod ∈ (serveRequests pf requests).modules ∧ ¬ RoundTrips mod := by
  have hloaded : loadProfile (oneDeviceProfile "a\\\"b") =
      some ⟨[oneDeviceModule (lit "a\"b")]⟩ := by
    unfold oneDeviceProfile
    simp only [lit_append]
    rw [lit_ofList, lit_ofList, lit_ofList]
    decide +kernel
  refine ⟨oneDeviceProfile "a\\\"b", ⟨[oneDeviceModule (lit "a\"b")]⟩, [],
    oneDeviceModule (lit "a\"b"), hloaded, List.mem_cons_self, ?_⟩
  rintro ⟨reg, hparse, -⟩
  have hnone : (parseSlice (buildSlice (oneDeviceModule (lit "a\"b")))).isNone = true := by
    decide +kernel
  rw [hparse] at hnone
  cases hnone

end OpenHes.Analysis
