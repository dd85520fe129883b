import OpenHes.Library.JsonReads
import OpenHes.Library.JsonTemplate
import OpenHes.Model.Manifest

/-!
# The text of a slice

The slice that the service prints as a template: its fixed texts, the numbers, and the texts
that are put between quotes as they are. Where each of these is one JSON string, the slice is
read as the document it is meant to be.
-/

set_option autoImplicit false

namespace OpenHes.Analysis

open OpenHes.Library OpenHes.Library.Json OpenHes.Model

/-! ## The template -/

/-- The tokens in front of a member's value. -/
def keyTokens (key : String) : List Token := [.string (lit key), .colon]

/-- One object of a slice. -/
def objectParts (ob : MsObject) (last : Bool) : List Part :=
  [.fixed (lit "        \x7b \"lexiconPath\": ") (.openBrace :: keyTokens "lexiconPath"),
    .slot ob.path (lit ", \"access\": ") (.comma :: keyTokens "access"),
    .slot ob.access (lit (if last then " \x7d\n" else " \x7d,\n"))
      (if last then [.closeBrace] else [.closeBrace, .comma])]

/-- The objects of a device. -/
def objectsParts : List MsObject → List Part
  | [] => []
  | ob :: rest => objectParts ob rest.isEmpty ++ objectsParts rest

/-- One device of a slice. -/
def deviceParts (mod : MsModule) (dev : MsDevprofile) : List Part :=
  [.fixed (lit "    \x7b\n") [.openBrace],
    .fixed (lit "      \"deviceIndex\": ") (keyTokens "deviceIndex"),
    .number dev.deviceIndex (lit ",\n") [.comma],
    .fixed (lit "      \"netRefIndex\": ") (keyTokens "netRefIndex"),
    .number dev.netRefIndex (lit ",\n") [.comma],
    .fixed (lit "      \"deviceRole\": ") (keyTokens "deviceRole"),
    .slot dev.role (lit ",\n") [.comma],
    .fixed (lit "      \"expectedHardware\": ") (keyTokens "expectedHardware"),
    .slot dev.expectedHardware (lit ",\n") [.comma],
    .fixed (lit "      \"networkType\": ") (keyTokens "networkType"),
    .slot (deviceNetwork mod dev) (lit ",\n") [.comma],
    .fixed (lit "      \"address\": ") (keyTokens "address"),
    .slot dev.runtimeAddress (lit ",\n") [.comma],
    .fixed (lit "      \"udpPort\": ") (keyTokens "udpPort"),
    .number dev.runtimeUdpPort (lit ",\n") [.comma],
    .fixed (lit "      \"status\": ") (keyTokens "status"),
    .slot (deviceStatus dev) (lit ",\n") [.comma],
    .fixed (lit "      \"objects\": [\n") (keyTokens "objects" ++ [.openBracket])] ++
  objectsParts dev.objects ++
  [.fixed (lit "      ]\n    \x7d") [.closeBracket, .closeBrace]]

/-- The devices of a slice. -/
def devicesParts (mod : MsModule) : List MsDevprofile → List Part
  | [] => []
  | dev :: rest =>
    deviceParts mod dev ++
      rest.flatMap fun dev => .fixed (lit ",\n") [.comma] :: deviceParts mod dev

/-- The slice. -/
def sliceParts (mod : MsModule) : List Part :=
  [.fixed (lit "\x7b\n") [.openBrace],
    .fixed (lit "  \"gatewayId\": \"HES-GW-2026-99A1\",\n")
      (keyTokens "gatewayId" ++ [.string (lit "HES-GW-2026-99A1"), .comma]),
    .fixed (lit "  \"moduleType\": ") (keyTokens "moduleType"),
    .slot mod.moduleType (lit ",\n") [.comma],
    .fixed (lit "  \"moduleRefIndex\": ") (keyTokens "moduleRefIndex"),
    .number mod.moduleRefIndex (lit ",\n") [.comma],
    .fixed (lit "  \"networkType\": ") (keyTokens "networkType"),
    .slot mod.networkType (lit ",\n") [.comma],
    .fixed (lit "  \"devices\": [\n") (keyTokens "devices" ++ [.openBracket])] ++
  devicesParts mod mod.devs ++
  [.fixed (lit "\n  ]\n\x7d\n") [.closeBracket, .closeBrace]]

/-- INTERNAL: the parts of an object print its line. -/
theorem render_objectParts (ob : MsObject) (last : Bool) :
    render (objectParts ob last) = objectLine ob last := by
  unfold render objectParts objectLine
  rw [List.flatMap_cons, List.flatMap_cons, List.flatMap_cons, List.flatMap_nil, List.append_nil]
  unfold Part.text
  dsimp only
  rw [List.append_assoc, List.append_assoc, List.append_assoc, List.append_assoc]

/-- INTERNAL: those of the objects print the lines. -/
theorem render_objectsParts (obs : List MsObject) :
    render (objectsParts obs) = objectLines obs := by
  induction obs with
  | nil => rfl
  | cons ob rest ih =>
    rw [objectsParts, render_append, ih, render_objectParts, objectLines]

/-- INTERNAL: those of a device print its text. -/
theorem render_deviceParts (mod : MsModule) (dev : MsDevprofile) :
    render (deviceParts mod dev) = deviceText mod dev := by
  unfold deviceParts
  rw [render_append, render_append, render_objectsParts]
  unfold render deviceText
  simp only [List.flatMap_cons, List.flatMap_nil]
  unfold Part.text
  dsimp only
  simp only [List.append_nil, List.append_assoc]

/-- INTERNAL: those of the devices print theirs. -/
theorem render_devicesParts (mod : MsModule) (devs : List MsDevprofile) :
    render (devicesParts mod devs) = deviceTexts mod devs := by
  cases devs with
  | nil => rfl
  | cons dev rest =>
    have hrest : render (rest.flatMap fun dev => .fixed (lit ",\n") [.comma] :: deviceParts mod dev) =
        rest.flatMap fun dev => lit ",\n" ++ deviceText mod dev := by
      induction rest with
      | nil => rfl
      | cons dev' rest ih =>
        rw [List.flatMap_cons, List.flatMap_cons, render_append, ih, render_cons,
          render_deviceParts]
        rfl
    unfold devicesParts deviceTexts
    rw [render_append, render_deviceParts, hrest]

/-- INTERNAL: **the template** prints the slice. -/
theorem render_sliceParts (mod : MsModule) : render (sliceParts mod) = buildSlice mod := by
  unfold sliceParts
  rw [render_append, render_append, render_devicesParts]
  unfold render buildSlice
  simp only [List.flatMap_cons, List.flatMap_nil]
  unfold Part.text
  dsimp only
  simp only [List.append_nil, List.append_assoc]

/-! ## Soundness of the parts -/

/-- The numbers of a slice fit their C types. -/
structure FitsNumbers (mod : MsModule) : Prop where
  moduleRefIndex : FitsInt64 mod.moduleRefIndex
  deviceIndex : ∀ dev ∈ mod.devs, FitsInt64 dev.deviceIndex
  netRefIndex : ∀ dev ∈ mod.devs, FitsInt64 dev.netRefIndex
  runtimeUdpPort : ∀ dev ∈ mod.devs, FitsInt64 dev.runtimeUdpPort

/-- INTERNAL: a fixed text that checks scans to its tokens. -/
theorem sound_fixed (after : CStr) (ts : List Token) (h : Part.fixedCheck after ts = true) :
    (Part.fixed after ts).Sound :=
  Part.sound_of_check _ h (by simp)

/-- INTERNAL: a text between quotes that checks scans to its own token. -/
theorem sound_slot (s after : CStr) (ts : List Token)
    (h : (Part.fixedCheck after ts && Part.breaksCheck after) = true) :
    (Part.slot s after ts).Sound :=
  Part.sound_of_check _ h (by simp)

/-- INTERNAL: a number that fits scans to its own, if what follows stops it. -/
theorem sound_number (n : ℤ) (after : CStr) (ts : List Token) (hn : FitsInt64 n)
    (h : (Part.fixedCheck after ts && Part.stopsCheck after) = true) :
    (Part.number n after ts).Sound := by
  apply Part.sound_of_check (.number n after ts) h
  rintro n' after' ts' heq
  cases heq
  exact hn

/-- INTERNAL: the parts of an object are sound. -/
theorem objectParts_sound (ob : MsObject) (last : Bool) : ∀ p ∈ objectParts ob last, p.Sound := by
  intro p hp
  simp only [objectParts, List.mem_cons, List.not_mem_nil, or_false] at hp
  rcases hp with rfl | rfl | rfl
  · exact sound_fixed _ _ (by decide +kernel)
  · exact sound_slot _ _ _ (by decide +kernel)
  · cases last
    · exact sound_slot _ _ _ (by decide +kernel)
    · exact sound_slot _ _ _ (by decide +kernel)

/-- INTERNAL: those of the objects are. -/
theorem objectsParts_sound (obs : List MsObject) : ∀ p ∈ objectsParts obs, p.Sound := by
  induction obs with
  | nil => simp [objectsParts]
  | cons ob rest ih =>
    intro p hp
    rw [objectsParts, List.mem_append] at hp
    rcases hp with hp | hp
    · exact objectParts_sound ob _ p hp
    · exact ih p hp

/-- INTERNAL: a text in front of a comma and a line break is sound. -/
theorem comma_newline_slot (s : CStr) : (Part.slot s (lit ",\n") [.comma]).Sound :=
  sound_slot _ _ _ (by decide +kernel)

/-- INTERNAL: so is a number. -/
theorem comma_newline_number (n : ℤ) (hn : FitsInt64 n) :
    (Part.number n (lit ",\n") [.comma]).Sound :=
  sound_number _ _ _ hn (by decide +kernel)

/-- INTERNAL: the parts of a device whose numbers fit are sound. -/
theorem deviceParts_sound (mod : MsModule) (dev : MsDevprofile) (hindex : FitsInt64 dev.deviceIndex)
    (hnet : FitsInt64 dev.netRefIndex) (hport : FitsInt64 dev.runtimeUdpPort) :
    ∀ p ∈ deviceParts mod dev, p.Sound := by
  intro p hp
  unfold deviceParts at hp
  rw [List.mem_append, List.mem_append] at hp
  rcases hp with (hp | hp) | hp
  · simp only [List.mem_cons, List.not_mem_nil, or_false] at hp
    rcases hp with rfl | rfl | rfl | rfl | rfl | rfl | rfl | rfl | rfl | rfl | rfl | rfl | rfl |
      rfl | rfl | rfl | rfl | rfl
    · exact sound_fixed _ _ (by decide +kernel)
    · exact sound_fixed _ _ (by decide +kernel)
    · exact comma_newline_number _ hindex
    · exact sound_fixed _ _ (by decide +kernel)
    · exact comma_newline_number _ hnet
    · exact sound_fixed _ _ (by decide +kernel)
    · exact comma_newline_slot _
    · exact sound_fixed _ _ (by decide +kernel)
    · exact comma_newline_slot _
    · exact sound_fixed _ _ (by decide +kernel)
    · exact comma_newline_slot _
    · exact sound_fixed _ _ (by decide +kernel)
    · exact comma_newline_slot _
    · exact sound_fixed _ _ (by decide +kernel)
    · exact comma_newline_number _ hport
    · exact sound_fixed _ _ (by decide +kernel)
    · exact comma_newline_slot _
    · exact sound_fixed _ _ (by decide +kernel)
  · exact objectsParts_sound _ p hp
  · rw [List.mem_singleton] at hp
    subst hp
    exact sound_fixed _ _ (by decide +kernel)

/-- INTERNAL: a part of the devices is a comma between two or a part of one. -/
theorem mem_devicesParts (mod : MsModule) (devs : List MsDevprofile) (p : Part)
    (hp : p ∈ devicesParts mod devs) :
    p = .fixed (lit ",\n") [.comma] ∨ ∃ dev ∈ devs, p ∈ deviceParts mod dev := by
  cases devs with
  | nil => simp [devicesParts] at hp
  | cons dev rest =>
    unfold devicesParts at hp
    rw [List.mem_append, List.mem_flatMap] at hp
    rcases hp with hp | ⟨dev', hdev', hp⟩
    · exact Or.inr ⟨dev, by simp, hp⟩
    · rcases List.mem_cons.mp hp with rfl | hp
      · exact Or.inl rfl
      · exact Or.inr ⟨dev', by simp [hdev'], hp⟩

/-- INTERNAL: those of a slice are. -/
theorem sliceParts_sound (mod : MsModule) (h : FitsNumbers mod) :
    ∀ p ∈ sliceParts mod, p.Sound := by
  intro p hp
  unfold sliceParts at hp
  rw [List.mem_append, List.mem_append] at hp
  rcases hp with (hp | hp) | hp
  · simp only [List.mem_cons, List.not_mem_nil, or_false] at hp
    rcases hp with rfl | rfl | rfl | rfl | rfl | rfl | rfl | rfl | rfl
    · exact sound_fixed _ _ (by decide +kernel)
    · exact sound_fixed _ _ (by decide +kernel)
    · exact sound_fixed _ _ (by decide +kernel)
    · exact comma_newline_slot _
    · exact sound_fixed _ _ (by decide +kernel)
    · exact comma_newline_number _ h.moduleRefIndex
    · exact sound_fixed _ _ (by decide +kernel)
    · exact comma_newline_slot _
    · exact sound_fixed _ _ (by decide +kernel)
  · rcases mem_devicesParts mod _ p hp with rfl | ⟨dev, hdev, hp⟩
    · exact sound_fixed _ _ (by decide +kernel)
    · exact deviceParts_sound mod dev (h.deviceIndex dev hdev) (h.netRefIndex dev hdev)
        (h.runtimeUdpPort dev hdev) p hp
  · rw [List.mem_singleton] at hp
    subst hp
    exact sound_fixed _ _ (by decide +kernel)

/-! ## The document -/

/-- The members of an object of the slice. -/
def objectMembers (ob : MsObject) : List Member :=
  [⟨lit "lexiconPath", [.string (slotValue ob.path)], .string (slotValue ob.path)⟩,
    ⟨lit "access", [.string (slotValue ob.access)], .string (slotValue ob.access)⟩]

/-- The objects of a device, as tokens and as values. -/
def objectElements (dev : MsDevprofile) : List (List Token × Json) :=
  dev.objects.map fun ob =>
    (.openBrace :: (membersTokens (objectMembers ob) ++ [.closeBrace]), ofMembers (objectMembers ob))

/-- The members of a device of the slice. -/
def deviceMembers (mod : MsModule) (dev : MsDevprofile) : List Member :=
  [⟨lit "deviceIndex", [.integer dev.deviceIndex], .integer dev.deviceIndex⟩,
    ⟨lit "netRefIndex", [.integer dev.netRefIndex], .integer dev.netRefIndex⟩,
    ⟨lit "deviceRole", [.string (slotValue dev.role)], .string (slotValue dev.role)⟩,
    ⟨lit "expectedHardware", [.string (slotValue dev.expectedHardware)],
      .string (slotValue dev.expectedHardware)⟩,
    ⟨lit "networkType", [.string (slotValue (deviceNetwork mod dev))],
      .string (slotValue (deviceNetwork mod dev))⟩,
    ⟨lit "address", [.string (slotValue dev.runtimeAddress)],
      .string (slotValue dev.runtimeAddress)⟩,
    ⟨lit "udpPort", [.integer dev.runtimeUdpPort], .integer dev.runtimeUdpPort⟩,
    ⟨lit "status", [.string (slotValue (deviceStatus dev))],
      .string (slotValue (deviceStatus dev))⟩,
    ⟨lit "objects",
      .openBracket :: (elementsTokens ((objectElements dev).map Prod.fst) ++ [.closeBracket]),
      .array ((objectElements dev).map Prod.snd)⟩]

/-- The devices of a module, as tokens and as values. -/
def deviceElements (mod : MsModule) : List (List Token × Json) :=
  mod.devs.map fun dev =>
    (.openBrace :: (membersTokens (deviceMembers mod dev) ++ [.closeBrace]),
      ofMembers (deviceMembers mod dev))

/-- The members of the slice. -/
def sliceMembers (mod : MsModule) : List Member :=
  [⟨lit "gatewayId", [.string (lit "HES-GW-2026-99A1")], .string (lit "HES-GW-2026-99A1")⟩,
    ⟨lit "moduleType", [.string (slotValue mod.moduleType)], .string (slotValue mod.moduleType)⟩,
    ⟨lit "moduleRefIndex", [.integer mod.moduleRefIndex], .integer mod.moduleRefIndex⟩,
    ⟨lit "networkType", [.string (slotValue mod.networkType)],
      .string (slotValue mod.networkType)⟩,
    ⟨lit "devices",
      .openBracket :: (elementsTokens ((deviceElements mod).map Prod.fst) ++ [.closeBracket]),
      .array ((deviceElements mod).map Prod.snd)⟩]

/-- INTERNAL: the objects scan to the elements of an array. -/
theorem tokens_objectsParts (obs : List MsObject) :
    (objectsParts obs).flatMap Part.tokens = elementsTokens (obs.map fun ob =>
      .openBrace :: (membersTokens (objectMembers ob) ++ [.closeBrace])) := by
  induction obs with
  | nil => rfl
  | cons ob rest ih =>
    rw [objectsParts, List.flatMap_append, ih]
    cases rest with
    | nil => rfl
    | cons ob' rest => rfl

/-- INTERNAL: a device scans to its members between braces. -/
theorem tokens_deviceParts (mod : MsModule) (dev : MsDevprofile) :
    (deviceParts mod dev).flatMap Part.tokens =
      .openBrace :: (membersTokens (deviceMembers mod dev) ++ [.closeBrace]) := by
  unfold deviceParts
  rw [List.flatMap_append, List.flatMap_append, tokens_objectsParts]
  have hobjects : (objectElements dev).map Prod.fst = dev.objects.map fun ob =>
      .openBrace :: (membersTokens (objectMembers ob) ++ [.closeBrace]) := by
    unfold objectElements
    rw [List.map_map]
    rfl
  simp [Part.tokens, deviceMembers, hobjects, membersTokens, keyTokens]

/-- INTERNAL: the devices scan to the elements of an array. -/
theorem tokens_devicesParts (mod : MsModule) (devs : List MsDevprofile) :
    (devicesParts mod devs).flatMap Part.tokens = elementsTokens (devs.map fun dev =>
      .openBrace :: (membersTokens (deviceMembers mod dev) ++ [.closeBrace])) := by
  cases devs with
  | nil => rfl
  | cons dev rest =>
    unfold devicesParts
    rw [List.flatMap_append, tokens_deviceParts]
    induction rest generalizing dev with
    | nil => simp [elementsTokens]
    | cons dev' rest ih =>
      have hrest := ih dev'
      rw [List.map_cons] at hrest
      rw [List.flatMap_cons, List.flatMap_append, List.flatMap_cons, tokens_deviceParts,
        List.map_cons, List.map_cons, elementsTokens, ← hrest]
      simp [Part.tokens]

/-- INTERNAL: a slice scans to its members between braces. -/
theorem tokens_sliceParts (mod : MsModule) :
    (sliceParts mod).flatMap Part.tokens =
      .openBrace :: (membersTokens (sliceMembers mod) ++ [.closeBrace]) := by
  unfold sliceParts
  rw [List.flatMap_append, List.flatMap_append, tokens_devicesParts]
  have hdevices : (deviceElements mod).map Prod.fst = mod.devs.map fun dev =>
      .openBrace :: (membersTokens (deviceMembers mod dev) ++ [.closeBrace]) := by
    unfold deviceElements
    rw [List.map_map]
    rfl
  simp [Part.tokens, sliceMembers, hdevices, membersTokens, keyTokens]

/-- INTERNAL: the tokens of each object are read as it. -/
theorem reads_objectElements (dev : MsDevprofile) (depth : ℕ) :
    ∀ e ∈ objectElements dev, Reads (depth + 2) e.1 e.2 := by
  intro e he
  unfold objectElements at he
  rw [List.mem_map] at he
  obtain ⟨ob, -, rfl⟩ := he
  apply reads_object
  intro m hm
  simp only [objectMembers, List.mem_cons, List.not_mem_nil, or_false] at hm
  rcases hm with rfl | rfl
  · exact reads_string depth _
  · exact reads_string depth _

/-- INTERNAL: the tokens of each device are read as it. -/
theorem reads_deviceElements (mod : MsModule) (depth : ℕ) :
    ∀ e ∈ deviceElements mod, Reads (depth + 4) e.1 e.2 := by
  intro e he
  unfold deviceElements at he
  rw [List.mem_map] at he
  obtain ⟨dev, -, rfl⟩ := he
  apply reads_object
  intro m hm
  simp only [deviceMembers, List.mem_cons, List.not_mem_nil, or_false] at hm
  rcases hm with rfl | rfl | rfl | rfl | rfl | rfl | rfl | rfl | rfl
  · exact reads_integer _ _
  · exact reads_integer _ _
  · exact reads_string _ _
  · exact reads_string _ _
  · exact reads_string _ _
  · exact reads_string _ _
  · exact reads_integer _ _
  · exact reads_string _ _
  · exact reads_array _ _ (reads_objectElements dev depth)

/-- INTERNAL: the tokens of a slice are read as its document. -/
theorem reads_slice (mod : MsModule) (depth : ℕ) :
    Reads (depth + 6) (.openBrace :: (membersTokens (sliceMembers mod) ++ [.closeBrace]))
      (ofMembers (sliceMembers mod)) := by
  apply reads_object
  intro m hm
  simp only [sliceMembers, List.mem_cons, List.not_mem_nil, or_false] at hm
  rcases hm with rfl | rfl | rfl | rfl | rfl
  · exact reads_string _ _
  · exact reads_string _ _
  · exact reads_integer _ _
  · exact reads_string _ _
  · exact reads_array _ _ (reads_deviceElements mod depth)

/-- What is put between the quotes of a slice is one JSON string each, in UTF-8. -/
structure WellPrinted (mod : MsModule) : Prop where
  quoted : ∀ s ∈ Part.slots (sliceParts mod), WellQuoted s
  utf8 : ∀ s ∈ Part.slots (sliceParts mod), utf8CheckString s = true

/-- INTERNAL: **a well printed slice** is read as its document. -/
theorem loads_buildSlice (mod : MsModule) (hnumbers : FitsNumbers mod) (h : WellPrinted mod) :
    loads (buildSlice mod) = some (ofMembers (sliceMembers mod)) := by
  have hsound := sliceParts_sound mod hnumbers
  have htokens := tokens_render (sliceParts mod) hsound h.quoted
  have hutf8 := utf8CheckString_render (sliceParts mod) hsound
  rw [List.all_eq_true.mpr h.utf8] at hutf8
  rw [tokens_sliceParts] at htokens
  rw [render_sliceParts] at htokens hutf8
  exact loads_of_reads _ _ _ hutf8 htokens (reads_slice mod 2042)

end OpenHes.Analysis
