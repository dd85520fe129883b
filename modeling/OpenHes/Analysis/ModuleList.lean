import OpenHes.Analysis.ReportText
import OpenHes.Model.Inventory

/-!
# The module list there and back

The module list that the device service prints, as a template like the slices, and what the
core's client reads from it: each module comes back with its type, its index and its presence.
-/

set_option autoImplicit false

namespace OpenHes.Analysis

open OpenHes.Library OpenHes.Library.Json OpenHes.Model

/-! ## The template -/

/-- One module of the list. -/
def moduleParts (mod : MsModule) : List Part :=
  [.fixed (lit "    \x7b\n") [.openBrace],
    .fixed (lit "      \"moduleType\": ") (keyTokens "moduleType"),
    .slot mod.moduleType (lit ",\n") [.comma],
    .fixed (lit "      \"moduleRefIndex\": ") (keyTokens "moduleRefIndex"),
    .number mod.moduleRefIndex (lit ",\n") [.comma],
    .fixed (lit "      \"serviceModuleType\": ") (keyTokens "serviceModuleType"),
    .slot mod.serviceModuleType (lit ",\n") [.comma],
    .fixed (lit "      \"present\": ") (keyTokens "present"),
    .number (if modulePresent mod then 1 else 0) (lit "\n    \x7d") [.closeBrace]]

/-- The modules of the list. -/
def modulesParts : List MsModule → List Part
  | [] => []
  | mod :: rest =>
    moduleParts mod ++ rest.flatMap fun mod => .fixed (lit ",\n") [.comma] :: moduleParts mod

/-- The list. -/
def listParts (mods : List MsModule) : List Part :=
  [.fixed (lit "\x7b\n  \"modules\": [\n") (.openBrace :: (keyTokens "modules" ++ [.openBracket]))] ++
  modulesParts mods ++
  [.fixed (lit "\n  ]\n\x7d\n") [.closeBracket, .closeBrace]]

/-- INTERNAL: a module is printed by its template. -/
theorem render_moduleParts (mod : MsModule) : render (moduleParts mod) = moduleText mod := by
  have hpresent : lit (if modulePresent mod then "1" else "0") ++ (lit "\n" ++ lit "    \x7d") =
      fmtD (if modulePresent mod then 1 else 0) ++ lit "\n    \x7d" := by
    cases modulePresent mod with
    | true => decide +kernel
    | false => decide +kernel
  unfold render moduleParts moduleText
  simp only [List.flatMap_cons, List.flatMap_nil]
  unfold Part.text
  dsimp only
  simp only [List.append_nil, List.append_assoc, hpresent]

/-- INTERNAL: so are modules, with commas between. -/
theorem render_modulesParts (mod : MsModule) (rest : List MsModule) :
    render (modulesParts (mod :: rest)) =
      moduleText mod ++ rest.flatMap fun mod => lit ",\n" ++ moduleText mod := by
  have hrest : render (rest.flatMap fun mod => .fixed (lit ",\n") [.comma] :: moduleParts mod) =
      rest.flatMap fun mod => lit ",\n" ++ moduleText mod := by
    induction rest with
    | nil => rfl
    | cons mod' rest ih =>
      rw [List.flatMap_cons, List.flatMap_cons, render_append, ih, render_cons, render_moduleParts]
      rfl
  unfold modulesParts
  rw [render_append, render_moduleParts, hrest]

/-- INTERNAL: **the template** prints the module list. -/
theorem render_listParts (pf : MsProfile) :
    render (listParts pf.modules) = buildModulesList pf := by
  unfold listParts buildModulesList
  rw [render_append, render_append]
  cases pf.modules with
  | nil => rfl
  | cons mod rest =>
    rw [render_modulesParts]
    simp [render, Part.text]

/-! ## Soundness of the parts -/

/-- INTERNAL: the template of a module is sound. -/
theorem moduleParts_sound (mod : MsModule) (hindex : FitsInt64 mod.moduleRefIndex) :
    ∀ p ∈ moduleParts mod, p.Sound := by
  intro p hp
  simp only [moduleParts, List.mem_cons, List.not_mem_nil, or_false] at hp
  rcases hp with rfl | rfl | rfl | rfl | rfl | rfl | rfl | rfl | rfl
  · exact sound_fixed _ _ (by decide +kernel)
  · exact sound_fixed _ _ (by decide +kernel)
  · exact comma_newline_slot _
  · exact sound_fixed _ _ (by decide +kernel)
  · exact comma_newline_number _ hindex
  · exact sound_fixed _ _ (by decide +kernel)
  · exact comma_newline_slot _
  · exact sound_fixed _ _ (by decide +kernel)
  · apply sound_number
    · split <;> decide
    · decide +kernel

/-- INTERNAL: a part of the modules is a comma between two or a part of one. -/
theorem mem_modulesParts (mods : List MsModule) (p : Part) (hp : p ∈ modulesParts mods) :
    p = .fixed (lit ",\n") [.comma] ∨ ∃ mod ∈ mods, p ∈ moduleParts mod := by
  cases mods with
  | nil => simp [modulesParts] at hp
  | cons mod rest =>
    unfold modulesParts at hp
    rw [List.mem_append, List.mem_flatMap] at hp
    rcases hp with hp | ⟨mod', hmod', hp⟩
    · exact Or.inr ⟨mod, by simp, hp⟩
    · rcases List.mem_cons.mp hp with rfl | hp
      · exact Or.inl rfl
      · exact Or.inr ⟨mod', by simp [hmod'], hp⟩

/-- INTERNAL: so is that of the list. -/
theorem listParts_sound (mods : List MsModule) (h : ∀ mod ∈ mods, FitsInt64 mod.moduleRefIndex) :
    ∀ p ∈ listParts mods, p.Sound := by
  intro p hp
  unfold listParts at hp
  rw [List.mem_append, List.mem_append] at hp
  rcases hp with (hp | hp) | hp
  · rw [List.mem_singleton.mp hp]
    exact sound_fixed _ _ (by decide +kernel)
  · rcases mem_modulesParts mods p hp with rfl | ⟨mod, hmod, hp⟩
    · exact sound_fixed _ _ (by decide +kernel)
    · exact moduleParts_sound mod (h mod hmod) p hp
  · rw [List.mem_singleton.mp hp]
    exact sound_fixed _ _ (by decide +kernel)

/-- INTERNAL: what stands between quotes is a type of a module. -/
theorem slots_listParts (mods : List MsModule) (s : CStr) (hs : s ∈ Part.slots (listParts mods)) :
    ∃ mod ∈ mods, s = mod.moduleType ∨ s = mod.serviceModuleType := by
  obtain ⟨p, hp, hslot⟩ := List.mem_filterMap.mp hs
  unfold listParts at hp
  rw [List.mem_append, List.mem_append] at hp
  rcases hp with (hp | hp) | hp
  · rw [List.mem_singleton.mp hp] at hslot
    cases hslot
  · rcases mem_modulesParts mods p hp with rfl | ⟨mod, hmod, hp⟩
    · cases hslot
    · refine ⟨mod, hmod, ?_⟩
      simp only [moduleParts, List.mem_cons, List.not_mem_nil, or_false] at hp
      rcases hp with rfl | rfl | rfl | rfl | rfl | rfl | rfl | rfl | rfl
      · cases hslot
      · cases hslot
      · exact Or.inl (Option.some.inj hslot).symm
      · cases hslot
      · cases hslot
      · cases hslot
      · exact Or.inr (Option.some.inj hslot).symm
      · cases hslot
      · cases hslot
  · rw [List.mem_singleton.mp hp] at hslot
    cases hslot

/-! ## The document -/

/-- The members of a module of the list. -/
def moduleMembers (mod : MsModule) : List Member :=
  [⟨lit "moduleType", [.string (slotValue mod.moduleType)], .string (slotValue mod.moduleType)⟩,
    ⟨lit "moduleRefIndex", [.integer mod.moduleRefIndex], .integer mod.moduleRefIndex⟩,
    ⟨lit "serviceModuleType", [.string (slotValue mod.serviceModuleType)],
      .string (slotValue mod.serviceModuleType)⟩,
    ⟨lit "present", [.integer (if modulePresent mod then 1 else 0)],
      .integer (if modulePresent mod then 1 else 0)⟩]

/-- The modules, as tokens and as values. -/
def moduleElements (mods : List MsModule) : List (List Token × Json) :=
  mods.map fun mod =>
    (.openBrace :: (membersTokens (moduleMembers mod) ++ [.closeBrace]),
      ofMembers (moduleMembers mod))

/-- The members of the list. -/
def listMembers (mods : List MsModule) : List Member :=
  [⟨lit "modules",
    .openBracket :: (elementsTokens ((moduleElements mods).map Prod.fst) ++ [.closeBracket]),
    .array ((moduleElements mods).map Prod.snd)⟩]

/-- INTERNAL: a module gives the tokens of its members. -/
theorem tokens_moduleParts (mod : MsModule) :
    (moduleParts mod).flatMap Part.tokens =
      .openBrace :: (membersTokens (moduleMembers mod) ++ [.closeBrace]) := by
  simp [moduleParts, Part.tokens, moduleMembers, membersTokens, keyTokens]

/-- INTERNAL: so do modules, one by one. -/
theorem tokens_modulesParts (mods : List MsModule) :
    (modulesParts mods).flatMap Part.tokens = elementsTokens (mods.map fun mod =>
      .openBrace :: (membersTokens (moduleMembers mod) ++ [.closeBrace])) := by
  cases mods with
  | nil => rfl
  | cons mod rest =>
    unfold modulesParts
    rw [List.flatMap_append, tokens_moduleParts]
    induction rest generalizing mod with
    | nil => simp [elementsTokens]
    | cons mod' rest ih =>
      have hrest := ih mod'
      rw [List.map_cons] at hrest
      rw [List.flatMap_cons, List.flatMap_append, List.flatMap_cons, tokens_moduleParts,
        List.map_cons, List.map_cons, elementsTokens, ← hrest]
      simp [Part.tokens]

/-- INTERNAL: so does the list. -/
theorem tokens_listParts (mods : List MsModule) :
    (listParts mods).flatMap Part.tokens =
      .openBrace :: (membersTokens (listMembers mods) ++ [.closeBrace]) := by
  have helements : (moduleElements mods).map Prod.fst = mods.map fun mod =>
      .openBrace :: (membersTokens (moduleMembers mod) ++ [.closeBrace]) := by
    unfold moduleElements
    rw [List.map_map]
    rfl
  unfold listParts
  rw [List.flatMap_append, List.flatMap_append, tokens_modulesParts]
  simp [Part.tokens, listMembers, helements, membersTokens, keyTokens]

/-- INTERNAL: the modules are read as their values. -/
theorem reads_moduleElements (mods : List MsModule) (depth : ℕ) :
    ∀ e ∈ moduleElements mods, Reads (depth + 2) e.1 e.2 := by
  intro e he
  obtain ⟨mod, -, rfl⟩ := List.mem_map.mp he
  apply reads_object
  intro m hm
  simp only [moduleMembers, List.mem_cons, List.not_mem_nil, or_false] at hm
  rcases hm with rfl | rfl | rfl | rfl
  · exact reads_string _ _
  · exact reads_integer _ _
  · exact reads_string _ _
  · exact reads_integer _ _

/-- INTERNAL: so is the list. -/
theorem reads_list (mods : List MsModule) (depth : ℕ) :
    Reads (depth + 4) (.openBrace :: (membersTokens (listMembers mods) ++ [.closeBrace]))
      (ofMembers (listMembers mods)) := by
  apply reads_object
  intro m hm
  rw [List.mem_singleton.mp hm]
  exact reads_array _ _ (reads_moduleElements mods depth)

/-- What the client can tell of a module goes through the list: its types are plain texts, and
its index is a `uint32_t`. -/
structure ListedPlain (mod : MsModule) : Prop where
  moduleType : Plain mod.moduleType
  serviceModuleType : Plain mod.serviceModuleType
  moduleRefIndex : 0 ≤ mod.moduleRefIndex ∧ mod.moduleRefIndex < 2 ^ 32

/-- INTERNAL: **the module list** is read as its document. -/
theorem loads_buildModulesList (pf : MsProfile) (h : ∀ mod ∈ pf.modules, ListedPlain mod) :
    loads (buildModulesList pf) = some (ofMembers (listMembers pf.modules)) := by
  have hsound := listParts_sound pf.modules fun mod hmod => by
    obtain ⟨hlo, hhi⟩ := (h mod hmod).moduleRefIndex
    unfold FitsInt64
    omega
  have hslots : ∀ s ∈ Part.slots (listParts pf.modules), Plain s := by
    intro s hs
    obtain ⟨mod, hmod, rfl | rfl⟩ := slots_listParts _ s hs
    · exact (h mod hmod).moduleType
    · exact (h mod hmod).serviceModuleType
  have htokens := tokens_render _ hsound fun s hs => (hslots s hs).1.wellQuoted
  have hutf8 := utf8CheckString_render _ hsound
  rw [List.all_eq_true.mpr fun s hs => (hslots s hs).2] at hutf8
  rw [tokens_listParts] at htokens
  rw [render_listParts] at htokens hutf8
  exact loads_of_reads _ _ _ hutf8 htokens (reads_list pf.modules 2044)

/-! ## What the client reads -/

/-- The entry that the client keeps of a module. -/
def listedEntry (mod : MsModule) : HesModuleEntry where
  moduleType := mod.moduleType
  moduleRefIndex := mod.moduleRefIndex.toNat
  serviceModuleType := mod.serviceModuleType
  present := modulePresent mod

/-- INTERNAL: an index in range is read as it is. -/
theorem jsonU32Field_natural (o : Json) (key : CStr) (n : ℤ) (h : o.get key = some (.integer n))
    (hlo : 0 ≤ n) (hhi : n < 2 ^ 32) : jsonU32Field o key = n.toNat := by
  unfold jsonU32Field jsonNumberField
  rw [h]
  dsimp only
  by_cases hzero : n = 0
  · subst hzero
    rw [if_neg (by decide +kernel)]
    rfl
  · rw [if_pos (Binary64.lt_zero_ofInt n (by omega) (by omega)),
      Binary64.toLong_ofInt n (by omega)]
    unfold toUInt32
    omega

/-- INTERNAL: a bit is read as its flag. -/
theorem jsonFlagField_bit (o : Json) (key : CStr) (b : Bool)
    (h : o.get key = some (.integer (if b then 1 else 0))) : jsonFlagField o key = b := by
  unfold jsonFlagField jsonNumberField
  rw [h]
  cases b with
  | true => decide +kernel
  | false => decide +kernel

/-- INTERNAL: **an entry** of the list is read as the module that it prints. -/
theorem parseModuleEntry_members (mod : MsModule) (h : ListedPlain mod)
    (htype : mod.moduleType.length < 8) (hservice : mod.serviceModuleType.length < 8) :
    parseModuleEntry (ofMembers (moduleMembers mod)) = listedEntry mod := by
  have hnodup : ((moduleMembers mod).map Member.key).Nodup := by
    show [lit "moduleType", lit "moduleRefIndex", lit "serviceModuleType", lit "present"].Nodup
    decide +kernel
  have htext : ∀ key s, ⟨key, [.string (slotValue s)], .string (slotValue s)⟩ ∈ moduleMembers mod →
      Plain s → s.length < 8 → jsonStrField (ofMembers (moduleMembers mod)) key 8 = s := by
    intro key s hm hplain hlen
    unfold jsonStrField
    rw [getString_ofMembers _ hnodup key _ _ hm, Option.map_some, Option.getD_some,
      boundedCopy_slotValue 8 s hplain hlen]
  have hindex := jsonU32Field_natural _ _ mod.moduleRefIndex
    (get_ofMembers _ hnodup
      ⟨lit "moduleRefIndex", [.integer mod.moduleRefIndex], .integer mod.moduleRefIndex⟩
      (by simp [moduleMembers]))
    h.moduleRefIndex.1 h.moduleRefIndex.2
  have hpresent := jsonFlagField_bit _ _ (modulePresent mod)
    (get_ofMembers _ hnodup ⟨lit "present", [.integer (if modulePresent mod then 1 else 0)],
      .integer (if modulePresent mod then 1 else 0)⟩ (by simp [moduleMembers]))
  unfold parseModuleEntry listedEntry
  rw [htext _ mod.moduleType (by simp [moduleMembers]) h.moduleType htype,
    htext _ mod.serviceModuleType (by simp [moduleMembers]) h.serviceModuleType hservice,
    hindex, hpresent]

/-! ## The sizes -/

/-- What the arrays of the service hold of a module in the list. -/
structure ListedShort (mod : MsModule) : Prop where
  moduleType : mod.moduleType.length < 8
  serviceModuleType : mod.serviceModuleType.length < 8
  moduleRefIndex : FitsInt64 mod.moduleRefIndex

/-- INTERNAL: a module takes 200 bytes at most. -/
theorem moduleText_length (mod : MsModule) (h : ListedShort mod) :
    (moduleText mod).length ≤ 200 := by
  have htype := h.moduleType
  have hservice := h.serviceModuleType
  have hindex := fmtD_length _ h.moduleRefIndex
  have hbit : (lit (if modulePresent mod then "1" else "0")).length = 1 := by
    cases modulePresent mod with
    | true => decide +kernel
    | false => decide +kernel
  have h1 : (lit "    \x7b\n").length = 6 := by decide +kernel
  have h2 : (lit "      \"moduleType\": ").length = 20 := by decide +kernel
  have h3 : (lit ",\n").length = 2 := by decide +kernel
  have h4 : (lit "      \"moduleRefIndex\": ").length = 24 := by decide +kernel
  have h5 : (lit "      \"serviceModuleType\": ").length = 27 := by decide +kernel
  have h6 : (lit "      \"present\": ").length = 17 := by decide +kernel
  have h7 : (lit "\n").length = 1 := by decide +kernel
  have h8 : (lit "    \x7d").length = 5 := by decide +kernel
  unfold moduleText
  simp only [List.length_append, quote_length, h1, h2, h3, h4, h5, h6, h7, h8, hbit]
  omega

/-- INTERNAL: **the module list** fits the buffer of a reply. -/
theorem buildModulesList_length (pf : MsProfile) (hcount : pf.modules.length ≤ msMaxModules)
    (h : ∀ mod ∈ pf.modules, ListedShort mod) :
    (buildModulesList pf).length < hesMregReplyMax := by
  have h1 : (lit "\x7b\n  \"modules\": [\n").length = 17 := by decide +kernel
  have h2 : (lit "\n  ]\n\x7d\n").length = 7 := by decide +kernel
  have h3 : (lit ",\n").length = 2 := by decide +kernel
  unfold msMaxModules at hcount
  unfold buildModulesList hesMregReplyMax
  cases hmods : pf.modules with
  | nil => decide +kernel
  | cons mod rest =>
    rw [hmods] at h hcount
    have hmod := moduleText_length mod (h mod List.mem_cons_self)
    have hrest := length_flatMap_le (fun mod => lit ",\n" ++ moduleText mod) rest 202 (by
      intro mod' hmod'
      have := moduleText_length mod' (h mod' (List.mem_cons_of_mem _ hmod'))
      rw [List.length_append]
      omega)
    rw [List.length_cons] at hcount
    simp only [List.length_append, h1, h2]
    omega

/-! ## The round trip -/

/-- INTERNAL: **the list that the service prints** is the list that the client reads. -/
theorem hesMregQueryModules_list (pf : MsProfile) (hcount : pf.modules.length ≤ msMaxModules)
    (hshort : ∀ mod ∈ pf.modules, ListedShort mod) (h : ∀ mod ∈ pf.modules, ListedPlain mod) :
    hesMregQueryModules (some (buildModulesList pf)) = some (pf.modules.map listedEntry) := by
  have hnul : ∀ c ∈ buildModulesList pf, c ≠ 0 := by
    rw [← render_listParts]
    apply render_no_nul _ (listParts_sound _ fun mod hmod => (hshort mod hmod).moduleRefIndex)
    intro s hs
    obtain ⟨mod, hmod, rfl | rfl⟩ := slots_listParts _ s hs
    · exact (h mod hmod).moduleType.1.ne_zero
    · exact (h mod hmod).serviceModuleType.1.ne_zero
  have harray : (ofMembers (listMembers pf.modules)).getArray (lit "modules") =
      some ((moduleElements pf.modules).map Prod.snd) :=
    getArray_ofMembers _ (by simp [listMembers]) (lit "modules") _ _ List.mem_cons_self
  unfold hesMregQueryModules
  rw [Option.bind_some, receivedText_whole _ _ (buildModulesList_length pf hcount hshort) hnul,
    loads_buildModulesList pf h, Option.bind_some, harray, Option.map_some]
  congr 1
  have hobjects : ((moduleElements pf.modules).map Prod.snd).filter isObject =
      pf.modules.map fun mod => ofMembers (moduleMembers mod) := by
    unfold moduleElements
    rw [List.map_map, List.filter_eq_self.mpr]
    · rfl
    · intro o ho
      obtain ⟨mod, -, rfl⟩ := List.mem_map.mp ho
      rfl
  rw [hobjects, List.take_of_length_le, List.map_map]
  · apply List.map_congr_left
    intro mod hmod
    exact parseModuleEntry_members mod (h mod hmod) (hshort mod hmod).moduleType
      (hshort mod hmod).serviceModuleType
  · rw [List.length_map]
    unfold msMaxModules at hcount
    unfold hesModulesMax
    omega

end OpenHes.Analysis
