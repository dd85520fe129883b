import OpenHes.Analysis.SliceRoundTrip
import OpenHes.Model.ReportBuffer

/-!
# The texts of a client's requests

The report and the query that a client prints, as templates: what they are read as where
their texts need no escapes, and that the buffers on the way hold them and the slice.
-/

set_option autoImplicit false

namespace OpenHes.Analysis

open OpenHes.Library OpenHes.Library.Json OpenHes.Model

/-! ## The templates -/

/-- The start of a request, up to the index of the module. -/
def headParts (cmd : String) (m : HesMreg) : List Part :=
  [.fixed (lit "\x7b\"cmd\":\"" ++ lit cmd ++ lit "\",\"moduleType\":")
      (.openBrace :: keyTokens "cmd" ++ [.string (lit cmd), .comma] ++ keyTokens "moduleType"),
    .slot m.moduleType (lit ",\"moduleRefIndex\":") (.comma :: keyTokens "moduleRefIndex")]

/-- The request of `hes_mreg_query`. -/
def queryParts (m : HesMreg) : List Part :=
  headParts "query" m ++ [.number m.moduleRefIndex (lit "\x7d") [.closeBrace]]

/-- The number that the flag is printed as. -/
def flagNumber (b : Bool) : ℤ := if b then 1 else 0

/-- One device of a report. -/
def entryParts (d : HesDevice) : List Part :=
  [.fixed (lit "\x7b\"deviceIndex\":") (.openBrace :: keyTokens "deviceIndex"),
    .number d.deviceIndex (lit ",\"netRefIndex\":") (.comma :: keyTokens "netRefIndex"),
    .number d.netRefIndex (lit ",\"address\":") (.comma :: keyTokens "address"),
    .slot d.address (lit ",\"udpPort\":") (.comma :: keyTokens "udpPort"),
    .number d.udpPort (lit ",\"online\":") (.comma :: keyTokens "online"),
    .number (flagNumber d.online) (lit "\x7d") [.closeBrace]]

/-- The devices of a report. -/
def entriesParts : List HesDevice → List Part
  | [] => []
  | d :: rest => entryParts d ++ rest.flatMap fun d => .fixed (lit ",") [.comma] :: entryParts d

/-- The request of `hes_mreg_report`. -/
def reportParts (m : HesMreg) (devices : List HesDevice) : List Part :=
  headParts "report" m ++
    [.number m.moduleRefIndex (lit ",\"devices\":[")
      (.comma :: keyTokens "devices" ++ [.openBracket])] ++
    entriesParts devices ++ [.fixed (lit "]\x7d") [.closeBracket, .closeBrace]]

/-- INTERNAL: the parts of a query print it. -/
theorem render_queryParts (m : HesMreg) :
    boundedCopy hesMregReqMax (render (queryParts m)) = queryRequest m := by
  have hhead : lit "\x7b\"cmd\":\"" ++ lit "query" ++ lit "\",\"moduleType\":" =
      lit "\x7b\"cmd\":\"query\",\"moduleType\":" := by decide +kernel
  unfold queryParts headParts queryRequest
  rw [hhead]
  unfold render
  simp only [List.flatMap_cons, List.flatMap_nil, List.cons_append, List.nil_append]
  unfold Part.text
  dsimp only
  simp only [List.append_nil, List.append_assoc]

/-- INTERNAL: those of an entry print it. -/
theorem render_entryParts (d : HesDevice) : render (entryParts d) = reportEntry d := by
  have hflag : lit ",\"online\":" ++ (fmtD (flagNumber d.online) ++ lit "\x7d") =
      lit (if d.online then ",\"online\":1\x7d" else ",\"online\":0\x7d") := by
    cases d.online with
    | true => decide +kernel
    | false => decide +kernel
  unfold entryParts reportEntry
  rw [← hflag]
  unfold render
  simp only [List.flatMap_cons, List.flatMap_nil]
  unfold Part.text
  dsimp only
  simp only [List.append_nil, List.append_assoc]

/-- INTERNAL: those of the entries print them. -/
theorem render_entriesParts (devices : List HesDevice) :
    render (entriesParts devices) = reportEntries devices := by
  cases devices with
  | nil => rfl
  | cons d rest =>
    have hrest : render (rest.flatMap fun d => .fixed (lit ",") [.comma] :: entryParts d) =
        rest.flatMap fun d => lit "," ++ reportEntry d := by
      induction rest with
      | nil => rfl
      | cons d' rest ih =>
        rw [List.flatMap_cons, List.flatMap_cons, render_append, ih, render_cons,
          render_entryParts]
        rfl
    unfold entriesParts reportEntries
    rw [render_append, render_entryParts, hrest]

/-- INTERNAL: **a report** is what the formats of its client make one behind the other. -/
theorem render_report (m : HesMreg) (devices : List HesDevice) :
    render (reportParts m devices) =
      reportHead m ++ reportEntries devices ++ lit "]\x7d" := by
  have hhead : lit "\x7b\"cmd\":\"" ++ lit "report" ++ lit "\",\"moduleType\":" =
      lit "\x7b\"cmd\":\"report\",\"moduleType\":" := by decide +kernel
  unfold reportParts headParts reportHead
  rw [hhead, render_append, render_append, render_entriesParts]
  unfold render
  simp only [List.flatMap_cons, List.flatMap_nil, List.cons_append, List.nil_append]
  unfold Part.text
  dsimp only
  simp only [List.append_nil, List.append_assoc]

/-- INTERNAL: those of a report print it. -/
theorem render_reportParts (m : HesMreg) (reg : HesDevreg) :
    boundedCopy hesMregReqMax (render (reportParts m reg.devices)) = reportRequest m reg := by
  rw [render_report]
  rfl

/-! ## Soundness -/

/-- The numbers of a report fit their C types. -/
structure FitsClient (m : HesMreg) (devices : List HesDevice) : Prop where
  moduleRefIndex : m.moduleRefIndex < 2 ^ 32
  deviceIndex : ∀ d ∈ devices, d.deviceIndex < 2 ^ 32
  netRefIndex : ∀ d ∈ devices, d.netRefIndex < 2 ^ 32
  udpPort : ∀ d ∈ devices, FitsInt32 d.udpPort

/-- INTERNAL: an index fits 64 bits. -/
theorem fitsInt64_of_index (n : ℕ) (h : n < 2 ^ 32) : FitsInt64 (n : ℤ) :=
  ⟨by omega, by omega⟩

/-- INTERNAL: the parts of the front are sound. -/
theorem headParts_sound (cmd : String) (hcmd : cmd = "query" ∨ cmd = "report") (m : HesMreg) :
    ∀ p ∈ headParts cmd m, p.Sound := by
  intro p hp
  unfold headParts at hp
  simp only [List.mem_cons, List.not_mem_nil, or_false] at hp
  rcases hp with rfl | rfl
  · rcases hcmd with rfl | rfl
    · exact sound_fixed _ _ (by decide +kernel)
    · exact sound_fixed _ _ (by decide +kernel)
  · exact sound_slot _ _ _ (by decide +kernel)

/-- INTERNAL: those of a query are. -/
theorem queryParts_sound (m : HesMreg) (h : m.moduleRefIndex < 2 ^ 32) :
    ∀ p ∈ queryParts m, p.Sound := by
  intro p hp
  unfold queryParts at hp
  rcases List.mem_append.mp hp with hp | hp
  · exact headParts_sound "query" (Or.inl rfl) m p hp
  · rw [List.mem_singleton.mp hp]
    exact sound_number _ _ _ (fitsInt64_of_index _ h) (by decide +kernel)

/-- INTERNAL: those of an entry whose numbers fit are. -/
theorem entryParts_sound (d : HesDevice) (hindex : d.deviceIndex < 2 ^ 32)
    (hnet : d.netRefIndex < 2 ^ 32) (hport : FitsInt32 d.udpPort) :
    ∀ p ∈ entryParts d, p.Sound := by
  intro p hp
  unfold entryParts at hp
  simp only [List.mem_cons, List.not_mem_nil, or_false] at hp
  rcases hp with rfl | rfl | rfl | rfl | rfl | rfl
  · exact sound_fixed _ _ (by decide +kernel)
  · exact sound_number _ _ _ (fitsInt64_of_index _ hindex) (by decide +kernel)
  · exact sound_number _ _ _ (fitsInt64_of_index _ hnet) (by decide +kernel)
  · exact sound_slot _ _ _ (by decide +kernel)
  · exact sound_number _ _ _ (fitsInt64_of_fitsInt32 _ hport) (by decide +kernel)
  · refine sound_number _ _ _ ?_ (by decide +kernel)
    unfold flagNumber
    split
    · decide
    · decide

/-- INTERNAL: a part of the devices is a comma between two or a part of one. -/
theorem mem_entriesParts (devices : List HesDevice) (p : Part) (hp : p ∈ entriesParts devices) :
    p = .fixed (lit ",") [.comma] ∨ ∃ d ∈ devices, p ∈ entryParts d := by
  cases devices with
  | nil => cases hp
  | cons d rest =>
    unfold entriesParts at hp
    rw [List.mem_append, List.mem_flatMap] at hp
    rcases hp with hp | ⟨d', hd', hp⟩
    · exact Or.inr ⟨d, List.mem_cons_self, hp⟩
    · rcases List.mem_cons.mp hp with rfl | hp
      · exact Or.inl rfl
      · exact Or.inr ⟨d', List.mem_cons_of_mem _ hd', hp⟩

/-- INTERNAL: those of a report are. -/
theorem reportParts_sound (m : HesMreg) (devices : List HesDevice) (h : FitsClient m devices) :
    ∀ p ∈ reportParts m devices, p.Sound := by
  intro p hp
  unfold reportParts at hp
  rw [List.mem_append, List.mem_append, List.mem_append] at hp
  rcases hp with ((hp | hp) | hp) | hp
  · exact headParts_sound "report" (Or.inr rfl) m p hp
  · rw [List.mem_singleton.mp hp]
    exact sound_number _ _ _ (fitsInt64_of_index _ h.moduleRefIndex) (by decide +kernel)
  · rcases mem_entriesParts devices p hp with rfl | ⟨d, hd, hp⟩
    · exact sound_fixed _ _ (by decide +kernel)
    · exact entryParts_sound d (h.deviceIndex d hd) (h.netRefIndex d hd) (h.udpPort d hd) p hp
  · rw [List.mem_singleton.mp hp]
    exact sound_fixed _ _ (by decide +kernel)

/-- INTERNAL: the names of a report need no escapes. -/
theorem reportParts_names (m : HesMreg) (devices : List HesDevice) (p : Part)
    (hp : p ∈ reportParts m devices) (v : CStr) (hv : .string v ∈ p.afterTokens) :
    Unquoted v := by
  unfold reportParts headParts at hp
  rw [List.mem_append, List.mem_append, List.mem_append] at hp
  rcases hp with ((hp | hp) | hp) | hp
  · simp only [List.mem_cons, List.not_mem_nil, or_false] at hp
    rcases hp with rfl | rfl <;>
      (unfold Part.afterTokens at hv
       dsimp only at hv
       exact plain_tokens _ (by decide +kernel) v hv)
  · rw [List.mem_singleton.mp hp] at hv
    exact plain_tokens (.comma :: keyTokens "devices" ++ [.openBracket]) (by decide +kernel) v hv
  · rcases mem_entriesParts devices p hp with rfl | ⟨d, -, hp⟩
    · exact plain_tokens [.comma] (by decide) v hv
    · unfold entryParts at hp
      simp only [List.mem_cons, List.not_mem_nil, or_false] at hp
      rcases hp with rfl | rfl | rfl | rfl | rfl | rfl <;>
        (unfold Part.afterTokens at hv
         dsimp only at hv
         exact plain_tokens _ (by decide +kernel) v hv)
  · rw [List.mem_singleton.mp hp] at hv
    exact plain_tokens [.closeBracket, .closeBrace] (by decide) v hv

/-- INTERNAL: **the texts between the quotes** of a report. -/
theorem slots_reportParts (m : HesMreg) (devices : List HesDevice) :
    Part.slots (reportParts m devices) = m.moduleType :: devices.map HesDevice.address := by
  have hentries : Part.slots (entriesParts devices) = devices.map HesDevice.address := by
    have hrest : ∀ rest : List HesDevice,
        Part.slots (rest.flatMap fun d => .fixed (lit ",") [.comma] :: entryParts d) =
          rest.map HesDevice.address := by
      intro rest
      induction rest with
      | nil => rfl
      | cons d rest ih =>
        rw [List.flatMap_cons, Part.slots_append, ih]
        rfl
    cases devices with
    | nil => rfl
    | cons d rest =>
      unfold entriesParts
      rw [Part.slots_append, hrest]
      rfl
  unfold reportParts
  rw [Part.slots_append, Part.slots_append, Part.slots_append, hentries]
  simp [Part.slots, headParts]

/-- INTERNAL: a query has one text, the type of the module. -/
theorem slots_queryParts (m : HesMreg) : Part.slots (queryParts m) = [m.moduleType] := rfl

/-! ## The documents -/

/-- The members in front of a request. -/
def headMembers (cmd : String) (m : HesMreg) : List Member :=
  [⟨lit "cmd", [.string (lit cmd)], .string (lit cmd)⟩,
    ⟨lit "moduleType", [.string (slotValue m.moduleType)], .string (slotValue m.moduleType)⟩,
    ⟨lit "moduleRefIndex", [.integer m.moduleRefIndex], .integer m.moduleRefIndex⟩]

/-- The members of one device of a report. -/
def entryMembers (d : HesDevice) : List Member :=
  [⟨lit "deviceIndex", [.integer d.deviceIndex], .integer d.deviceIndex⟩,
    ⟨lit "netRefIndex", [.integer d.netRefIndex], .integer d.netRefIndex⟩,
    ⟨lit "address", [.string (slotValue d.address)], .string (slotValue d.address)⟩,
    ⟨lit "udpPort", [.integer d.udpPort], .integer d.udpPort⟩,
    ⟨lit "online", [.integer (flagNumber d.online)], .integer (flagNumber d.online)⟩]

/-- The devices of a report, as tokens and as values. -/
def entryElements (devices : List HesDevice) : List (List Token × Json) :=
  devices.map fun d =>
    (.openBrace :: (membersTokens (entryMembers d) ++ [.closeBrace]), ofMembers (entryMembers d))

/-- The members of a report. -/
def reportMembers (m : HesMreg) (devices : List HesDevice) : List Member :=
  headMembers "report" m ++
    [⟨lit "devices",
      .openBracket :: (elementsTokens ((entryElements devices).map Prod.fst) ++ [.closeBracket]),
      .array ((entryElements devices).map Prod.snd)⟩]

/-- INTERNAL: an entry scans to its members between braces. -/
theorem tokens_entryParts (d : HesDevice) :
    (entryParts d).flatMap Part.tokens =
      .openBrace :: (membersTokens (entryMembers d) ++ [.closeBrace]) := by
  unfold entryParts
  simp [Part.tokens, entryMembers, membersTokens, keyTokens]

/-- INTERNAL: the entries scan to the elements of an array. -/
theorem tokens_entriesParts (devices : List HesDevice) :
    (entriesParts devices).flatMap Part.tokens =
      elementsTokens ((entryElements devices).map Prod.fst) := by
  cases devices with
  | nil => rfl
  | cons d rest =>
    unfold entriesParts entryElements
    rw [List.flatMap_append, tokens_entryParts]
    induction rest generalizing d with
    | nil => simp [elementsTokens]
    | cons d' rest ih =>
      have hrest := ih d'
      simp only [List.map_cons] at hrest ⊢
      rw [List.flatMap_cons, List.flatMap_append, List.flatMap_cons, tokens_entryParts,
        elementsTokens, ← hrest]
      simp [Part.tokens]

/-- INTERNAL: a report scans to its members between braces. -/
theorem tokens_reportParts (m : HesMreg) (devices : List HesDevice) :
    (reportParts m devices).flatMap Part.tokens =
      .openBrace :: (membersTokens (reportMembers m devices) ++ [.closeBrace]) := by
  unfold reportParts
  rw [List.flatMap_append, List.flatMap_append, List.flatMap_append, tokens_entriesParts]
  simp [headParts, Part.tokens, reportMembers, headMembers, membersTokens, keyTokens]

/-- INTERNAL: so does a query. -/
theorem tokens_queryParts (m : HesMreg) :
    (queryParts m).flatMap Part.tokens =
      .openBrace :: (membersTokens (headMembers "query" m) ++ [.closeBrace]) := by
  unfold queryParts headParts
  simp [Part.tokens, headMembers, membersTokens, keyTokens]

/-- INTERNAL: the tokens of each member of the front are read as it. -/
theorem reads_headMembers (cmd : String) (m : HesMreg) (depth : ℕ) :
    ∀ r ∈ headMembers cmd m, Reads (depth + 1) r.ts r.value := by
  intro r hr
  unfold headMembers at hr
  simp only [List.mem_cons, List.not_mem_nil, or_false] at hr
  rcases hr with rfl | rfl | rfl
  · exact reads_string _ _
  · exact reads_string _ _
  · exact reads_integer _ _

/-- INTERNAL: the tokens of each entry are read as it. -/
theorem reads_entryElements (devices : List HesDevice) (depth : ℕ) :
    ∀ e ∈ entryElements devices, Reads (depth + 2) e.1 e.2 := by
  intro e he
  unfold entryElements at he
  obtain ⟨d, -, rfl⟩ := List.mem_map.mp he
  apply reads_object
  intro r hr
  unfold entryMembers at hr
  simp only [List.mem_cons, List.not_mem_nil, or_false] at hr
  rcases hr with rfl | rfl | rfl | rfl | rfl
  · exact reads_integer _ _
  · exact reads_integer _ _
  · exact reads_string _ _
  · exact reads_integer _ _
  · exact reads_integer _ _

/-- INTERNAL: **a report** whose texts need no escapes is read as its document. -/
theorem loads_report (m : HesMreg) (devices : List HesDevice) (h : FitsClient m devices)
    (htype : Plain m.moduleType) (haddresses : ∀ d ∈ devices, Plain d.address) :
    loads (render (reportParts m devices)) = some (ofMembers (reportMembers m devices)) := by
  have hsound := reportParts_sound m devices h
  have hplain : ∀ s ∈ Part.slots (reportParts m devices), Plain s := by
    intro s hs
    rw [slots_reportParts] at hs
    rcases List.mem_cons.mp hs with rfl | hs
    · exact htype
    · obtain ⟨d, hd, rfl⟩ := List.mem_map.mp hs
      exact haddresses d hd
  have htokens := tokens_render _ hsound fun s hs => (hplain s hs).1.wellQuoted
  have hutf8 := utf8CheckString_render _ hsound
  rw [List.all_eq_true.mpr fun s hs => (hplain s hs).2] at hutf8
  rw [tokens_reportParts] at htokens
  refine loads_of_reads _ _ _ hutf8 htokens (reads_object 2047 _ ?_)
  intro r hr
  rcases List.mem_append.mp hr with hr | hr
  · exact reads_headMembers _ _ 2046 r hr
  · rw [List.mem_singleton.mp hr]
    exact reads_array _ _ (reads_entryElements devices 2044)

/-- INTERNAL: **the query** is read as its members. -/
theorem loads_query (m : HesMreg) (h : m.moduleRefIndex < 2 ^ 32) (htype : Plain m.moduleType) :
    loads (render (queryParts m)) = some (ofMembers (headMembers "query" m)) := by
  have hsound := queryParts_sound m h
  have hplain : ∀ s ∈ Part.slots (queryParts m), Plain s := by
    intro s hs
    rw [slots_queryParts, List.mem_singleton] at hs
    rw [hs]
    exact htype
  have htokens := tokens_render _ hsound fun s hs => (hplain s hs).1.wellQuoted
  have hutf8 := utf8CheckString_render _ hsound
  rw [List.all_eq_true.mpr fun s hs => (hplain s hs).2] at hutf8
  rw [tokens_queryParts] at htokens
  exact loads_of_reads _ _ _ hutf8 htokens (reads_object 2047 _ (reads_headMembers _ _ 2046))

/-! ## Lengths -/

/-- INTERNAL: texts of a bounded length are bounded together. -/
theorem length_flatMap_le {α : Type} (f : α → CStr) (entries : List α) (k : ℕ)
    (h : ∀ a ∈ entries, (f a).length ≤ k) : (entries.flatMap f).length ≤ entries.length * k := by
  induction entries with
  | nil => simp
  | cons a rest ih =>
    have ha := h a List.mem_cons_self
    have hrest := ih fun b hb => h b (List.mem_cons_of_mem _ hb)
    rw [List.flatMap_cons, List.length_append, List.length_cons, Nat.succ_mul]
    omega

/-- INTERNAL: the quotes are two bytes. -/
theorem quote_length (s : CStr) : (quote s).length = s.length + 2 := by
  unfold quote
  simp

/-- INTERNAL: an entry is at most 200 bytes. -/
theorem reportEntry_length (d : HesDevice) (hindex : d.deviceIndex < 2 ^ 32)
    (hnet : d.netRefIndex < 2 ^ 32) (hport : FitsInt32 d.udpPort) (haddress : d.address.length < 64) :
    (reportEntry d).length ≤ 200 := by
  have hn1 := fmtD_length _ (fitsInt64_of_index _ hindex)
  have hn2 := fmtD_length _ (fitsInt64_of_index _ hnet)
  have hn3 := fmtD_length _ (fitsInt64_of_fitsInt32 _ hport)
  have h1 : (lit "\x7b\"deviceIndex\":").length = 15 := by decide +kernel
  have h2 : (lit ",\"netRefIndex\":").length = 15 := by decide +kernel
  have h3 : (lit ",\"address\":").length = 11 := by decide +kernel
  have h4 : (lit ",\"udpPort\":").length = 11 := by decide +kernel
  have h5 : (lit (if d.online then ",\"online\":1\x7d" else ",\"online\":0\x7d")).length = 12 := by
    cases d.online with
    | true => decide +kernel
    | false => decide +kernel
  unfold reportEntry
  simp only [List.length_append, quote_length, h1, h2, h3, h4, h5]
  omega

/-- INTERNAL: so all are at most 201 bytes each, with their separators. -/
theorem reportEntries_length (devices : List HesDevice)
    (h : ∀ d ∈ devices, (reportEntry d).length ≤ 200) :
    (reportEntries devices).length ≤ devices.length * 201 := by
  cases devices with
  | nil => simp [reportEntries]
  | cons d rest =>
    have hd := h d List.mem_cons_self
    have hcomma : (lit ",").length = 1 := by decide +kernel
    have hrest := length_flatMap_le (fun d => lit "," ++ reportEntry d) rest 201 (by
      intro d' hd'
      have := h d' (List.mem_cons_of_mem _ hd')
      rw [List.length_append]
      omega)
    unfold reportEntries
    rw [List.length_append, List.length_cons, Nat.succ_mul]
    omega

/-- INTERNAL: **the request of a report** fits its buffer. -/
theorem report_length (m : HesMreg) (devices : List HesDevice) (hfits : FitsClient m devices)
    (htype : m.moduleType.length < 8) (hcount : devices.length ≤ hesDevregMaxDevices)
    (haddress : ∀ d ∈ devices, d.address.length < 64) :
    (render (reportParts m devices)).length < hesMregReqMax := by
  have hentries := reportEntries_length devices fun d hd =>
    reportEntry_length d (hfits.deviceIndex d hd) (hfits.netRefIndex d hd) (hfits.udpPort d hd)
      (haddress d hd)
  have hindex := fmtD_length _ (fitsInt64_of_index _ hfits.moduleRefIndex)
  have h1 : (lit "\x7b\"cmd\":\"").length = 8 := by decide +kernel
  have h2 : (lit "report").length = 6 := by decide +kernel
  have h3 : (lit "\",\"moduleType\":").length = 15 := by decide +kernel
  have h4 : (lit ",\"moduleRefIndex\":").length = 18 := by decide +kernel
  have h5 : (lit ",\"devices\":[").length = 12 := by decide +kernel
  have h6 : (lit "]\x7d").length = 2 := by decide +kernel
  unfold reportParts headParts
  rw [render_append, render_append, render_append, render_entriesParts]
  simp only [render, List.flatMap_cons, List.flatMap_nil, Part.text, List.length_append,
    quote_length, h1, h2, h3, h4, h5, h6, List.length_nil]
  unfold hesDevregMaxDevices at hcount
  unfold hesMregReqMax
  omega

/-- INTERNAL: a query fits the request. -/
theorem query_length (m : HesMreg) (h : m.moduleRefIndex < 2 ^ 32)
    (htype : m.moduleType.length < 8) : (render (queryParts m)).length < hesMregReqMax := by
  have hindex := fmtD_length _ (fitsInt64_of_index _ h)
  have h1 : (lit "\x7b\"cmd\":\"").length = 8 := by decide +kernel
  have h2 : (lit "query").length = 5 := by decide +kernel
  have h3 : (lit "\",\"moduleType\":").length = 15 := by decide +kernel
  have h4 : (lit ",\"moduleRefIndex\":").length = 18 := by decide +kernel
  have h5 : (lit "\x7d").length = 1 := by decide +kernel
  unfold queryParts headParts
  simp only [render, List.cons_append, List.nil_append, List.flatMap_cons, List.flatMap_nil,
    Part.text, List.length_append, quote_length, h1, h2, h3, h4, h5, List.length_nil]
  unfold hesMregReqMax
  omega

/-- INTERNAL: the lines of the objects are at most 300 bytes each. -/
theorem objectLines_length (obs : List MsObject)
    (h : ∀ ob ∈ obs, ob.path.length < msPath ∧ ob.access.length < 8) :
    (objectLines obs).length ≤ obs.length * 300 := by
  induction obs with
  | nil => simp [objectLines]
  | cons ob rest ih =>
    have hrest := ih fun o ho => h o (List.mem_cons_of_mem _ ho)
    obtain ⟨hpath, haccess⟩ := h ob List.mem_cons_self
    have h1 : (lit "        \x7b \"lexiconPath\": ").length = 25 := by decide +kernel
    have h2 : (lit ", \"access\": ").length = 12 := by decide +kernel
    have h3 : (lit (if rest.isEmpty then " \x7d\n" else " \x7d,\n")).length ≤ 4 := by
      cases rest.isEmpty with
      | true => decide +kernel
      | false => decide +kernel
    unfold objectLines objectLine
    simp only [List.length_append, List.length_cons, quote_length, h1, h2, Nat.succ_mul]
    unfold msPath at hpath
    omega

/-- INTERNAL: the text of a device is at most 3300 bytes. -/
theorem deviceText_length (mod : MsModule) (dev : MsDevprofile) (hmod : mod.networkType.length < 16)
    (h : DeviceFits dev) : (deviceText mod dev).length ≤ 3300 := by
  have hobjects := objectLines_length dev.objects fun ob hob => ⟨h.path ob hob, h.access ob hob⟩
  have hcount := h.objects
  have hn1 := fmtD_length _ h.deviceIndex
  have hn2 := fmtD_length _ h.netRefIndex
  have hn3 := fmtD_length _ (fitsInt64_of_fitsInt32 _ h.runtimeUdpPort)
  have hrole := h.role
  have hhardware := h.expectedHardware
  have haddress := h.runtimeAddress
  have hnetwork : (deviceNetwork mod dev).length < 16 := by
    unfold deviceNetwork
    split
    · exact hmod
    · exact h.networkType
  have hstatus : (deviceStatus dev).length ≤ 7 := by
    unfold deviceStatus
    split
    · split
      · decide +kernel
      · decide +kernel
    · decide +kernel
  have h1 : (lit "    \x7b\n").length = 6 := by decide +kernel
  have h2 : (lit "      \"deviceIndex\": ").length = 21 := by decide +kernel
  have h3 : (lit ",\n").length = 2 := by decide +kernel
  have h4 : (lit "      \"netRefIndex\": ").length = 21 := by decide +kernel
  have h5 : (lit "      \"deviceRole\": ").length = 20 := by decide +kernel
  have h6 : (lit "      \"expectedHardware\": ").length = 26 := by decide +kernel
  have h7 : (lit "      \"networkType\": ").length = 21 := by decide +kernel
  have h8 : (lit "      \"address\": ").length = 17 := by decide +kernel
  have h9 : (lit "      \"udpPort\": ").length = 17 := by decide +kernel
  have h10 : (lit "      \"status\": ").length = 16 := by decide +kernel
  have h11 : (lit "      \"objects\": [\n").length = 19 := by decide +kernel
  have h12 : (lit "      ]\n    \x7d").length = 13 := by decide +kernel
  unfold deviceText
  simp only [List.length_append, quote_length, h1, h2, h3, h4, h5, h6, h7, h8, h9, h10, h11, h12]
  unfold msMaxObjects at hcount
  unfold msPath at haddress
  omega

/-- INTERNAL: **the slice** fits the buffer of a reply, also behind an index. -/
theorem buildSlice_length (mod : MsModule) (h : ModuleFits mod) :
    (buildSlice mod).length + 20 < hesMregReplyMax := by
  have hdevices : (deviceTexts mod mod.devs).length ≤ mod.devs.length * 3302 := by
    have heach := h.each
    have hnetwork := h.networkType
    have h3 : (lit ",\n").length = 2 := by decide +kernel
    cases hdevs : mod.devs with
    | nil => simp [deviceTexts]
    | cons dev rest =>
      rw [hdevs] at heach
      have hdev := deviceText_length mod dev hnetwork (heach dev List.mem_cons_self)
      have hrest := length_flatMap_le (fun dev => lit ",\n" ++ deviceText mod dev) rest 3302 (by
        intro dev' hdev'
        have := deviceText_length mod dev' hnetwork (heach dev' (List.mem_cons_of_mem _ hdev'))
        rw [List.length_append]
        omega)
      unfold deviceTexts
      rw [List.length_append, List.length_cons, Nat.succ_mul]
      omega
  have hcount := h.devs
  have hindex := fmtD_length _ h.moduleRefIndex
  have htype := h.moduleType
  have hnetwork := h.networkType
  have h1 : (lit "\x7b\n").length = 2 := by decide +kernel
  have h2 : (lit "  \"gatewayId\": \"HES-GW-2026-99A1\",\n").length = 35 := by decide +kernel
  have h3 : (lit "  \"moduleType\": ").length = 16 := by decide +kernel
  have h4 : (lit ",\n").length = 2 := by decide +kernel
  have h5 : (lit "  \"moduleRefIndex\": ").length = 20 := by decide +kernel
  have h6 : (lit "  \"networkType\": ").length = 17 := by decide +kernel
  have h7 : (lit "  \"devices\": [\n").length = 15 := by decide +kernel
  have h8 : (lit "\n  ]\n\x7d\n").length = 7 := by decide +kernel
  unfold buildSlice
  simp only [List.length_append, quote_length, h1, h2, h3, h4, h5, h6, h7, h8]
  unfold msMaxDevices at hcount
  unfold hesMregReplyMax
  omega

/-! ## What is received -/

/-- INTERNAL: a text without a NUL that the buffer holds is received whole. -/
theorem receivedText_whole (size : ℕ) (text : CStr) (hlen : text.length < size)
    (hnul : ∀ c ∈ text, c ≠ 0) : receivedText size text = text := by
  unfold receivedText
  rw [List.take_of_length_le (by omega)]
  exact cString_of_no_nul text hnul

/-- INTERNAL: **the query** reaches the service whole. -/
theorem queryRequest_received (m : HesMreg) (h : m.moduleRefIndex < 2 ^ 32)
    (htype : m.moduleType.length < 8) (hnul : ∀ c ∈ m.moduleType, c ≠ 0) :
    receivedText msMaxReqBufSize (queryRequest m) = render (queryParts m) := by
  have hlen := query_length m h htype
  rw [← render_queryParts, boundedCopy_of_short _ _ hlen]
  apply receivedText_whole
  · unfold hesMregReqMax at hlen
    unfold msMaxReqBufSize
    omega
  · apply render_no_nul _ (queryParts_sound m h)
    intro s hs
    rw [slots_queryParts, List.mem_singleton] at hs
    rw [hs]
    exact hnul

/-- INTERNAL: **the report** reaches the service whole. -/
theorem reportRequest_received (m : HesMreg) (reg : HesDevreg) (h : FitsClient m reg.devices)
    (htype : m.moduleType.length < 8) (hcount : reg.devices.length ≤ hesDevregMaxDevices)
    (haddress : ∀ d ∈ reg.devices, d.address.length < 64) (hnul : ∀ c ∈ m.moduleType, c ≠ 0)
    (hnuls : ∀ d ∈ reg.devices, ∀ c ∈ d.address, c ≠ 0) :
    receivedText msMaxReqBufSize (reportRequest m reg) = render (reportParts m reg.devices) := by
  have hlen := report_length m reg.devices h htype hcount haddress
  rw [← render_reportParts, boundedCopy_of_short _ _ hlen]
  apply receivedText_whole
  · unfold hesMregReqMax at hlen
    unfold msMaxReqBufSize
    omega
  · apply render_no_nul _ (reportParts_sound m reg.devices h)
    intro s hs
    rw [slots_reportParts] at hs
    rcases List.mem_cons.mp hs with rfl | hs
    · exact hnul
    · obtain ⟨d, hd, rfl⟩ := List.mem_map.mp hs
      exact hnuls d hd

/-- INTERNAL: **the slice** reaches the client whole. -/
theorem buildSlice_received (mod : MsModule) (h : ModuleFits mod)
    (hnul : ∀ s ∈ Part.slots (sliceParts mod), ∀ c ∈ s, c ≠ 0) :
    receivedText hesMregReplyMax (buildSlice mod) = buildSlice mod := by
  have hlen := buildSlice_length mod h
  apply receivedText_whole _ _ (by omega)
  rw [← render_sliceParts]
  exact render_no_nul _ (sliceParts_sound mod (fitsNumbers_of_fits mod h)) hnul

end OpenHes.Analysis
