import OpenHes.Analysis.QueryPaths
import OpenHes.Library.SixDigits
import OpenHes.Model.GatewayDocument

/-!
# The loaded structures are the document's

`hes_gateway_load` asks for every field by a path. What it returns is read here off the tree
itself: every structure is the image of its element, and every list that of the children of
its name, in their order. The invariant of the loaders is that the path at hand leads to one
element, and that what is still to be appended to it fits the buffer.
-/

set_option autoImplicit false

namespace OpenHes.Analysis

open OpenHes.Library OpenHes.Library.Binary64 OpenHes.Library.Xml OpenHes.Model

/-! ## The image of a tree -/

/-- The text of an attribute of an element; empty where there is none. -/
def attrOf (name : CStr) (e : Node) : CStr :=
  (((e.attrsNamed name).head?.map .attribute).bind nodeText).getD []

/-- The text of an element. -/
def textOf (e : Node) : CStr := (nodeText (.node e)).getD []

/-- The text of the first child of a name; empty where there is none. -/
def childTextOf (name : CStr) (e : Node) : CStr :=
  (((e.childrenNamed name).head?.map .node).bind nodeText).getD []

/-- The attributes that the containers share. -/
def commonOf (purpose : Bool) (e : Node) : HesGwCommon where
  versionNumber := attrOf (lit "versionNumber") e
  addrPoint := attrOf (lit "addrPoint") e
  transCode := attrOf (lit "transCode") e
  descriptiveName := attrOf (lit "descriptiveName") e
  dataPurpose := if purpose then some (attrOf (lit "dataPurpose") e) else none

/-- A datum. -/
def dataOf (e : Node) : HesGwData where
  versionNumber := attrOf (lit "versionNumber") e
  addrPoint := attrOf (lit "addrPoint") e
  transCode := attrOf (lit "transCode") e
  descriptiveName := attrOf (lit "descriptiveName") e
  dataPurpose := attrOf (lit "dataPurpose") e
  dataFormat := attrOf (lit "dataFormat") e
  memoryType := attrOf (lit "memoryType") e
  storageType := attrOf (lit "storageType") e
  enumerated := attrOf (lit "enumerated") e
  description := attrOf (lit "description") e
  preassigned := attrOf (lit "preassigned") e
  value := textOf e

/-- The data children of an element. -/
def dataListOf (e : Node) : List HesGwData := (e.childrenNamed (lit "data")).map dataOf

/-- A group of inputs. -/
def inputsOf (e : Node) : HesGwInputs where
  common := commonOf true e
  data := dataListOf e

/-- A group of outputs. -/
def outputsOf (e : Node) : HesGwOutputs where
  common := commonOf true e
  data := dataListOf e

/-- A group of parameters. -/
def paramGroupOf (e : Node) : HesGwParamGroup where
  common := commonOf true e
  description := attrOf (lit "description") e
  data := dataListOf e

/-- An operation table. -/
def operationTableOf (e : Node) : HesGwOperationTable where
  common := commonOf true e
  data := dataListOf e
  inputs := (e.childrenNamed (lit "inputs")).map inputsOf
  inputParameters := (e.childrenNamed (lit "inputParameters")).map paramGroupOf
  outputParameters := (e.childrenNamed (lit "outputParameters")).map paramGroupOf
  outputs := (e.childrenNamed (lit "outputs")).map outputsOf

/-- An addressing table. -/
def addressingTableOf (e : Node) : HesGwAddressingTable where
  common := commonOf true e
  data := dataListOf e

/-- An object type. -/
def objectTypeOf (e : Node) : HesGwObjectType where
  common := commonOf false e
  data := dataListOf e
  operationTables := (e.childrenNamed (lit "operationTable")).map operationTableOf
  addressingTables := (e.childrenNamed (lit "addressingTable")).map addressingTableOf

/-- A lexicon type. -/
def lexiconTypeOf (e : Node) : HesGwLexiconType where
  common := commonOf false e
  objectTypes := (e.childrenNamed (lit "objectType")).map objectTypeOf

/-- The overall process. -/
def overallProcessOf (e : Node) : HesGwOverallProcess where
  common := commonOf false e
  lexiconTypes := (e.childrenNamed (lit "lexiconType")).map lexiconTypeOf

/-- The whole document, by its root element. -/
def gatewayOf (root : Node) : HesGateway where
  fileFormat := childTextOf (lit "fileFormat") root
  fileType := childTextOf (lit "fileType") root
  filePurpose := childTextOf (lit "filePurpose") root
  fileManu := childTextOf (lit "fileManu") root
  fileProduct := childTextOf (lit "fileProduct") root
  fileProductRefId := childTextOf (lit "fileProductRefID") root
  fileCoverage := childTextOf (lit "fileCoverage") root
  fileStatus := childTextOf (lit "fileStatus") root
  fileVersion := childTextOf (lit "fileVersion") root
  fileSummaryDescription := childTextOf (lit "fileSummaryDescription") root
  fileCreatedDescription := childTextOf (lit "fileCreatedDescription") root
  fileCreatedDate := childTextOf (lit "fileCreatedDate") root
  fileRevisionDescription := childTextOf (lit "fileRevisionDescription") root
  fileRevisionDate := childTextOf (lit "fileRevisionDate") root
  overallProcess := ((root.childrenNamed (lit "overallProcess")).map overallProcessOf).head?

/-! ## The path at hand -/

/-- The path leads to one element, and `room` more bytes fit behind it. -/
structure At (ctx : HesQueryCtx) (room : ℕ) (base : CStr) (e : Node) : Prop where
  leads : ∃ steps, IsBuilt ⟨steps, none⟩ ∧ base = dotted ⟨steps, none⟩ ∧
    selectSteps steps [ctx.doc.node] = [e]
  fits : base.length + room < pathBufferSize
  counted : e.Counted

/-- INTERNAL: an element that a path leads to with more room is led to with less. -/
theorem At.mono {ctx : HesQueryCtx} {room room' : ℕ} {base : CStr} {e : Node}
    (h : At ctx room base e) (hle : room' ≤ room) : At ctx room' base e :=
  ⟨h.leads, by have := h.fits; omega, h.counted⟩

/-- INTERNAL: a child's path adds its step behind a dot. -/
theorem dotted_child (steps : List Step) (s : Step) (hne : steps ≠ []) :
    dotted ⟨steps ++ [s], none⟩ = dotted ⟨steps, none⟩ ++ lit "." ++ dottedStep s := by
  have hsegs : steps.map dottedStep ≠ [] := fun h => hne (List.map_eq_nil_iff.mp h)
  unfold dotted dottedSegments
  simp only [List.map_append, List.map_cons, List.map_nil, Option.map_none, Option.toList_none,
    List.append_nil]
  exact intercalate_concat _ _ _ hsegs

/-- INTERNAL: an attribute's path adds its name behind a dot and an '@'. -/
theorem dotted_attr (steps : List Step) (name : CStr) (hne : steps ≠ []) :
    dotted ⟨steps, some name⟩ = dotted ⟨steps, none⟩ ++ lit ".@" ++ name := by
  have hsegs : steps.map dottedStep ≠ [] := fun h => hne (List.map_eq_nil_iff.mp h)
  unfold dotted dottedSegments
  simp only [Option.map_some, Option.map_none, Option.toList_some, Option.toList_none,
    List.append_nil]
  rw [intercalate_concat _ _ _ hsegs, show lit ".@" = lit "." ++ [64] from rfl]
  simp only [List.append_assoc, List.singleton_append]

/-- INTERNAL: a built path stays one with a step more. -/
theorem IsBuilt.child {steps : List Step} (h : IsBuilt ⟨steps, none⟩) (s : Step)
    (hname : Plain s.name) (hidx : ∀ i ∈ s.index, i < 2 ^ 31) : IsBuilt ⟨steps ++ [s], none⟩ where
  nonempty := by simp
  steps := by
    intro t ht
    rcases List.mem_append.mp ht with ht | ht
    · exact h.steps t ht
    · obtain rfl := List.mem_singleton.mp ht
      exact hname
  attr := by simp
  counted := by
    intro t ht
    rcases List.mem_append.mp ht with ht | ht
    · exact h.counted t ht
    · obtain rfl := List.mem_singleton.mp ht
      exact hidx

/-- INTERNAL: and with an attribute. -/
theorem IsBuilt.withAttr {steps : List Step} (h : IsBuilt ⟨steps, none⟩) (name : CStr)
    (hname : Plain name) : IsBuilt ⟨steps, some name⟩ where
  nonempty := h.nonempty
  steps := h.steps
  attr := by
    rintro a ha
    obtain rfl := Option.mem_some.mp ha
    exact hname
  counted := h.counted

/-- INTERNAL: a text that fits is copied whole. -/
theorem boundedCopy_of_lt (size : ℕ) (text : CStr) (h : text.length < size) :
    boundedCopy size text = text := by
  unfold boundedCopy
  apply List.take_of_length_le
  omega

/-- INTERNAL: **the children of a name**, queried by the path at hand. -/
theorem evalRoot_children {ctx : HesQueryCtx} {room : ℕ} {base : CStr} {e : Node}
    (h : At ctx room base e) (name : CStr) (hname : Plain name) :
    evalRoot ctx (base ++ lit "." ++ name) = (e.childrenNamed name).map .node := by
  obtain ⟨⟨steps, hbuilt, rfl, hselect⟩, -, -⟩ := h
  have hchild := dotted_child steps ⟨name, none⟩ hbuilt.nonempty
  rw [show dottedStep ⟨name, none⟩ = name from rfl] at hchild
  rw [← hchild, evalRoot_dotted ctx _ (hbuilt.child ⟨name, none⟩ hname (by simp))]
  unfold LocationPath.select
  dsimp only
  rw [selectSteps_concat, hselect, List.flatMap_singleton]
  rfl

/-- INTERNAL: **an attribute**, queried by the path at hand. -/
theorem attrStr_eq {ctx : HesQueryCtx} {room : ℕ} {base : CStr} {e : Node}
    (h : At ctx room base e) (name : CStr) (hname : Plain name) (hroom : name.length + 2 ≤ room) :
    attrStr ctx base name = attrOf name e := by
  obtain ⟨⟨steps, hbuilt, rfl, hselect⟩, hfits, -⟩ := h
  have hlen : (dotted ⟨steps, none⟩ ++ lit ".@" ++ name).length < pathBufferSize := by
    rw [List.length_append, List.length_append, show (lit ".@").length = 2 from rfl]
    omega
  unfold attrStr queryStr hesQueryString
  rw [boundedCopy_of_lt _ _ hlen, ← dotted_attr steps name hbuilt.nonempty,
    evalRoot_dotted ctx _ (hbuilt.withAttr name hname)]
  unfold LocationPath.select attrOf
  dsimp only
  rw [hselect, List.flatMap_singleton, List.head?_map]

/-- INTERNAL: **the text of the element** itself. -/
theorem queryStr_base {ctx : HesQueryCtx} {room : ℕ} {base : CStr} {e : Node}
    (h : At ctx room base e) : queryStr ctx (boundedCopy pathBufferSize base) = textOf e := by
  obtain ⟨⟨steps, hbuilt, rfl, hselect⟩, hfits, -⟩ := h
  unfold queryStr hesQueryString
  rw [boundedCopy_of_lt _ _ (by omega), evalRoot_dotted ctx _ hbuilt]
  unfold LocationPath.select textOf
  dsimp only
  rw [hselect]
  rfl

/-- INTERNAL: an element has less children of a name than the greatest `int`. -/
theorem At.children_lt {ctx : HesQueryCtx} {room : ℕ} {base : CStr} {e : Node}
    (h : At ctx room base e) (name : CStr) : (e.childrenNamed name).length < 2 ^ 31 := by
  have hle : (e.childrenNamed name).length ≤ e.children.length := List.length_filter_le _ _
  cases h.counted with
  | intro _ here _ => omega

/-- INTERNAL: **the indexed path leads to the child** at that place. -/
theorem At.child {ctx : HesQueryCtx} {room : ℕ} {base : CStr} {e : Node} (name : CStr)
    (h : At ctx (name.length + 13 + room) base e) (hname : Plain name) (i : ℕ)
    (hi : i < (e.childrenNamed name).length) :
    At ctx room (base ++ lit "." ++ name ++ (lit "[" ++ decimal i ++ lit "]"))
      ((e.childrenNamed name).get ⟨i, hi⟩) := by
  have hlt := h.children_lt name
  have hdigits : (decimal i).length ≤ 10 := by
    rw [length_decimal_le_iff i 10 (by omega)]
    omega
  have hcounted : ((e.childrenNamed name).get ⟨i, hi⟩).Counted := by
    cases h.counted with
    | intro _ _ below => exact below _ (List.mem_filter.mp (List.get_mem _ _)).1
  obtain ⟨⟨steps, hbuilt, rfl, hselect⟩, hfits, -⟩ := h
  refine ⟨⟨steps ++ [⟨name, some i⟩], ?_, ?_, ?_⟩, ?_, hcounted⟩
  · apply hbuilt.child ⟨name, some i⟩ hname
    intro j hj
    obtain rfl := Option.mem_some.mp hj
    omega
  · rw [dotted_child steps _ hbuilt.nonempty]
    simp [dottedStep, lit]
  · rw [selectSteps_concat, hselect, List.flatMap_singleton, Step.select_index name i e hi]
  · simp only [List.length_append, show (lit ".").length = 1 from rfl,
      show (lit "[").length = 1 from rfl, show (lit "]").length = 1 from rfl]
    omega

/-- INTERNAL: **a list is the image of the children**, once its loader is right at every path
it is called with. -/
theorem loadList_eq {α : Type} {ctx : HesQueryCtx} {base : CStr} {e : Node} (room : ℕ)
    (name : CStr) (loader : HesQueryCtx → CStr → α) (image : Node → α)
    (h : At ctx (name.length + 13 + room) base e) (hname : Plain name)
    (hload : ∀ path c, At ctx room path c → loader ctx path = image c) :
    loadList ctx base name loader = (e.childrenNamed name).map image := by
  have hlen : (base ++ lit "." ++ name).length < pathBufferSize := by
    have hfits := h.fits
    rw [List.length_append, List.length_append, show (lit ".").length = 1 from rfl]
    omega
  have hcount : (hesQueryElemList ctx (boundedCopy pathBufferSize
      (base ++ lit "." ++ name))).length = (e.childrenNamed name).length := by
    unfold hesQueryElemList
    rw [boundedCopy_of_lt _ _ hlen, evalRoot_children h name hname, handleList_nodes]
  unfold loadList
  dsimp only
  rw [hcount]
  apply List.ext_getElem
  · simp
  · intro i hi _
    have hlt : i < (e.childrenNamed name).length := by simpa using hi
    have hat := At.child name h hname i hlt
    rw [List.getElem_map, List.getElem_map, List.getElem_range,
      boundedCopy_of_lt _ _ (by have := hat.fits; omega), hload _ _ hat]
    rfl

/-! ## The loaders, from the leaves up -/

variable {ctx : HesQueryCtx} {base : CStr} {e : Node}

/-- INTERNAL: the common attributes are those of the element. -/
theorem loadCommonAttrs_eq (purpose : Bool) (h : At ctx 17 base e) :
    loadCommonAttrs ctx base purpose = commonOf purpose e := by
  unfold loadCommonAttrs commonOf
  rw [attrStr_eq h (lit "versionNumber") (by decide) (by decide),
    attrStr_eq h (lit "addrPoint") (by decide) (by decide),
    attrStr_eq h (lit "transCode") (by decide) (by decide),
    attrStr_eq h (lit "descriptiveName") (by decide) (by decide),
    attrStr_eq h (lit "dataPurpose") (by decide) (by decide)]

/-- INTERNAL: a datum is that of the element. -/
theorem loadData_eq (h : At ctx 17 base e) : loadData ctx base = dataOf e := by
  unfold loadData dataOf
  rw [attrStr_eq h (lit "versionNumber") (by decide) (by decide),
    attrStr_eq h (lit "addrPoint") (by decide) (by decide),
    attrStr_eq h (lit "transCode") (by decide) (by decide),
    attrStr_eq h (lit "descriptiveName") (by decide) (by decide),
    attrStr_eq h (lit "dataPurpose") (by decide) (by decide),
    attrStr_eq h (lit "dataFormat") (by decide) (by decide),
    attrStr_eq h (lit "memoryType") (by decide) (by decide),
    attrStr_eq h (lit "storageType") (by decide) (by decide),
    attrStr_eq h (lit "enumerated") (by decide) (by decide),
    attrStr_eq h (lit "description") (by decide) (by decide),
    attrStr_eq h (lit "preassigned") (by decide) (by decide), queryStr_base h]

/-- INTERNAL: the data are those of its children, in their order. -/
theorem loadList_data_eq (h : At ctx 34 base e) :
    loadList ctx base (lit "data") loadData = dataListOf e :=
  loadList_eq 17 (lit "data") loadData dataOf h (by decide) fun _ _ => loadData_eq

/-- INTERNAL: so are the inputs. -/
theorem loadInputs_eq (h : At ctx 34 base e) : loadInputs ctx base = inputsOf e := by
  unfold loadInputs inputsOf
  rw [loadCommonAttrs_eq true (h.mono (by omega)), loadList_data_eq h]

/-- INTERNAL: so are the outputs. -/
theorem loadOutputs_eq (h : At ctx 34 base e) : loadOutputs ctx base = outputsOf e := by
  unfold loadOutputs outputsOf
  rw [loadCommonAttrs_eq true (h.mono (by omega)), loadList_data_eq h]

/-- INTERNAL: a group of parameters is that of the element. -/
theorem loadParamGroup_eq (h : At ctx 34 base e) : loadParamGroup ctx base = paramGroupOf e := by
  unfold loadParamGroup paramGroupOf
  rw [loadCommonAttrs_eq true (h.mono (by omega)), loadList_data_eq h,
    attrStr_eq h (lit "description") (by decide) (by decide)]

/-- INTERNAL: an addressing table is. -/
theorem loadAddressingTable_eq (h : At ctx 34 base e) :
    loadAddressingTable ctx base = addressingTableOf e := by
  unfold loadAddressingTable addressingTableOf
  rw [loadCommonAttrs_eq true (h.mono (by omega)), loadList_data_eq h]

/-- INTERNAL: an operation table is. -/
theorem loadOperationTable_eq (h : At ctx 63 base e) :
    loadOperationTable ctx base = operationTableOf e := by
  have hinputs := loadList_eq 34 (lit "inputs") loadInputs inputsOf
    (h.mono (by decide)) (by decide) fun _ _ => loadInputs_eq
  have hin := loadList_eq 34 (lit "inputParameters") loadParamGroup paramGroupOf
    (h.mono (by decide)) (by decide) fun _ _ => loadParamGroup_eq
  have hout := loadList_eq 34 (lit "outputParameters") loadParamGroup paramGroupOf
    (h.mono (by decide)) (by decide) fun _ _ => loadParamGroup_eq
  have houtputs := loadList_eq 34 (lit "outputs") loadOutputs outputsOf
    (h.mono (by decide)) (by decide) fun _ _ => loadOutputs_eq
  unfold loadOperationTable operationTableOf
  rw [loadCommonAttrs_eq true (h.mono (by omega)), loadList_data_eq (h.mono (by omega)), hinputs,
    hin, hout, houtputs]

/-- INTERNAL: an object type is. -/
theorem loadObjectType_eq (h : At ctx 90 base e) : loadObjectType ctx base = objectTypeOf e := by
  have hops := loadList_eq 63 (lit "operationTable") loadOperationTable operationTableOf
    (h.mono (by decide)) (by decide) fun _ _ => loadOperationTable_eq
  have haddrs := loadList_eq 34 (lit "addressingTable") loadAddressingTable addressingTableOf
    (h.mono (by decide)) (by decide) fun _ _ => loadAddressingTable_eq
  unfold loadObjectType objectTypeOf
  rw [loadCommonAttrs_eq false (h.mono (by omega)), loadList_data_eq (h.mono (by omega)), hops,
    haddrs]

/-- INTERNAL: a lexicon type is. -/
theorem loadLexiconType_eq (h : At ctx 113 base e) :
    loadLexiconType ctx base = lexiconTypeOf e := by
  have hobjects := loadList_eq 90 (lit "objectType") loadObjectType objectTypeOf
    (h.mono (by decide)) (by decide) fun _ _ => loadObjectType_eq
  unfold loadLexiconType lexiconTypeOf
  rw [loadCommonAttrs_eq false (h.mono (by omega)), hobjects]

/-- INTERNAL: the overall process is. -/
theorem loadOverallProcess_eq (h : At ctx 137 base e) :
    loadOverallProcess ctx base = overallProcessOf e := by
  have hlexicons := loadList_eq 113 (lit "lexiconType") loadLexiconType lexiconTypeOf
    (h.mono (by decide)) (by decide) fun _ _ => loadLexiconType_eq
  unfold loadOverallProcess overallProcessOf
  rw [loadCommonAttrs_eq false (h.mono (by omega)), hlexicons]

/-! ## The document -/

/-- INTERNAL: the path of the root leads to it. -/
theorem at_root (ctx : HesQueryCtx) (hroot : ctx.doc.root.isNamed (lit "file") = true) :
    At ctx 200 (lit "file") ctx.doc.root where
  leads := by
    refine ⟨[⟨lit "file", none⟩], ⟨⟨by simp, ?_, by simp⟩, by simp⟩, rfl, ?_⟩
    · intro s hs
      obtain rfl := List.mem_singleton.mp hs
      decide
    · simp [selectSteps, Step.select, Node.childrenNamed, Document.node, Node.children, hroot]
  fits := by decide
  counted := ctx.doc.counted

/-- INTERNAL: the text of a child is read by its name. -/
theorem queryStr_child (h : At ctx 200 base e) (name : CStr) (hname : Plain name) :
    queryStr ctx (base ++ lit "." ++ name) = childTextOf name e := by
  unfold queryStr hesQueryString childTextOf
  rw [evalRoot_children h name hname, List.head?_map]

/-- INTERNAL: an only child is reached without an index. -/
theorem At.onlyChild (h : At ctx 200 base e) (name : CStr) (hname : Plain name)
    (hshort : name.length ≤ 60) (c : Node) (hc : e.childrenNamed name = [c]) :
    At ctx 137 (base ++ lit "." ++ name) c := by
  have hcounted : c.Counted := by
    have hmem : c ∈ e.childrenNamed name := by simp [hc]
    cases h.counted with
    | intro _ _ below => exact below c (List.mem_filter.mp hmem).1
  obtain ⟨⟨steps, hbuilt, rfl, hselect⟩, hfits, -⟩ := h
  refine ⟨⟨steps ++ [⟨name, none⟩], hbuilt.child _ hname (by simp), ?_, ?_⟩, ?_, hcounted⟩
  · rw [dotted_child steps _ hbuilt.nonempty]
    rfl
  · rw [selectSteps_concat, hselect, List.flatMap_singleton]
    exact hc
  · rw [List.length_append, List.length_append, show (lit ".").length = 1 from rfl]
    omega

/-- INTERNAL: the overall process is loaded where there is one. -/
theorem loadOverall_eq (hroot : At ctx 200 (lit "file") e)
    (hone : (e.childrenNamed (lit "overallProcess")).length ≤ 1) :
    (if 0 < hesQueryCount ctx (lit "file.overallProcess") then
        some (loadOverallProcess ctx (lit "file.overallProcess"))
      else none) = ((e.childrenNamed (lit "overallProcess")).map overallProcessOf).head? := by
  have heval := evalRoot_children hroot (lit "overallProcess") (by decide)
  have hcount : hesQueryCount ctx (lit "file.overallProcess") =
      (e.childrenNamed (lit "overallProcess")).length := by
    unfold hesQueryCount
    rw [show lit "file.overallProcess" = lit "file" ++ lit "." ++ lit "overallProcess" from rfl,
      heval, List.length_map]
  rw [hcount]
  match hlist : e.childrenNamed (lit "overallProcess") with
  | [] => rfl
  | [c] =>
    have hat := hroot.onlyChild (lit "overallProcess") (by decide) (by decide) c hlist
    rw [if_pos (by simp), List.map_singleton, List.head?_cons]
    exact congrArg some (loadOverallProcess_eq hat)
  | _ :: _ :: _ =>
    rw [hlist] at hone
    simp at hone

/-- **What is loaded is the document's.** Whatever engine evaluates the paths, a document with
the root element `file` and at most one overall process is loaded as its image: at every level
the entries are those of the children, in their order, and each holds the attributes and the
text of its own element.
SRCLINE: common/hes_gateway.c:614-654 -/
theorem loaded_is_image (ctx : HesQueryCtx)
    (hroot : ctx.doc.root.isNamed (lit "file") = true)
    (hone : (ctx.doc.root.childrenNamed (lit "overallProcess")).length ≤ 1) :
    hesGatewayLoad (some ctx) = some (gatewayOf ctx.doc.root) := by
  have hat := at_root ctx hroot
  have hoverall := loadOverall_eq hat hone
  have htext : ∀ name, Plain name →
      queryStr ctx (lit "file" ++ lit "." ++ name) = childTextOf name ctx.doc.root :=
    fun name hname => queryStr_child hat name hname
  unfold hesGatewayLoad gatewayOf
  rw [Option.map_some, Option.some_inj, hoverall]
  congr 1
  · exact htext (lit "fileFormat") (by decide)
  · exact htext (lit "fileType") (by decide)
  · exact htext (lit "filePurpose") (by decide)
  · exact htext (lit "fileManu") (by decide)
  · exact htext (lit "fileProduct") (by decide)
  · exact htext (lit "fileProductRefID") (by decide)
  · exact htext (lit "fileCoverage") (by decide)
  · exact htext (lit "fileStatus") (by decide)
  · exact htext (lit "fileVersion") (by decide)
  · exact htext (lit "fileSummaryDescription") (by decide)
  · exact htext (lit "fileCreatedDescription") (by decide)
  · exact htext (lit "fileCreatedDate") (by decide)
  · exact htext (lit "fileRevisionDescription") (by decide)
  · exact htext (lit "fileRevisionDate") (by decide)

/-- A table with a code and a datum. -/
def sampleTable (code value : CStr) : Node :=
  .element ⟨[], lit "operationTable"⟩ [⟨⟨[], lit "transCode"⟩, [code]⟩]
    [.element ⟨[], lit "data"⟩ [] [.text value]]

/-- A document with two tables. -/
def sampleFile : Node :=
  .element ⟨[], lit "file"⟩ [] [.element ⟨[], lit "overallProcess"⟩ []
    [.element ⟨[], lit "lexiconType"⟩ [] [.element ⟨[], lit "objectType"⟩ []
      [sampleTable (lit "ot1") (lit "3"), .text (lit " "), sampleTable (lit "ot2") (lit "4")]]]]

/-- INTERNAL: the sample's lists are short enough to count. -/
theorem sampleFile_counted : sampleFile.Counted := by
  have htext : ∀ t, (Node.text t).Counted := fun t => .intro _ (Nat.two_pow_pos 31) (by simp [Node.children])
  have htable : ∀ code value, (sampleTable code value).Counted := by
    intro code value
    refine .intro _ (show 1 < 2 ^ 31 by decide) ?_
    intro c hc
    obtain rfl := List.mem_singleton.mp hc
    refine .intro _ (show 1 < 2 ^ 31 by decide) ?_
    intro c hc
    obtain rfl := List.mem_singleton.mp hc
    exact htext value
  refine .intro _ (by decide) ?_
  intro c hc
  obtain rfl := List.mem_singleton.mp hc
  refine .intro _ (by decide) ?_
  intro c hc
  obtain rfl := List.mem_singleton.mp hc
  refine .intro _ (by decide) ?_
  intro c hc
  obtain rfl := List.mem_singleton.mp hc
  refine .intro _ (by decide) ?_
  intro c hc
  simp only [Node.children, List.mem_cons, List.not_mem_nil, or_false] at hc
  rcases hc with rfl | rfl | rfl
  · exact htable _ _
  · exact htext _
  · exact htable _ _

/-- A file with two operation tables of one object type. -/
theorem loaded_is_image_sample :
    hesGatewayLoad (some ⟨locationEngine, ⟨sampleFile, sampleFile_counted⟩⟩) =
        some (gatewayOf sampleFile) ∧
      (objectTypeOf (.element ⟨[], lit "objectType"⟩ []
          [sampleTable (lit "ot1") (lit "3"), sampleTable (lit "ot2") (lit "4")])).operationTables.map
        (fun t => (t.common.transCode, t.data.map HesGwData.value)) =
        [(lit "ot1", [lit "3"]), (lit "ot2", [lit "4"])] :=
  ⟨loaded_is_image ⟨locationEngine, ⟨sampleFile, sampleFile_counted⟩⟩ (by decide) (by decide),
    by decide +kernel⟩

end OpenHes.Analysis
