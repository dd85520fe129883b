import OpenHes.Model.Query

/-!
# The native structures of a document

`common/hes_gateway.c`: a loader for each type of element, which queries every field by a
path in a buffer of 600 bytes. A list is counted first and then loaded entry by entry from
indexed paths.
-/

set_option autoImplicit false

namespace OpenHes.Model

open OpenHes.Library OpenHes.Library.Xml

/-! ## Structures -/

/-- The attributes that the containers share; a structure without dataPurpose has none. -/
structure HesGwCommon where
  versionNumber : CStr
  addrPoint : CStr
  transCode : CStr
  descriptiveName : CStr
  dataPurpose : Option CStr
  deriving DecidableEq

/-- `hes_gw_data_t`. -/
structure HesGwData where
  versionNumber : CStr
  addrPoint : CStr
  transCode : CStr
  descriptiveName : CStr
  dataPurpose : CStr
  dataFormat : CStr
  memoryType : CStr
  storageType : CStr
  enumerated : CStr
  description : CStr
  preassigned : CStr
  value : CStr
  deriving DecidableEq

/-- `hes_gw_inputs_t`. -/
structure HesGwInputs where
  common : HesGwCommon
  data : List HesGwData
  deriving DecidableEq

/-- `hes_gw_outputs_t`. -/
structure HesGwOutputs where
  common : HesGwCommon
  data : List HesGwData
  deriving DecidableEq

/-- `hes_gw_param_group_t`. -/
structure HesGwParamGroup where
  common : HesGwCommon
  description : CStr
  data : List HesGwData
  deriving DecidableEq

/-- `hes_gw_operation_table_t`. -/
structure HesGwOperationTable where
  common : HesGwCommon
  data : List HesGwData
  inputs : List HesGwInputs
  inputParameters : List HesGwParamGroup
  outputParameters : List HesGwParamGroup
  outputs : List HesGwOutputs
  deriving DecidableEq

/-- `hes_gw_addressing_table_t`. -/
structure HesGwAddressingTable where
  common : HesGwCommon
  data : List HesGwData
  deriving DecidableEq

/-- `hes_gw_object_type_t`. -/
structure HesGwObjectType where
  common : HesGwCommon
  data : List HesGwData
  operationTables : List HesGwOperationTable
  addressingTables : List HesGwAddressingTable
  deriving DecidableEq

/-- `hes_gw_lexicon_type_t`. -/
structure HesGwLexiconType where
  common : HesGwCommon
  objectTypes : List HesGwObjectType
  deriving DecidableEq

/-- `hes_gw_overall_process_t`. -/
structure HesGwOverallProcess where
  common : HesGwCommon
  lexiconTypes : List HesGwLexiconType
  deriving DecidableEq

/-- `hes_gateway_t`. -/
structure HesGateway where
  fileFormat : CStr
  fileType : CStr
  filePurpose : CStr
  fileManu : CStr
  fileProduct : CStr
  fileProductRefId : CStr
  fileCoverage : CStr
  fileStatus : CStr
  fileVersion : CStr
  fileSummaryDescription : CStr
  fileCreatedDescription : CStr
  fileCreatedDate : CStr
  fileRevisionDescription : CStr
  fileRevisionDate : CStr
  overallProcess : Option HesGwOverallProcess
  deriving DecidableEq

/-! ## Loaders -/

/-- The bytes of a path buffer. -/
def pathBufferSize : ℕ := 600

/-- `_str` of a queried text. -/
def queryStr (ctx : HesQueryCtx) (path : CStr) : CStr := (hesQueryString ctx path).getD []

/-- The text of an attribute of the element at `base`. -/
def attrStr (ctx : HesQueryCtx) (base name : CStr) : CStr :=
  queryStr ctx (boundedCopy pathBufferSize (base ++ lit ".@" ++ name))

/-- `HES_GW_LOAD_LIST`. -/
def loadList {α : Type} (ctx : HesQueryCtx) (base elemName : CStr)
    (loader : HesQueryCtx → CStr → α) : List α :=
  let n := (hesQueryElemList ctx (boundedCopy pathBufferSize (base ++ lit "." ++ elemName))).length
  (List.range n).map fun i => loader ctx (boundedCopy pathBufferSize
    (base ++ lit "." ++ elemName ++ (lit "[" ++ Binary64.decimal i ++ lit "]")))

/-- `_load_common_attrs`; `purpose` where a place for dataPurpose is passed. -/
def loadCommonAttrs (ctx : HesQueryCtx) (base : CStr) (purpose : Bool) : HesGwCommon where
  versionNumber := attrStr ctx base (lit "versionNumber")
  addrPoint := attrStr ctx base (lit "addrPoint")
  transCode := attrStr ctx base (lit "transCode")
  descriptiveName := attrStr ctx base (lit "descriptiveName")
  dataPurpose := if purpose then some (attrStr ctx base (lit "dataPurpose")) else none

/-- `_load_data`. -/
def loadData (ctx : HesQueryCtx) (base : CStr) : HesGwData where
  versionNumber := attrStr ctx base (lit "versionNumber")
  addrPoint := attrStr ctx base (lit "addrPoint")
  transCode := attrStr ctx base (lit "transCode")
  descriptiveName := attrStr ctx base (lit "descriptiveName")
  dataPurpose := attrStr ctx base (lit "dataPurpose")
  dataFormat := attrStr ctx base (lit "dataFormat")
  memoryType := attrStr ctx base (lit "memoryType")
  storageType := attrStr ctx base (lit "storageType")
  enumerated := attrStr ctx base (lit "enumerated")
  description := attrStr ctx base (lit "description")
  preassigned := attrStr ctx base (lit "preassigned")
  value := queryStr ctx (boundedCopy pathBufferSize base)

/-- `_load_inputs`. -/
def loadInputs (ctx : HesQueryCtx) (base : CStr) : HesGwInputs where
  common := loadCommonAttrs ctx base true
  data := loadList ctx base (lit "data") loadData

/-- `_load_outputs`. -/
def loadOutputs (ctx : HesQueryCtx) (base : CStr) : HesGwOutputs where
  common := loadCommonAttrs ctx base true
  data := loadList ctx base (lit "data") loadData

/-- `_load_param_group`. -/
def loadParamGroup (ctx : HesQueryCtx) (base : CStr) : HesGwParamGroup where
  common := loadCommonAttrs ctx base true
  description := attrStr ctx base (lit "description")
  data := loadList ctx base (lit "data") loadData

/-- `_load_operation_table`. -/
def loadOperationTable (ctx : HesQueryCtx) (base : CStr) : HesGwOperationTable where
  common := loadCommonAttrs ctx base true
  data := loadList ctx base (lit "data") loadData
  inputs := loadList ctx base (lit "inputs") loadInputs
  inputParameters := loadList ctx base (lit "inputParameters") loadParamGroup
  outputParameters := loadList ctx base (lit "outputParameters") loadParamGroup
  outputs := loadList ctx base (lit "outputs") loadOutputs

/-- `_load_addressing_table`. -/
def loadAddressingTable (ctx : HesQueryCtx) (base : CStr) : HesGwAddressingTable where
  common := loadCommonAttrs ctx base true
  data := loadList ctx base (lit "data") loadData

/-- `_load_object_type`. -/
def loadObjectType (ctx : HesQueryCtx) (base : CStr) : HesGwObjectType where
  common := loadCommonAttrs ctx base false
  data := loadList ctx base (lit "data") loadData
  operationTables := loadList ctx base (lit "operationTable") loadOperationTable
  addressingTables := loadList ctx base (lit "addressingTable") loadAddressingTable

/-- `_load_lexicon_type`. -/
def loadLexiconType (ctx : HesQueryCtx) (base : CStr) : HesGwLexiconType where
  common := loadCommonAttrs ctx base false
  objectTypes := loadList ctx base (lit "objectType") loadObjectType

/-- `_load_overall_process`. -/
def loadOverallProcess (ctx : HesQueryCtx) (base : CStr) : HesGwOverallProcess where
  common := loadCommonAttrs ctx base false
  lexiconTypes := loadList ctx base (lit "lexiconType") loadLexiconType

/-- `hes_gateway_load`, from the context that `hes_query_open` gives. -/
def hesGatewayLoad (opened : Option HesQueryCtx) : Option HesGateway :=
  opened.map fun ctx =>
    { fileFormat := queryStr ctx (lit "file.fileFormat")
      fileType := queryStr ctx (lit "file.fileType")
      filePurpose := queryStr ctx (lit "file.filePurpose")
      fileManu := queryStr ctx (lit "file.fileManu")
      fileProduct := queryStr ctx (lit "file.fileProduct")
      fileProductRefId := queryStr ctx (lit "file.fileProductRefID")
      fileCoverage := queryStr ctx (lit "file.fileCoverage")
      fileStatus := queryStr ctx (lit "file.fileStatus")
      fileVersion := queryStr ctx (lit "file.fileVersion")
      fileSummaryDescription := queryStr ctx (lit "file.fileSummaryDescription")
      fileCreatedDescription := queryStr ctx (lit "file.fileCreatedDescription")
      fileCreatedDate := queryStr ctx (lit "file.fileCreatedDate")
      fileRevisionDescription := queryStr ctx (lit "file.fileRevisionDescription")
      fileRevisionDate := queryStr ctx (lit "file.fileRevisionDate")
      overallProcess :=
        if 0 < hesQueryCount ctx (lit "file.overallProcess") then
          some (loadOverallProcess ctx (lit "file.overallProcess"))
        else none }

end OpenHes.Model
