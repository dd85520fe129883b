import OpenHes.Library.CInt
import OpenHes.Model.BindingMap
import OpenHes.Model.Query

/-!
# Loading the binding map

`bm_load_xml` of `bm/bm.c`: the operation tables and the addressing tables of a document, in
their order and as far as the arrays go. Texts are copied into fixed fields, which cut them.
The output parameters and the output's method, which nothing reads, are left out.
-/

set_option autoImplicit false

namespace OpenHes.Model

open OpenHes.Library OpenHes.Library.Xml CDouble

/-- `BM_MAX_OPS`. -/
def bmMaxOps : ℕ := 32
/-- `BM_MAX_INPUTS`. -/
def bmMaxInputs : ℕ := 4
/-- The bytes of `table_code` and of `out_code`. -/
def bmCodeSize : ℕ := 8

/-- `elem_text_copy`. -/
def elemTextCopy (elem : Node) (outsz : ℕ) : CStr :=
  ((hesQueryElemText elem).map (hesStrlcpy outsz)).getD []

/-- The loop of a parser over the data children: `read` is given the code of each that has
one, and its text as far as the parser's buffer holds it. -/
def readData {α : Type} (ctx : HesQueryCtx) (elem : Node) (bufSize : ℕ)
    (read : CStr → CStr → α → α) (a : α) : α :=
  (hesQueryElemChildren ctx elem (lit "data")).foldl (fun a datum =>
    match hesQueryElemAttr datum (lit "transCode") with
    | none => a
    | some tc => read tc (elemTextCopy datum bufSize) a) a

/-- `parse_module_type`. -/
def parseModuleType (s : CStr) : HesModuleType :=
  if s = lit "hi" then .hi
  else if s = lit "wi" then .wi
  else if s = lit "sm" then .sm
  else if s = lit "it" then .it
  else .none

/-- `(uint32_t)atoi(buf)`. -/
def atoiUInt32 (buf : CStr) : ℕ := toUInt32 (atoi buf)

/-- A datum of an addressing table. -/
def readAddrDatum (tc buf : CStr) (a : BmAddr) : BmAddr :=
  if tc = lit "di" then { a with deviceIndex := atoiUInt32 buf }
  else if tc = lit "mt" then { a with moduleType := parseModuleType buf }
  else if tc = lit "mi" then { a with moduleRefIndex := atoiUInt32 buf }
  else if tc = lit "ni" then { a with netRefIndex := atoiUInt32 buf }
  else if tc = lit "ad" then { a with address := hesStrlcpy 64 buf }
  else a

variable {V : Type} [CDouble V]

omit [CDouble V] in
/-- `parse_addressing_table`. -/
def parseAddressingTable (ctx : HesQueryCtx) (atNode : Node) (bm : BindingMap V) :
    BindingMap V :=
  if bmMaxAddrs ≤ bm.addrs.length then bm
  else
    { bm with addrs := bm.addrs ++
        [readData ctx atNode 128 readAddrDatum { deviceIndex := 0, moduleType := .none }] }

/-- A datum of an input. -/
def readInputDatum (tc buf : CStr) (inp : BmInput) : BmInput :=
  if tc = lit "di" then { inp with deviceIndex := atoiUInt32 buf }
  else if tc = lit "so" then { inp with sourceObject := hesStrlcpy hesPathMax buf }
  else if tc = lit "co" then { inp with condition := hesStrlcpy 4 buf }
  else if tc = lit "at" then { inp with authorType := hesStrlcpy 4 buf }
  else if tc = lit "ap" then { inp with accompanyOp := hesStrlcpy 4 buf }
  else inp

omit [CDouble V] in
/-- `parse_inputs`. -/
def parseInputs (ctx : HesQueryCtx) (inNode : Node) (op : BmOperation V) : BmOperation V :=
  if bmMaxInputs ≤ op.inputs.length then op
  else
    { op with inputs := op.inputs ++
        [readData ctx inNode hesPathMax readInputDatum { deviceIndex := 0 }] }

/-- A datum of the input parameters. -/
def readParamDatum (tc buf : CStr) (op : BmOperation V) : BmOperation V :=
  if tc ≠ lit "ip" || bmMaxInputs ≤ op.inputParams.length then op
  else
    { op with inputParams := op.inputParams ++
        [if buf = lit "va" then .live else .preset (atof buf)] }

/-- `parse_input_parameters`. -/
def parseInputParameters (ctx : HesQueryCtx) (ipNode : Node) (op : BmOperation V) :
    BmOperation V :=
  readData ctx ipNode 64 readParamDatum op

omit [CDouble V] in
/-- A datum of an output. -/
def readOutputDatum (tc buf : CStr) (op : BmOperation V) : BmOperation V :=
  if tc = lit "dl" then { op with outDeviceIndex := atoiUInt32 buf }
  else if tc = lit "do" then { op with outDestObject := hesStrlcpy hesPathMax buf }
  else if tc = lit "ad" then { op with outAdjustment := hesStrlcpy 4 buf }
  else if tc = lit "at" then { op with outAuthorType := hesStrlcpy 4 buf }
  else op

omit [CDouble V] in
/-- `parse_outputs`. -/
def parseOutputs (ctx : HesQueryCtx) (outNode : Node) (op : BmOperation V) : BmOperation V :=
  let op :=
    match hesQueryElemAttr outNode (lit "transCode") with
    | none => op
    | some code => { op with outCode := hesStrlcpy bmCodeSize code }
  readData ctx outNode hesPathMax readOutputDatum op

omit [CDouble V] in
/-- `load_group`. -/
def loadGroup (ctx : HesQueryCtx) (parent : Node) (name : CStr)
    (loader : HesQueryCtx → Node → BmOperation V → BmOperation V) (op : BmOperation V) :
    BmOperation V :=
  (hesQueryElemChildren ctx parent name).foldl (fun op elem => loader ctx elem op) op

omit [CDouble V] in
/-- A datum of the row itself. -/
def readRowDatum (tc buf : CStr) (op : BmOperation V) : BmOperation V :=
  if tc = lit "ri" then { op with refId := atoiUInt32 buf }
  else if tc = lit "en" then { op with enabled := buf = lit "en" }
  else if tc = lit "op" then { op with operation := hesStrlcpy 4 buf }
  else op

/-- The row that `parse_operation_table` fills. -/
def readOperationTable (ctx : HesQueryCtx) (otNode : Node) : BmOperation V :=
  let op : BmOperation V := { operation := [], inputs := [] }
  let op :=
    match hesQueryElemAttr otNode (lit "transCode") with
    | none => op
    | some code => { op with tableCode := hesStrlcpy bmCodeSize code }
  let op := readData ctx otNode 64 readRowDatum op
  let op := loadGroup ctx otNode (lit "inputs") parseInputs op
  let op := loadGroup ctx otNode (lit "inputParameters") parseInputParameters op
  loadGroup ctx otNode (lit "outputs") parseOutputs op

/-- `parse_operation_table`. -/
def parseOperationTable (ctx : HesQueryCtx) (otNode : Node) (bm : BindingMap V) : BindingMap V :=
  if bmMaxOps ≤ bm.ops.length then bm
  else { bm with ops := bm.ops ++ [readOperationTable ctx otNode] }

omit [CDouble V] in
/-- `bm_load_tables`. -/
def bmLoadTables (ctx : HesQueryCtx) (name : CStr)
    (loader : HesQueryCtx → Node → BindingMap V → BindingMap V) (bm : BindingMap V) :
    BindingMap V :=
  (hesQueryFindAll ctx name).foldl (fun bm elem => loader ctx elem bm) bm

omit [CDouble V] in
/-- `bm_init`. -/
def bmInit : BindingMap V := { ops := [] }

/-- `bm_load_xml`, from the context that `hes_query_open` gives; none is its -1. -/
def bmLoadXml (opened : Option HesQueryCtx) (bm : BindingMap V) : Option (BindingMap V) :=
  opened.map fun ctx =>
    bmLoadTables ctx (lit "addressingTable") parseAddressingTable
      (bmLoadTables ctx (lit "operationTable") parseOperationTable bm)

end OpenHes.Model
