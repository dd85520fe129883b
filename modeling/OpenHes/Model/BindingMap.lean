import OpenHes.Library.Binary64
import OpenHes.Model.Message

/-!
# The binding map

The tables of `bm/bm.h` and the functions of `bm/bm.c` that look at one row, one
address or one payload: operation codes, conditioning codes, the readiness test, the
row addresses, the destination test and the datum reader.

Numbers are a parameter: `CDouble` lists what the sources do with a `double`, and
`Binary64` is the one the program runs with. Codes stay the texts the loader copied
out of the document, since the sources compare them as texts and pass unknown ones
through.
-/

set_option autoImplicit false

namespace OpenHes.Model

open OpenHes.Library

/-- What the sources do with a `double`. Of `==` only one thing is asked: a value that
something equals is no NaN. -/
class CDouble (V : Type) where
  zero : V
  one : V
  add : V → V → V
  sub : V → V → V
  mul : V → V → V
  div : V → V → V
  neg : V → V
  /-- `a < b` -/
  lt : V → V → Bool
  /-- `a == b` -/
  eq : V → V → Bool
  atof : CStr → V
  /-- the `%g` conversion -/
  fmtG : V → CStr
  eq_refl_right : ∀ a b, eq a b = true → eq b b = true

instance : CDouble Binary64 where
  zero := Binary64.pack false 0
  one := Binary64.round false 1 0 false
  add := Binary64.add
  sub := Binary64.sub
  mul := Binary64.mul
  div := Binary64.div
  neg := Binary64.neg
  lt := Binary64.lt
  eq := Binary64.eq
  atof := Binary64.atof
  fmtG := Binary64.fmtG
  eq_refl_right := Binary64.eq_refl_right

/-- `BM_MAX_ADDRS`: value-cache slots are the device indexes 1 to this. -/
def bmMaxAddrs : ℕ := 64

/-- `bm_input_t`. -/
structure BmInput where
  deviceIndex : ℕ
  sourceObject : CStr := []
  condition : CStr := []
  authorType : CStr := []
  accompanyOp : CStr := []
  deriving DecidableEq

/-- One entry of `input_params[]` with its `ip_is_live[]` flag. -/
inductive InputParam (V : Type)
  | live
  | preset (v : V)

/-- `bm_operation_t` without its change detectors, which are `OpMemory`. -/
structure BmOperation (V : Type) where
  refId : ℕ := 0
  enabled : Bool := true
  operation : CStr
  tableCode : CStr := []
  inputs : List BmInput
  inputParams : List (InputParam V) := []
  outDeviceIndex : ℕ := 0
  outDestObject : CStr := []
  outAdjustment : CStr := []
  outCode : CStr := []
  outAuthorType : CStr := []

/-- `bm_addr_t`. -/
structure BmAddr where
  deviceIndex : ℕ
  moduleType : HesModuleType
  moduleRefIndex : ℕ := 0
  netRefIndex : ℕ := 0
  address : CStr := []
  deriving DecidableEq

/-- The tables of `binding_map_t` and its development switch. -/
structure BindingMap (V : Type) where
  ops : List (BmOperation V)
  addrs : List BmAddr := []
  authzDisabled : Bool := false

/-- `bm_operand_t`. -/
structure BmOperand (V : Type) where
  deviceIndex : ℕ
  sourceObject : CStr
  value : V

/-- `value_cache` with `value_valid`: a slot is `none` until its entry is meaningful. -/
abbrev ValueCache (V : Type) := ℕ → Option V

/-- Is the device index one of the cache's slots? -/
def hasSlot (di : ℕ) : Bool := 0 < di && di ≤ bmMaxAddrs

variable {V : Type} [CDouble V]

open CDouble

/-- `apply_operation`. -/
def applyOperation (opcode : CStr) (a b : V) : V :=
  if opcode = lit "gt" then (if lt b a then one else zero)
  else if opcode = lit "lt" then (if lt a b then one else zero)
  else if opcode = lit "eq" then (if eq a b then one else zero)
  else if opcode = lit "ad" then add a b
  else if opcode = lit "su" then sub a b
  else if opcode = lit "mu" then mul a b
  else if opcode = lit "dv" then (if eq b zero then zero else div a b)
  else if opcode = lit "no" then (if eq a zero then one else zero)
  else zero

/-- `apply_condition`: the conditioned value, or none when the code blocks. -/
def applyCondition (code : CStr) (v : V) : Option V :=
  if code = [] || code = lit "pt" then some v
  else if code = lit "bk" then none
  else if code = lit "av" then some (if lt v zero then neg v else v)
  else if code = lit "ng" then some (neg v)
  else some v

omit [CDouble V] in
/-- `op_ready`. -/
def opReady (bm : BindingMap V) (cache : ValueCache V) (op : BmOperation V) : Bool :=
  !op.inputs.isEmpty && op.inputs.all fun inp =>
    (bm.authzDisabled || inp.authorType ≠ lit "bk") && hasSlot inp.deviceIndex &&
      (cache inp.deviceIndex).isSome

/-- The conditioning loop of `evaluate_op`: every operand, or none when one is blocked. -/
def conditionInputs (cache : ValueCache V) : List BmInput → Option (List V)
  | [] => some []
  | inp :: rest =>
    match applyCondition inp.condition ((cache inp.deviceIndex).getD zero) with
    | none => none
    | some v => (conditionInputs cache rest).map (v :: ·)

/-- The operands `evaluate_op` computes a row from; none when it returns before that. -/
def rowOperands (bm : BindingMap V) (cache : ValueCache V) (op : BmOperation V) :
    Option (List V) :=
  if !op.enabled || !opReady bm cache op then none
  else conditionInputs cache op.inputs

/-- The first operand of a built-in operation. -/
def operandA (vs : List V) : V := vs.headD zero

/-- The second operand: the second input, or a preset literal, or 0. -/
def operandB (op : BmOperation V) (vs : List V) : V :=
  match vs with
  | _ :: b :: _ => b
  | _ =>
    match (op.inputParams[1]? : Option (InputParam V)) with
    | some (.preset v) => v
    | _ => zero

omit [CDouble V] in
/-- `op_requires_authorization`. -/
def opRequiresAuthorization (op : BmOperation V) : Bool :=
  op.inputs.any fun inp => inp.accompanyOp = lit "au"

omit [CDouble V] in
/-- `bm_at_address`. -/
def bmAtAddress (op : BmOperation V) : CStr :=
  boundedCopy hesPathMax
    (lit "/lx/ob/bm/" ++ op.tableCode ++ lit "/" ++ op.outCode ++ lit "/at")

omit [CDouble V] in
/-- `bm_set_at` on the rows: the first row with the address gets the value; none when
there is no such row. -/
def setAtOps (atAddress value : CStr) : List (BmOperation V) → Option (List (BmOperation V))
  | [] => none
  | op :: rest =>
    if bmAtAddress op = atAddress then
      some ({ op with outAuthorType := hesStrlcpy 4 value } :: rest)
    else (setAtOps atAddress value rest).map (op :: ·)

omit [CDouble V] in
/-- `bm_set_at`; none is its -1. -/
def bmSetAt (bm : BindingMap V) (atAddress value : CStr) : Option (BindingMap V) :=
  (setAtOps atAddress value bm.ops).map fun ops => { bm with ops := ops }

omit [CDouble V] in
/-- `bm_find_addr`. -/
def bmFindAddr (bm : BindingMap V) (deviceIndex : ℕ) : Option BmAddr :=
  bm.addrs.find? fun a => a.deviceIndex = deviceIndex

omit [CDouble V] in
/-- `bm_is_declared_destination`. -/
def bmIsDeclaredDestination (bm : BindingMap V) (path : CStr) (deviceIndex : ℕ) : Bool :=
  if path = [] || deviceIndex = 0 then false
  else
    match bmFindAddr bm deviceIndex with
    | none => false
    | some addr => addr.moduleType = .hi || addr.moduleType = .wi

/-- The record scan of `bm_datum_value`; `structured` says whether a record with a `=`
has gone by, and each turn takes at least one byte off the text. -/
def datumScan (payload want : CStr) : ℕ → CStr → Bool → V
  | 0, _, structured => if structured then zero else atof payload
  | fuel + 1, p, structured =>
    if p = [] then (if structured then zero else atof payload)
    else
      let (record, rest) := splitAtByte 59 p
      match splitAtByte 61 record with
      | (name, some _) =>
        -- the number is read from behind the '=' on, past the record's end if it goes on
        if want ≠ [] && name = want then atof (p.drop (name.length + 1))
        else
          match rest with
          | none => zero
          | some p' => datumScan payload want fuel p' true
      | (_, none) =>
        match rest with
        | none => if structured then zero else atof payload
        | some p' => datumScan payload want fuel p' structured

/-- `bm_datum_value`. -/
def bmDatumValue (payload transCode : CStr) : V :=
  datumScan payload transCode (payload.length + 1) payload false

/-- `BM_LIVE_INPUT_PARAM`. -/
def bmLiveInputParam : CStr := lit "va"

end OpenHes.Model
