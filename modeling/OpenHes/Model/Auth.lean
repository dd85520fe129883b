import OpenHes.Library.CInt
import OpenHes.Library.Json
import OpenHes.Model.Message

/-!
# The authorization service

`services/auth/auth.c`: the policy document is read once into fixed tables, and two
questions are answered from them. `auth_service_propagate` writes every applicable
permission into the binding map, `auth_service_authorize` decides on one message.
-/

set_option autoImplicit false

namespace OpenHes.Model

open OpenHes.Library

/-! ## The tables -/

/-- `AUTH_MAX_CLASSES`. -/
def authMaxClasses : ℕ := 16
/-- `AUTH_MAX_IDENTITIES`. -/
def authMaxIdentities : ℕ := 16
/-- `AUTH_MAX_CREDENTIALS`. -/
def authMaxCredentials : ℕ := 16
/-- `AUTH_MAX_GROUPS`. -/
def authMaxGroups : ℕ := 32
/-- `AUTH_MAX_PERMISSIONS`. -/
def authMaxPermissions : ℕ := 32
/-- `AUTH_MAX_PROOF_REQUIREMENTS`. -/
def authMaxProofRequirements : ℕ := 16
/-- `AUTH_NAME_MAX`. -/
def authNameMax : ℕ := 32
/-- `AUTH_SECRET_MAX`. -/
def authSecretMax : ℕ := 64
/-- The size of the arrays that hold a two-letter code. -/
def authCodeSize : ℕ := 4

/-- `auth_class_t`. -/
structure AuthClass where
  classId : ℤ := 0
  name : CStr := []
  status : CStr := []
  identityRef : ℤ := 0
  groupId : ℤ := 0
  credentialRef : ℤ := 0
  deriving DecidableEq

/-- `auth_identity_t`. -/
structure AuthIdentity where
  identity : ℤ := 0
  type : CStr := []
  deviceIndex : ℕ := 0
  deriving DecidableEq

/-- `auth_credential_t`. -/
structure AuthCredential where
  credId : ℤ := 0
  method : CStr := []
  protocol : CStr := []
  info : CStr := []
  timing : ℤ := 0
  valid : Bool := false
  deriving DecidableEq

/-- `auth_group_t`. -/
structure AuthGroup where
  groupId : ℤ := 0
  tableType : CStr := []
  permissionRef : ℤ := 0
  deriving DecidableEq

/-- `auth_permission_t`. -/
structure AuthPermission where
  serviceIndex : ℤ := 0
  statusCheck : CStr := []
  deviceIndex : ℕ := 0
  lexiconObject : CStr := []
  valueNew : CStr := []
  deriving DecidableEq

/-- `auth_proof_requirement_t`. -/
structure AuthProofRequirement where
  atAddress : CStr := []
  publicId : CStr := []
  deriving DecidableEq

/-- `auth_service_state_t`. -/
structure AuthServiceState where
  classes : List AuthClass := []
  identities : List AuthIdentity := []
  credentials : List AuthCredential := []
  groups : List AuthGroup := []
  permissions : List AuthPermission := []
  proofRequirements : List AuthProofRequirement := []
  loaded : Bool := false
  deriving DecidableEq

/-! ## Loading the policy -/

/-- `jobj_int`. -/
def jobjInt (o : Json) (key : CStr) (dflt : ℤ) : ℤ := ((o.getInt key).map toInt32).getD dflt

/-- `jobj_str` into an array of `cap` bytes that holds `dst`. -/
def jobjStr (o : Json) (key : CStr) (dst : CStr) (cap : ℕ) : CStr :=
  ((o.getString key).map (hesStrlcpy cap)).getD dst

/-- The loop over one section of the document: rows that are no objects are passed over, and
the array of the table is filled as far as it goes. -/
def loadTable {ρ : Type} (root : Json) (section_ : CStr) (max : ℕ) (read : Json → ρ) : List ρ :=
  ((root.rows section_).take max).map read

/-- A row of "authClasses". -/
def readClass (row : Json) : AuthClass where
  classId := jobjInt row (lit "ci") 0
  name := jobjStr row (lit "fn") [] authNameMax
  status := jobjStr row (lit "st") [] authCodeSize
  identityRef := jobjInt row (lit "ti") 0
  groupId := jobjInt row (lit "pi") 0
  credentialRef := jobjInt row (lit "cr") 0

/-- A row of "authIdentities". -/
def readIdentity (row : Json) : AuthIdentity where
  identity := jobjInt row (lit "id") 0
  type := jobjStr row (lit "ta") [] authCodeSize
  deviceIndex := toUInt32 (jobjInt row (lit "di") 0)

/-- A row of "credentials". -/
def readCredential (row : Json) : AuthCredential where
  credId := jobjInt row (lit "id") 0
  method := jobjStr row (lit "cm") [] authCodeSize
  protocol := jobjStr row (lit "cp") [] authCodeSize
  info := jobjStr row (lit "ci") [] authSecretMax
  timing := jobjInt row (lit "ss") 0
  valid := jobjStr row (lit "cv") [] 4 = lit "ye"

/-- A row of "permissionGroups". -/
def readGroup (row : Json) : AuthGroup where
  groupId := jobjInt row (lit "pi") 0
  tableType := jobjStr row (lit "pt") [] authCodeSize
  permissionRef := jobjInt row (lit "pr") 0

/-- A row of "permissionServices". -/
def readPermission (row : Json) : AuthPermission where
  serviceIndex := jobjInt row (lit "pi") 0
  statusCheck := jobjStr row (lit "st") [] authCodeSize
  deviceIndex := toUInt32 (jobjInt row (lit "di") 0)
  lexiconObject := jobjStr row (lit "lo") [] hesPathMax
  valueNew := jobjStr row (lit "vn") [] authCodeSize

/-- The loop over "proofRequired". An entry that is passed over leaves what it wrote in the
slot that the next one is read into. -/
def loadProofRequirements : List Json → AuthProofRequirement → ℕ → List AuthProofRequirement
  | [], _, _ => []
  | _, _, 0 => []
  | row :: rest, slot, room + 1 =>
    let pr : AuthProofRequirement :=
      { atAddress := jobjStr row (lit "at") slot.atAddress hesPathMax
        publicId := jobjStr row (lit "pi") slot.publicId 65 }
    if pr.atAddress = [] || pr.publicId.length ≠ 64 then loadProofRequirements rest pr (room + 1)
    else pr :: loadProofRequirements rest {} room

/-- `load_policy`, given what `json_load_file` made of the document: none when no document was
given, or it could not be read. -/
def loadPolicy : Option Json → AuthServiceState
  | none => {}
  | some root =>
    { classes := loadTable root (lit "authClasses") authMaxClasses readClass
      identities := loadTable root (lit "authIdentities") authMaxIdentities readIdentity
      credentials := loadTable root (lit "credentials") authMaxCredentials readCredential
      groups := loadTable root (lit "permissionGroups") authMaxGroups readGroup
      permissions := loadTable root (lit "permissionServices") authMaxPermissions readPermission
      proofRequirements :=
        loadProofRequirements (root.rows (lit "proofRequired")) {} authMaxProofRequirements
      loaded := true }

/-! ## Answering -/

/-- `credential_matches`. -/
def credentialMatches (stored presented : CStr) : Bool :=
  let n := (presented.takeWhile fun c => c ≠ 59).length
  stored.length = n && stored = presented.take n

/-- The walk class -> its permissionGroup rows -> permissionService rows, in the order of the
two loops. -/
def permissionsOf (st : AuthServiceState) (cls : AuthClass) : List AuthPermission :=
  (st.groups.filter fun grp => grp.groupId = cls.groupId && grp.tableType = lit "ps").flatMap
    fun grp => st.permissions.filter fun perm =>
      perm.serviceIndex = grp.permissionRef && perm.statusCheck = cls.status

/-- One write of `auth_service_propagate`, with the count of those that succeeded. -/
def propagateWrite {β : Type} (write : β → CStr → CStr → Option β) (acc : β × ℕ)
    (perm : AuthPermission) : β × ℕ :=
  match write acc.1 perm.lexiconObject perm.valueNew with
  | some ctx => (ctx, acc.2 + 1)
  | none => acc

/-- `auth_service_propagate`. -/
def authServicePropagate {β : Type} (st : AuthServiceState)
    (write : β → CStr → CStr → Option β) (ctx : β) : β × ℕ :=
  (st.classes.flatMap (permissionsOf st)).foldl (propagateWrite write) (ctx, 0)

/-- `auth_service_authorize`. -/
def authServiceAuthorize (st : AuthServiceState) (credInfo userName atAddress : CStr) : Bool :=
  if !st.loaded || credInfo = [] then false
  else
    match st.credentials.find? fun cred => credentialMatches cred.info credInfo with
    | none => false
    | some cred =>
      if !cred.valid then false
      else
        match st.classes.find? fun cls => cls.credentialRef = cred.credId with
        | none => false
        | some cls =>
          if userName ≠ [] && userName ≠ cls.name then false
          else
            let found := (permissionsOf st cls).filter fun perm => perm.lexiconObject = atAddress
            -- last match wins, as in propagation
            match found.getLast? with
            | none => false
            | some perm => perm.valueNew = lit "fl"

/-- `auth_service_required_proof_pi`. -/
def authServiceRequiredProofPi (st : AuthServiceState) (atAddress : CStr) : Option CStr :=
  (st.proofRequirements.find? fun pr => pr.atAddress = atAddress).map (·.publicId)

end OpenHes.Model
