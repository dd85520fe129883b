import OpenHes.Library.BigEndian
import OpenHes.Library.Json
import OpenHes.Model.Crypto
import OpenHes.Model.Dispatch

/-!
# The identification service

`services/id/id.c`: the identity document and what is loaded of it, the key pair that is
derived from the fingerprint, and the objects that serve the values. The parsed document and
the PSA library are parameters.
-/

set_option autoImplicit false

namespace OpenHes.Model

open OpenHes.Library

/-- `ID_HEX_CHARS`. -/
def idHexChars : ℕ := 64
/-- `ID_VERSION_MAX`. -/
def idVersionMax : ℕ := 16
/-- `ID_SYSNUM_MAX`. -/
def idSysnumMax : ℕ := 16
/-- `ID_DESC_MAX`. -/
def idDescMax : ℕ := 64
/-- `ID_CLASS_MAX`. -/
def idClassMax : ℕ := 8
/-- `ID_IDENTITY_KEY_BYTES`. -/
def idIdentityKeyBytes : ℕ := 32
/-- `ID_MAX_BINDING_MAPS`. -/
def idMaxBindingMaps : ℕ := 8
/-- `ID_KEY_TRIES`. -/
def idKeyTries : ℕ := 4

/-- `HES_LX_ID`. -/
def hesLxId : CStr := lit "/lx/ob/so/id"
/-- `HES_LX_ID_CENTRALOPS_CV`. -/
def hesLxIdCentralopsCv : CStr := lit "/lx/ob/so/id/co/st/cv"
/-- `HES_LX_ID_DISCOVER_BM`. -/
def hesLxIdDiscoverBm : CStr := lit "/lx/ac/so/id/dc/bm/cv"

/-- `id_binding_map_t`. -/
structure IdBindingMap where
  moduleType : CStr
  moduleRefIndex : ℕ
  netRefIndex : ℕ
  address : CStr

/-- `id_inventory_t`, with the `n_binding_maps` rows that count. -/
structure IdInventory where
  hansNumber : ℤ := 0
  wansNumber : ℤ := 0
  serviceModulesNumber : ℤ := 0
  bindingMaps : List IdBindingMap := []

/-- `id_service_state_t`, all zeros as `calloc` gives it. -/
structure IdServiceState where
  uniquePublicId : CStr := []
  digitalFingerprint : CStr := []
  hesClmeVer : CStr := []
  hesSystemNumber : CStr := []
  publicDescription : CStr := []
  gatewayClass : CStr := []
  vulnerability : ℤ := 0
  adverseImpact : ℤ := 0
  likelihood : ℤ := 0
  riskLevel : ℤ := 0
  identityScalar : List UInt8 := List.replicate idIdentityKeyBytes 0
  haveIdentityKey : Bool := false

/-! ## The fields of the document -/

/-- `take_hex256`. -/
def takeHex256 : Option CStr → Option CStr
  | none => none
  | some value =>
    if value.length ≠ idHexChars then none
    else if value.all fun c => (Binary64.hexValue c).isSome then some (value.map Binary64.lower)
    else none

/-- `take_optional` into a buffer of `cap` bytes. -/
def takeOptional (gw : Json) (key : CStr) (cap : ℕ) (fallback : CStr) : CStr :=
  hesStrlcpy cap ((gw.getString key).getD fallback)

/-- `take_optional_int`. -/
def takeOptionalInt (gw : Json) (key : CStr) : ℤ :=
  match gw.getInt key with
  | some n => if 0 < n then n else 0
  | none => 0

/-! ## The key pair -/

/-- `P256_ORDER`. -/
def p256Order : List UInt8 :=
  [0xff, 0xff, 0xff, 0xff, 0x00, 0x00, 0x00, 0x00, 0xff, 0xff, 0xff,
    0xff, 0xff, 0xff, 0xff, 0xff, 0xbc, 0xe6, 0xfa, 0xad, 0xa7, 0x17,
    0x9e, 0x84, 0xf3, 0xb9, 0xca, 0xc2, 0xfc, 0x63, 0x25, 0x51]

/-- `hex_to_bytes`: the first `n` bytes of the text. -/
def hexToBytes : ℕ → CStr → Option (List UInt8)
  | 0, _ => some []
  | n + 1, a :: b :: rest =>
    match Binary64.hexValue a, Binary64.hexValue b with
    | some hi, some lo => (hexToBytes n rest).map (UInt8.ofNat (16 * hi + lo) :: ·)
    | _, _ => none
  | _ + 1, _ => none

/-- `bytes_to_hex`. -/
def bytesToHex (data : List UInt8) : CStr := hexText lowerDigit data

/-- What the service calls of PSA besides the key pairs: the import of key material and the
steps of a key derivation, of which the last one has the salt, the secret and the info. -/
structure IdPsa extends Psa where
  importDeriveKey : List UInt8 → PsaStatus
  keyDerivationSetup : PsaStatus
  derivationInputSalt : List UInt8 → PsaStatus
  derivationInputSecret : List UInt8 → PsaStatus
  derivationInputInfo : List UInt8 → PsaStatus
  derivationOutput : List UInt8 → List UInt8 → List UInt8 → ℕ → PsaStatus × List UInt8

section KeyPair

variable (psa : IdPsa)

/-- `ID_KEY_SALT`. -/
def idKeySalt : List UInt8 := lit "openhes-id-v1"

/-- `ID_KEY_INFO "/%d"`. -/
def idKeyInfo (attempt : ℕ) : CStr := lit "openhes-id-p256-v1/" ++ fmtD attempt

/-- `hkdf_sha256`. -/
def hkdfSha256 (ikm info : List UInt8) (outLen : ℕ) : Option (List UInt8) :=
  if psa.cryptoInit ≠ .success then none
  else if psa.importDeriveKey ikm ≠ .success then none
  else if psa.keyDerivationSetup ≠ .success then none
  else if psa.derivationInputSalt idKeySalt ≠ .success then none
  else if psa.derivationInputSecret ikm ≠ .success then none
  else if psa.derivationInputInfo info ≠ .success then none
  else
    match psa.derivationOutput idKeySalt ikm info outLen with
    | (.success, out) => some out
    | _ => none

/-- `public_from_scalar`: the public point of a scalar that PSA takes. -/
def publicFromScalar (candidate : List UInt8) : Option (List UInt8) :=
  if psa.importKeyPair candidate ≠ .success then none
  else
    match psa.exportPublicKey candidate with
    | (.success, pub) => if pub.length = 65 && pub.head? = some 4 then some pub else none
    | _ => none

/-- The loop of `derive_identity_key` over what is left of the tries: the scalar that was taken,
and its point. -/
def deriveCandidate (fp : List UInt8) : ℕ → ℕ → Option (List UInt8 × List UInt8)
  | 0, _ => none
  | left + 1, attempt =>
    match hkdfSha256 psa fp (idKeyInfo attempt) idIdentityKeyBytes with
    | none => none
    | some candidate =>
      match publicFromScalar psa candidate with
      | some pub => some (candidate, pub)
      | none => deriveCandidate fp left (attempt + 1)

/-- Is the Y coordinate of the point odd? -/
def oddPoint (pub : List UInt8) : Bool := (pub[64]?.getD 0).toNat % 2 = 1

/-- The end of `derive_identity_key`: the point whose X becomes 'pi'. -/
def publishIdentityKey (st : IdServiceState) (pub : List UInt8) : ℤ × IdServiceState :=
  (0, { st with
    uniquePublicId := bytesToHex ((pub.drop 1).take idIdentityKeyBytes)
    haveIdentityKey := true })

/-- `scalar_negate` for a group whose order is written by `order`. -/
def scalarNegate (order d : List UInt8) : List UInt8 := (subtractBytes order d).1

/-- The loop of `scalar_negate` down from byte `i - 1`: the borrow comes from the byte behind, and
`out` is filled from its end. -/
def scalarNegateLoop (order d : List UInt8) : ℕ → ℕ → List UInt8 → List UInt8
  | 0, _, out => out
  | i + 1, borrow, out =>
    let t : ℤ := (order[i]?.getD 0).toNat - (d[i]?.getD 0).toNat - borrow
    if t < 0 then
      scalarNegateLoop order d i 1 (out.set i (UInt8.ofNat ((t + 0x100) % 256).toNat))
    else scalarNegateLoop order d i 0 (out.set i (UInt8.ofNat (t % 256).toNat))

/-- `scalar_negate`: what it makes of the array `out`. -/
def scalarNegateInto (d out : List UInt8) : List UInt8 :=
  scalarNegateLoop p256Order d idIdentityKeyBytes 0 out

/-- `derive_identity_key` for a group whose order is written by `order`. -/
def deriveIdentityKeyIn (order : List UInt8) (st : IdServiceState) : ℤ × IdServiceState :=
  if psa.cryptoInit ≠ .success then (-1, st)
  else
    match hexToBytes idIdentityKeyBytes st.digitalFingerprint with
    | none => (-1, st)
    | some fp =>
      match deriveCandidate psa fp idKeyTries 0 with
      | none => (-1, st)
      | some (candidate, pub) =>
        let st := { st with identityScalar := candidate }
        if oddPoint pub then
          let negated := scalarNegate order st.identityScalar
          match publicFromScalar psa negated with
          | none => (-1, st)
          | some pub =>
            let st := { st with identityScalar := negated }
            if oddPoint pub then (-1, st) else publishIdentityKey st pub
        else publishIdentityKey st pub

/-- `derive_identity_key`. -/
def deriveIdentityKey (st : IdServiceState) : ℤ × IdServiceState :=
  deriveIdentityKeyIn psa p256Order st

/-! ## The document -/

/-- `document_pi_matches`. -/
def documentPiMatches (pi : Option CStr) (derived : CStr) : Bool :=
  match pi with
  | none => true
  | some _ => takeHex256 pi = some derived

/-- `load_identity`, from the parsed document if there is one. -/
def loadIdentity (root : Option Json) (st : IdServiceState) : ℤ × IdServiceState :=
  match root.bind fun root => root.get (lit "gatewayIdentity") with
  | none => (-1, st)
  | some gw =>
    if !gw.isObject then (-1, st)
    else
      match takeHex256 (gw.getString (lit "fp")) with
      | none => (-1, st)
      | some fp =>
        match deriveIdentityKey psa { st with digitalFingerprint := fp } with
        | (0, st) =>
          if !documentPiMatches (gw.getString (lit "pi")) st.uniquePublicId then (-1, st)
          else
            (0, { st with
              hesClmeVer := takeOptional gw (lit "vr") idVersionMax (lit "1.0.0")
              hesSystemNumber := takeOptional gw (lit "hs") idSysnumMax (lit "1")
              publicDescription := takeOptional gw (lit "pd") idDescMax []
              gatewayClass := takeOptional gw (lit "ch") idClassMax (lit "sh")
              vulnerability := takeOptionalInt gw (lit "vl")
              adverseImpact := takeOptionalInt gw (lit "il")
              likelihood := takeOptionalInt gw (lit "ll")
              riskLevel := takeOptionalInt gw (lit "rl") })
        | (_, st) => (-1, st)

end KeyPair

/-! ## The objects -/

/-- `id_config_on_get`. -/
def idConfigOnGet : CStr := lit "rq=ma;si=ye"

/-- `id_status_on_get`. -/
def idStatusOnGet (st : IdServiceState) (inv : IdInventory) : CStr :=
  boundedCopy hesPayloadMax
    (lit "pi=" ++ st.uniquePublicId ++ lit ";vr=" ++ st.hesClmeVer ++
      lit ";hs=" ++ st.hesSystemNumber ++ lit ";ch=" ++ st.gatewayClass ++
      lit ";pd=" ++ st.publicDescription ++ lit ";nh=" ++ fmtD inv.hansNumber ++
      lit ";nw=" ++ fmtD inv.wansNumber ++ lit ";ns=" ++ fmtD inv.serviceModulesNumber ++
      lit ";vl=" ++ fmtD st.vulnerability ++ lit ";il=" ++ fmtD st.adverseImpact ++
      lit ";ll=" ++ fmtD st.likelihood ++ lit ";rl=" ++ fmtD st.riskLevel)

/-- The loop of `id_discovery_on_get`: a row that does not fit is cut and ends the answer. -/
def idDiscoveryRows : List IdBindingMap → CStr → CStr
  | [], buf => buf
  | m :: rest, buf =>
    let row := (if buf = [] then [] else lit ";") ++ lit "mt=" ++ m.moduleType ++
      lit ",mi=" ++ fmtD m.moduleRefIndex ++ lit ",ni=" ++ fmtD m.netRefIndex ++
      lit ",ad=" ++ m.address
    if hesPayloadMax - buf.length ≤ row.length then
      buf ++ boundedCopy (hesPayloadMax - buf.length) row
    else idDiscoveryRows rest (buf ++ row)

/-- `id_discovery_on_get`. -/
def idDiscoveryOnGet (inv : IdInventory) : CStr :=
  idDiscoveryRows (inv.bindingMaps.take idMaxBindingMaps) []

section Objects

variable {α : Type}

/-- One object of the service; `id_on_put` refuses every PUT. -/
def idObject (path : CStr) (onGet : α → CStr) : ServiceObject α where
  path := path
  onGet := some fun a _ => (a, onGet a)
  onPut := some fun a _ => a

/-- `ID_ADDRESSES`: the objects over the state of the service and the answer of its inventory
source, which is all zeros where none is registered. -/
def idObjects (state : α → IdServiceState) (inventory : α → IdInventory) :
    List (ServiceObject α) :=
  [idObject hesLxId fun _ => idConfigOnGet,
    idObject hesLxIdCentralopsCv fun a => idStatusOnGet (state a) (inventory a),
    idObject hesLxIdDiscoverBm fun a => idDiscoveryOnGet (inventory a)]

end Objects

end OpenHes.Model
