import OpenHes.Library.CInt
import OpenHes.Library.HexText
import OpenHes.Model.Message

/-!
# The cryptographic service

`services/crypto/crypto.c`: the cipher table and its answers to GETs, the identity key that
answers challenges, and the check of a proof a peer presents. The PSA library underneath is
a parameter; what is hashed, signed and verified, and how a proof is written and read, is
the service's own.
-/

set_option autoImplicit false

namespace OpenHes.Model

open OpenHes.Library

/-- `CRYPTO_MAX_PAYLOAD`. -/
def cryptoMaxPayload : ℕ := 128
/-- `CRYPTO_AEAD_NONCE_SIZE`. -/
def cryptoAeadNonceSize : ℕ := 12
/-- `CRYPTO_AEAD_TAG_SIZE`. -/
def cryptoAeadTagSize : ℕ := 16
/-- `CRYPTO_IDENTITY_EI`. -/
def cryptoIdentityEi : ℤ := 100
/-- `CRYPTO_IDENTITY_KEY_BYTES`. -/
def cryptoIdentityKeyBytes : ℕ := 32
/-- `CRYPTO_IDENTITY_SIG_BYTES`. -/
def cryptoIdentitySigBytes : ℕ := 64
/-- `CRYPTO_IDENTITY_PUB_BYTES`. -/
def cryptoIdentityPubBytes : ℕ := 65

/-! ## The cipher table -/

/-- `cipher_entry_t`. -/
structure CipherEntry where
  ei : ℤ
  nameCipher : CStr := []
  keySize : ℕ
  modeCipher : CStr := []
  key : List UInt8 := []
  supported : Bool
  internalBits : ℕ := 0
  authBytes : ℕ := 0

/-- A row of `definitions` in `crypto_service_create`. -/
def cipherDefinition (ei : ℤ) (name mode : String) (supported : Bool) : CipherEntry where
  ei := ei
  nameCipher := lit name
  keySize := 16
  modeCipher := lit mode
  key := lit "0123456789ABCDEF"
  supported := supported

/-- The table of `crypto_service_create`; the identity signature is its last row. -/
def cipherTable : List CipherEntry :=
  [cipherDefinition 1 "ae" "cb" true, cipherDefinition 2 "ae" "cf" true,
    cipherDefinition 3 "ae" "cc" true, cipherDefinition 4 "ae" "gc" true,
    cipherDefinition 5 "ar" "cb" true, cipherDefinition 6 "ar" "cf" true,
    cipherDefinition 7 "ar" "cc" true, cipherDefinition 8 "ar" "gc" true,
    cipherDefinition 9 "bf" "cb" false, cipherDefinition 10 "bf" "cc" false,
    cipherDefinition 11 "bf" "cf" false, cipherDefinition 12 "bf" "gc" false,
    { ei := cryptoIdentityEi, keySize := cryptoIdentityKeyBytes, internalBits := 256
      authBytes := cryptoIdentitySigBytes, supported := true }]

/-- `crypto_service_state_t`: the identity scalar, once it has been handed over. The cipher
table is the same in every service. -/
structure CryptoServiceState where
  identityScalar : Option (List UInt8) := none

/-- `find_cipher`. -/
def findCipher (ei : ℤ) : Option CipherEntry := cipherTable.find? fun c => c.ei = ei

/-! ## The PSA library -/

/-- `psa_status_t`, as far as the service tells the codes apart. -/
inductive PsaStatus
  | success
  | errorNotSupported
  | errorInvalidSignature
  | errorInvalidArgument
  | errorGenericError
  deriving DecidableEq

/-- `psa_key_type_t` of a cipher key. -/
inductive PsaKeyType
  | aes
  | aria
  | none
  deriving DecidableEq

/-- `psa_algorithm_t` of a cipher. -/
inductive PsaAlgorithm
  | cbcNoPadding
  | cfb
  | ccm
  | gcm
  | none
  deriving DecidableEq

/-- A cipher key as it is imported. -/
structure PsaCipherKey where
  keyType : PsaKeyType
  bits : ℕ
  algorithm : PsaAlgorithm
  key : List UInt8

/-- What the service calls of PSA: initialisation, SHA-256, the import of a P-256 scalar or
point with the signing, exporting or verifying that follows it, and the import of a cipher
key with the decryption. Signing is deterministic ECDSA over a digest. -/
structure Psa where
  cryptoInit : PsaStatus
  hashCompute : List UInt8 → PsaStatus × List UInt8
  importKeyPair : List UInt8 → PsaStatus
  signHash : List UInt8 → List UInt8 → PsaStatus × List UInt8
  exportPublicKey : List UInt8 → PsaStatus × List UInt8
  importPublicKey : List UInt8 → PsaStatus
  verifyHash : List UInt8 → List UInt8 → List UInt8 → PsaStatus
  importCipherKey : PsaCipherKey → PsaStatus
  cipherDecrypt : PsaCipherKey → List UInt8 → List UInt8 → PsaStatus × List UInt8
  aeadDecrypt : PsaCipherKey → List UInt8 → List UInt8 → PsaStatus × List UInt8

/-! ## Hex text -/

/-- `hex_decode` into a buffer of `outCap` bytes. -/
def hexDecode (hex : CStr) (outCap : ℕ) : Option (List UInt8) :=
  if hex.length % 2 ≠ 0 then none
  else if outCap < hex.length / 2 then none
  else scanHexPairs hex

/-- `hex_encode` into a buffer of `outCap` bytes: as many bytes as fit. -/
def hexEncode (data : List UInt8) (outCap : ℕ) : CStr :=
  hexText upperDigit (data.take ((outCap - 1) / 2))

/-- `hex_encode_lower`. -/
def hexEncodeLower (data : List UInt8) (outCap : ℕ) : CStr :=
  hexText lowerDigit (data.take ((outCap - 1) / 2))

/-! ## The identity key -/

section Identity

variable (psa : Psa)

/-- `sha256_digest`. -/
def sha256Digest (msg : List UInt8) : Option (List UInt8) :=
  match psa.hashCompute msg with
  | (.success, digest) => if digest.length = 32 then some digest else none
  | _ => none

/-- `crypto_service_sign`. -/
def cryptoServiceSign (st : CryptoServiceState) (msg : List UInt8) : Option (List UInt8) :=
  match st.identityScalar with
  | none => none
  | some scalar =>
    if psa.cryptoInit ≠ .success then none
    else
      match sha256Digest psa msg with
      | none => none
      | some digest =>
        if psa.importKeyPair scalar ≠ .success then none
        else
          match psa.signHash scalar digest with
          | (.success, sig) => if sig.length = cryptoIdentitySigBytes then some sig else none
          | _ => none

/-- `crypto_service_public_key`. -/
def cryptoServicePublicKey (st : CryptoServiceState) : Option (List UInt8) :=
  match st.identityScalar with
  | none => none
  | some scalar =>
    if psa.cryptoInit ≠ .success then none
    else if psa.importKeyPair scalar ≠ .success then none
    else
      match psa.exportPublicKey scalar with
      | (.success, pub) => if pub.length = cryptoIdentityPubBytes then some pub else none
      | _ => none

/-- `crypto_verify_message`, when it returns 0. -/
def cryptoVerifyMessage (pub msg sig : List UInt8) : Bool :=
  if pub.head? ≠ some 4 then false
  else if psa.cryptoInit ≠ .success then false
  else
    match sha256Digest psa msg with
    | none => false
    | some digest => psa.importPublicKey pub = .success && psa.verifyHash pub digest sig = .success

/-- `crypto_pi_matches`: the X coordinate against 64 digits of either case. -/
def cryptoPiMatches (pub : List UInt8) (pi : CStr) : Bool :=
  pub.head? = some 4 && pi.length = 64 &&
    hexText lowerDigit ((pub.drop 1).take 32) = pi.map Binary64.lower

/-! ## Proofs -/

/-- The text of a proof: `pi=%s;pk=%s;sig=%s`. -/
def proofText (pub sig : List UInt8) : CStr :=
  lit "pi=" ++ hexEncodeLower ((pub.drop 1).take 32) 65 ++ lit ";pk=" ++
    hexEncode pub (cryptoIdentityPubBytes * 2 + 1) ++ lit ";sig=" ++
    hexEncode sig (cryptoIdentitySigBytes * 2 + 1)

/-- `crypto_identity_proof`: the payload that answers the challenge. -/
def cryptoIdentityProof (st : CryptoServiceState) (payload : CStr) : CStr :=
  match hexDecode (hesStrlcpy hesPayloadMax payload) cryptoMaxPayload with
  | none => lit "error:bad-challenge"
  | some [] => lit "error:bad-challenge"
  | some challenge =>
    match cryptoServicePublicKey psa st, cryptoServiceSign psa st challenge with
    | some pub, some sig =>
      let text := proofText pub sig
      if hesPayloadMax ≤ text.length then lit "error:proof-too-large" else text
    | _, _ => lit "error:no-identity-key"

/-- Is the record `code=value`? -/
def recordNamed (code record : CStr) : Bool :=
  record.contains 61 && (record.takeWhile fun c => c ≠ 61) = code

/-- `proof_field` into a buffer of `outCap` bytes: the value of the first record of that
name, when it fits. -/
def proofField (cred code : CStr) (outCap : ℕ) : Option CStr :=
  match (cred.splitOn 59).find? (recordNamed code) with
  | none => none
  | some record =>
    let value := record.drop (code.length + 1)
    if outCap ≤ value.length then none else some value

/-- `crypto_proof_message` into a buffer of `outCap` bytes. -/
def cryptoProofMessage (path payload : CStr) (outCap : ℕ) : CStr :=
  let out := hesStrlcpy outCap path
  if outCap ≤ out.length + 1 then out
  else out ++ 10 :: hesStrlcpy (outCap - (out.length + 1)) payload

/-- `crypto_verify_proof`. -/
def cryptoVerifyProof (credInfo expectedPi : CStr) (msg : List UInt8) : Bool :=
  match proofField credInfo (lit "pi") 65,
      proofField credInfo (lit "pk") (cryptoIdentityPubBytes * 2 + 1),
      proofField credInfo (lit "sig") (cryptoIdentitySigBytes * 2 + 1) with
  | some pi, some pkHex, some sigHex =>
    match hexDecode pkHex cryptoIdentityPubBytes, hexDecode sigHex cryptoIdentitySigBytes with
    | some pub, some sig =>
      pub.length = cryptoIdentityPubBytes && sig.length = cryptoIdentitySigBytes &&
        cryptoPiMatches pub expectedPi && cryptoPiMatches pub pi &&
        cryptoVerifyMessage psa pub msg sig
    | _, _ => false
  | _, _, _ => false

end Identity

/-! ## Answers to GETs -/

section Ciphers

variable (psa : Psa)

/-- `psa_cipher_key_type`. -/
def psaCipherKeyType (c : CipherEntry) : PsaKeyType :=
  if c.nameCipher = lit "ae" then .aes else if c.nameCipher = lit "ar" then .aria else .none

/-- `psa_cipher_algorithm`. -/
def psaCipherAlgorithm (c : CipherEntry) : PsaAlgorithm :=
  if c.modeCipher = lit "cb" then .cbcNoPadding
  else if c.modeCipher = lit "cf" then .cfb
  else if c.modeCipher = lit "cc" then .ccm
  else if c.modeCipher = lit "gc" then .gcm
  else .none

/-- The key `import_key` imports. -/
def cipherKey (c : CipherEntry) : PsaCipherKey where
  keyType := psaCipherKeyType c
  bits := c.keySize * 8
  algorithm := psaCipherAlgorithm c
  key := c.key.take c.keySize

/-- `decrypt_block_or_feedback`: the status, and the plaintext of a success. -/
def decryptBlockOrFeedback (data : List UInt8) (c : CipherEntry) : PsaStatus × List UInt8 :=
  if data = [] || (c.modeCipher = lit "cb" && data.length % 16 ≠ 0) then
    (.errorInvalidArgument, [])
  else if psa.cryptoInit ≠ .success then (psa.cryptoInit, [])
  else if psa.importCipherKey (cipherKey c) ≠ .success then
    (psa.importCipherKey (cipherKey c), [])
  else
    match psa.cipherDecrypt (cipherKey c) (List.replicate 16 0) data with
    | (.success, output) =>
      if output.length = data.length then (.success, output) else (.errorGenericError, [])
    | _ => (.errorGenericError, [])

/-- `decrypt_aead`: the status, and the plaintext. -/
def decryptAead (data : List UInt8) (c : CipherEntry) : PsaStatus × List UInt8 :=
  if data.length ≤ cryptoAeadNonceSize + cryptoAeadTagSize then (.errorInvalidArgument, [])
  else if psa.cryptoInit ≠ .success then (psa.cryptoInit, [])
  else if psa.importCipherKey (cipherKey c) ≠ .success then
    (psa.importCipherKey (cipherKey c), [])
  else psa.aeadDecrypt (cipherKey c) (data.take cryptoAeadNonceSize) (data.drop cryptoAeadNonceSize)

/-- `decrypt_error`: the plaintext, or the text of the error. -/
def decryptError (c : CipherEntry) (payload : CStr) : Except CStr (List UInt8) :=
  if !c.supported then .error (lit "error:unsupported-cipher")
  else
    match hexDecode payload cryptoMaxPayload with
    | none => .error (lit "error:invalid-parameters")
    | some [] => .error (lit "error:invalid-parameters")
    | some data =>
      if c.modeCipher = lit "cc" || c.modeCipher = lit "gc" then
        match decryptAead psa data c with
        | (.success, plaintext) => .ok plaintext
        | (.errorNotSupported, _) => .error (lit "error:unsupported-mode")
        | (.errorInvalidSignature, _) => .error (lit "error:authentication-failed")
        | _ => .error (lit "error:invalid-parameters")
      else
        match decryptBlockOrFeedback psa data c with
        | (.success, plaintext) => .ok plaintext
        | (.errorNotSupported, _) =>
          .error (if c.nameCipher = lit "ar" then lit "error:unsupported-cipher"
            else lit "error:unsupported-mode")
        | _ => .error (lit "error:invalid-parameters")

/-- `parse_ei`. -/
def parseEi (query : CStr) : ℤ :=
  match strstr (lit "ei=") query with
  | none => -1
  | some p => atoi (p.drop 3)

/-- `crypto_on_get`: the payload of the answer; the message carries the request's query and
payload. -/
def cryptoOnGet (st : CryptoServiceState) (out : HesClmeMsg) : CStr :=
  let ei := parseEi out.query
  match if 0 ≤ ei then findCipher ei else none with
  | none => lit "error:unknown-ei"
  | some c =>
    if 0 < c.internalBits then
      if 0 < out.payloadLen then cryptoIdentityProof psa st out.payload
      else lit "ei=" ++ fmtD c.ei ++ lit ";ks=" ++ fmtD c.keySize ++ lit ";it=" ++
        fmtD c.internalBits ++ lit ";au=" ++ fmtD c.authBytes
    else if 0 < out.payloadLen then
      match decryptError psa c out.payload with
      | .error text => text
      | .ok raw => hexEncode raw 257
    else lit "ei=" ++ fmtD c.ei ++ lit ";nc=" ++ c.nameCipher ++ lit ";ks=" ++
      fmtD c.keySize ++ lit ";mc=" ++ c.modeCipher

/-- `crypto_config_on_get`. -/
def cryptoConfigOnGet : CStr := lit "vr=1.0.0;rq=ma;si=no"

end Ciphers

end OpenHes.Model
