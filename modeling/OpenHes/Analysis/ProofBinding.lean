import OpenHes.Analysis.CommandProofs

/-!
# What a command's proof is bound to

A signature covers the path and the payload of a command, and nothing else that decides
what the command does. The key that signs commands is the key that answers challenges, so
an answer is the proof of the one command whose bytes were the challenge. A proof and a
credential share a field, where the credential comes first.
-/

set_option autoImplicit false

namespace OpenHes.Analysis

open OpenHes.Library OpenHes.Model

variable {psa : Psa} {pub sig : List UInt8}

/-- The message with this accompanying information. -/
def presenting (m : HesClmeMsg) (credInfo userName : CStr) : HesClmeMsg :=
  { m with credInfo := credInfo, userName := userName }

/-! ## A credential in front of a proof -/

/-- INTERNAL: the credential is compared up to the first ';'. -/
theorem credentialMatches_behind (credential rest : CStr) (hcred : 59 ∉ credential) :
    credentialMatches credential (credential ++ 59 :: rest) = true := by
  have htake : (credential ++ 59 :: rest).takeWhile (fun c => decide (c ≠ 59)) = credential := by
    rw [List.takeWhile_append_of_pos]
    · simp
    · intro c hc
      have hne : c ≠ 59 := fun h => hcred (h ▸ hc)
      simp [hne]
  unfold credentialMatches
  simp only [htake]
  simp

/-- A credential and the proof that answers the hex of a message ride together in one field:
the credential always matches, and the proof is accepted exactly when the credential is not
itself a record with the name of one of the proof's.
SRCLINE: crypto.c:408-447, crypto.c:590-619, crypto.c:833-875, auth.c:387-403 -/
theorem credential_and_proof (hsound : SoundPsa psa) (st : CryptoServiceState)
    (hpub : cryptoServicePublicKey psa st = some pub) (credential : CStr)
    (hcred : 59 ∉ credential) (hlen : 1 ≤ credential.length ∧ credential.length ≤ 63)
    (m : List UInt8) (hne : m ≠ []) (hsig : cryptoServiceSign psa st m = some sig) (hex : CStr)
    (hhex : hexDecode hex cryptoMaxPayload = some m) :
    (credential ++ 59 :: cryptoIdentityProof psa st hex).length < hesCredMax ∧
      (credentialMatches credential (credential ++ 59 :: cryptoIdentityProof psa st hex) = true ∧
        cryptoVerifyProof psa (credential ++ 59 :: cryptoIdentityProof psa st hex)
          (publicId pub) m = true ↔ ¬ NamesProofField credential) := by
  obtain ⟨hpubLen, hsigLen, hpoint, hverify⟩ := hsound.signed hpub hsig
  have hcap : cryptoMaxPayload = 128 := rfl
  have hpayloadMax : hesPayloadMax = 512 := rfl
  -- the challenge has at most 256 digits
  have hwhole : hesStrlcpy hesPayloadMax hex = hex := by
    apply List.take_of_length_le
    unfold hexDecode at hhex
    split at hhex
    · cases hhex
    · split at hhex
      · cases hhex
      · omega
  have hanswer := cryptoIdentityProof_answer hsound hpub hsig (hwhole.symm ▸ hhex) hne
  rw [hanswer]
  refine ⟨?_, ?_⟩
  · have hcredMax : hesCredMax = 512 := rfl
    rw [List.length_append, List.length_cons, length_proofText hpubLen hsigLen]
    omega
  · constructor
    · rintro ⟨-, haccepted⟩ hname
      rw [no_proof_behind credential _ _ m hcred (by omega) hname] at haccepted
      cases haccepted
    · intro hname
      refine ⟨credentialMatches_behind credential _ hcred, ?_⟩
      have hcarries := carriesProof_behind credential hcred hname hpubLen hsigLen
      exact (hcarries.verify hpubLen hsigLen hpoint m).mpr hverify

/-! ## Challenges and commands -/

/-- INTERNAL: the identity row answers with a proof or with its capability. -/
theorem cryptoOnGet_identity (st : CryptoServiceState) (out : HesClmeMsg)
    (hei : parseEi out.query = cryptoIdentityEi) :
    cryptoOnGet psa st out = if 0 < out.payloadLen then cryptoIdentityProof psa st out.payload
      else lit "ei=100;ks=32;it=256;au=64" := by
  unfold cryptoOnGet
  rw [hei]
  rfl

/-- INTERNAL: the answers of the identity row fit the payload. -/
theorem cryptoOnGet_fits (hsound : SoundPsa psa) (st : CryptoServiceState) (out : HesClmeMsg)
    (hei : parseEi out.query = cryptoIdentityEi) :
    (hesMsgSetPayloadStr out (cryptoOnGet psa st out)).payload = cryptoOnGet psa st out := by
  show hesStrlcpy hesPayloadMax (cryptoOnGet psa st out) = cryptoOnGet psa st out
  apply List.take_of_length_le
  rw [cryptoOnGet_identity st out hei]
  split
  · unfold cryptoIdentityProof
    split
    · decide
    · decide
    next challenge _ _ =>
      split
      next pub sig hpub hsig =>
        obtain ⟨hpubLen, hsigLen, -, -⟩ := hsound.signed hpub hsig
        have hlen := length_proofText hpubLen hsigLen
        have hfits : ¬ hesPayloadMax ≤ (proofText pub sig).length := by
          rw [hlen]
          decide
        simp only [hfits, if_false]
        rw [hlen]
        decide
      · decide
  · decide

/-- The answer of the identity row to a challenge is accepted as the proof of a command
exactly when the challenge decodes to the bytes that are signed for the command.
SRCLINE: crypto.c:408-447, crypto.c:464-521, crypto.c:817-875 -/
theorem answer_proves_its_challenge (hsound : SoundPsa psa) (hexact : ExactBytes psa)
    (st : CryptoServiceState) (hpub : cryptoServicePublicKey psa st = some pub)
    (out : HesClmeMsg) (hei : parseEi out.query = cryptoIdentityEi) (path payload : CStr) :
    cryptoVerifyProof psa (hesMsgSetPayloadStr out (cryptoOnGet psa st out)).payload
        (publicId pub) (commandText path payload) = true ↔
      0 < out.payloadLen ∧
        hexDecode (hesStrlcpy hesPayloadMax out.payload) cryptoMaxPayload =
          some (commandText path payload) ∧
        (cryptoServiceSign psa st (commandText path payload)).isSome = true := by
  rw [cryptoOnGet_fits hsound st out hei, cryptoOnGet_identity st out hei]
  by_cases hlen : 0 < out.payloadLen
  swap
  · rw [if_neg hlen, no_proof_in_error _ (by simp)]
    simp [hlen]
  rw [if_pos hlen]
  have hrefused : ∀ text, text ∈ [lit "error:bad-challenge", lit "error:proof-too-large",
      lit "error:no-identity-key", lit "ei=100;ks=32;it=256;au=64"] →
      ¬ cryptoVerifyProof psa text (publicId pub) (commandText path payload) = true := by
    intro text htext h
    rw [no_proof_in_error text htext] at h
    cases h
  cases hdecode : hexDecode (hesStrlcpy hesPayloadMax out.payload) cryptoMaxPayload with
  | none =>
    have htext : cryptoIdentityProof psa st out.payload = lit "error:bad-challenge" := by
      simp [cryptoIdentityProof, hdecode]
    rw [htext]
    simp [hrefused _ (by simp : lit "error:bad-challenge" ∈ _)]
  | some challenge =>
    by_cases hne : challenge = []
    · have htext : cryptoIdentityProof psa st out.payload = lit "error:bad-challenge" := by
        simp [cryptoIdentityProof, hdecode, hne]
      rw [htext, hne]
      have hcommand := (commandText_ne_nil path payload).symm
      simp [hrefused _ (by simp : lit "error:bad-challenge" ∈ _), hcommand]
    cases hsign : cryptoServiceSign psa st challenge with
    | none =>
      have htext : cryptoIdentityProof psa st out.payload = lit "error:no-identity-key" := by
        cases challenge with
        | nil => exact absurd rfl hne
        | cons b rest => simp [cryptoIdentityProof, hdecode, hpub, hsign]
      rw [htext]
      constructor
      · intro h
        exact absurd h (hrefused _ (by simp))
      · rintro ⟨-, hsame, hsigned⟩
        rw [← Option.some.inj hsame, hsign] at hsigned
        cases hsigned
    | some sig =>
      obtain ⟨hpubLen, hsigLen, hpoint, hverify⟩ := hsound.signed hpub hsign
      obtain ⟨hpi, hpk, hsg⟩ := proofField_proofText hpubLen hsigLen
      have hcarries : CarriesProof (proofText pub sig) pub sig := ⟨hpi, hpk, hsg⟩
      rw [cryptoIdentityProof_answer hsound hpub hsign hdecode hne,
        hcarries.verify hpubLen hsigLen hpoint]
      constructor
      · intro haccepted
        have hsame := hexact pub challenge _ sig hverify haccepted
        refine ⟨hlen, by rw [hsame], ?_⟩
        rw [hsame, hsign]
        rfl
      · rintro ⟨-, hsame, -⟩
        rw [← Option.some.inj hsame]
        exact hverify

/-! ## Commands with the same bytes -/

/-- A proof that is accepted for `m` is accepted for `m'` only if the two have the same path,
device and payload: whatever the policy, the address and the names of the users, as long as a proof
is required. -/
def ProofBound (psa : Psa) (m m' : HesClmeMsg) : Prop :=
  ∀ (policy : Json) (atAddress credInfo userName userName' : CStr), credInfo.length < hesCredMax →
    (authServiceRequiredProofPi (loadPolicy (some policy)) atAddress).isSome = true →
    coreAuthorize psa (loadPolicy (some policy)) (presenting m credInfo userName) atAddress =
      true →
    coreAuthorize psa (loadPolicy (some policy)) (presenting m' credInfo userName') atAddress =
      true →
    m'.path = m.path ∧ m'.deviceIndex = m.deviceIndex ∧ m'.payload = m.payload

/-- A policy that lets the holder of the credential "k" act on the lamp, with a proof of the
identity `pi`. -/
def provenPolicy (pi : CStr) : Json :=
  .object
    [(lit "authClasses", .array [.object [(lit "ci", .integer 1), (lit "fn", .string (lit "k")),
      (lit "st", .string (lit "ac")), (lit "pi", .integer 1), (lit "cr", .integer 1)]]),
    (lit "credentials", .array [.object [(lit "id", .integer 1), (lit "ci", .string (lit "k")),
      (lit "cv", .string (lit "ye"))]]),
    (lit "permissionGroups", .array [.object [(lit "pi", .integer 1),
      (lit "pt", .string (lit "ps")), (lit "pr", .integer 1)]]),
    (lit "permissionServices", .array [.object [(lit "pi", .integer 1),
      (lit "st", .string (lit "ac")), (lit "lo", .string (lit "/lx/ob/uo/li/ll/da/at")),
      (lit "vn", .string (lit "fl"))]]),
    (lit "proofRequired", .array [.object [(lit "at", .string (lit "/lx/ob/uo/li/ll/da/at")),
      (lit "pi", .string pi)]])]

/-- The row of the policy's last section. -/
def proofRow (pi : CStr) : Json :=
  .object [(lit "at", .string (lit "/lx/ob/uo/li/ll/da/at")), (lit "pi", .string pi)]

/-- INTERNAL: the policy asks for the proof. -/
theorem provenPolicy_requires (pi : CStr) (hpi : pi.length = 64) :
    authServiceRequiredProofPi (loadPolicy (some (provenPolicy pi)))
      (lit "/lx/ob/uo/li/ll/da/at") = some pi := by
  have hrows : (loadPolicy (some (provenPolicy pi))).proofRequirements =
      loadProofRequirements [proofRow pi] {} authMaxProofRequirements := rfl
  have hat : jobjStr (proofRow pi) (lit "at") [] hesPathMax = lit "/lx/ob/uo/li/ll/da/at" := rfl
  have hcopy : jobjStr (proofRow pi) (lit "pi") [] 65 = pi := by
    show hesStrlcpy 65 pi = pi
    apply List.take_of_length_le
    omega
  have hslot : loadProofRequirements [proofRow pi] {} authMaxProofRequirements =
      [{ atAddress := lit "/lx/ob/uo/li/ll/da/at", publicId := pi }] := by
    unfold authMaxProofRequirements loadProofRequirements
    simp only [hat, hcopy, hpi]
    rfl
  unfold authServiceRequiredProofPi
  rw [hrows, hslot]
  rfl

/-- INTERNAL: the policy lets the holder of the credential act, whatever rides with it. -/
theorem provenPolicy_authorizes (pi rest : CStr) :
    authServiceAuthorize (loadPolicy (some (provenPolicy pi))) (lit "k" ++ 59 :: rest) []
      (lit "/lx/ob/uo/li/ll/da/at") = true := by
  have hmatch := credentialMatches_behind (lit "k") rest (by decide)
  have hcredentials : (loadPolicy (some (provenPolicy pi))).credentials =
      [{ credId := 1, info := lit "k", valid := true }] := rfl
  unfold authServiceAuthorize
  rw [hcredentials]
  simp only [List.find?_cons, hmatch]
  rfl

/-- INTERNAL: with a signature over the bytes of a command, the policy accepts the command. -/
theorem provenPolicy_accepts (hsound : SoundPsa psa) (key : CryptoServiceState)
    (hpub : cryptoServicePublicKey psa key = some pub) (m : HesClmeMsg)
    (hsig : cryptoServiceSign psa key (commandText m.path m.payload) = some sig) :
    coreAuthorize psa (loadPolicy (some (provenPolicy (publicId pub))))
      (presenting m (lit "k" ++ 59 :: proofText pub sig) []) (lit "/lx/ob/uo/li/ll/da/at") =
        true := by
  obtain ⟨hpubLen, hsigLen, hpoint, hverify⟩ := hsound.signed hpub hsig
  have hpi := length_publicId hpubLen
  have hpolicy := provenPolicy_authorizes (publicId pub) (proofText pub sig)
  have hcarries := carriesProof_behind (lit "k") (by decide) (by decide) hpubLen hsigLen
  unfold coreAuthorize presenting
  rw [hpolicy, provenPolicy_requires _ hpi]
  show cryptoVerifyProof psa (lit "k" ++ 59 :: proofText pub sig) (publicId pub)
    (commandText m.path m.payload) = true
  exact (hcarries.verify hpubLen hsigLen hpoint _).mpr hverify

/-- INTERNAL: what an accepted command with a required proof has shown. -/
theorem coreAuthorize_proven (auth : AuthServiceState) (msg : HesClmeMsg) (atAddress : CStr)
    (hrequired : (authServiceRequiredProofPi auth atAddress).isSome = true)
    (h : coreAuthorize psa auth msg atAddress = true) :
    ∃ pi, cryptoVerifyProof psa msg.credInfo pi (commandText msg.path msg.payload) = true := by
  obtain ⟨pi, hpi⟩ := Option.isSome_iff_exists.mp hrequired
  unfold coreAuthorize at h
  rw [hpi] at h
  split at h
  · cases h
  · exact ⟨pi, h⟩

/-- INTERNAL: one credential text carries one signature, for one message. -/
theorem one_message_for_a_proof (hexact : ExactBytes psa) (credInfo pi pi' : CStr)
    (msg msg' : List UInt8) (h : cryptoVerifyProof psa credInfo pi msg = true)
    (h' : cryptoVerifyProof psa credInfo pi' msg' = true) : msg' = msg := by
  obtain ⟨_, pkHex, sigHex, pub, sig, -, hpk, hsg, hpub, hsig, -, -, -, -, hverify⟩ :=
    (cryptoVerifyProof_iff _ _ _).mp h
  obtain ⟨_, pkHex', sigHex', pub', sig', -, hpk', hsg', hpub', hsig', -, -, -, -, hverify'⟩ :=
    (cryptoVerifyProof_iff _ _ _).mp h'
  obtain rfl := Option.some.inj (hpk.symm.trans hpk')
  obtain rfl := Option.some.inj (hsg.symm.trans hsg')
  obtain rfl := Option.some.inj (hpub.symm.trans hpub')
  obtain rfl := Option.some.inj (hsig.symm.trans hsig')
  exact hexact pub msg msg' sig hverify hverify'

/-- A proof is bound to the path and the payload of its command. It is bound to the device
only as far as these two tell the device: exactly when commands with the same path and
payload are for the same device.
SRCLINE: crypto.c:817-831, crypto.c:833-875, core.c:150-175 -/
theorem proof_binds_path_and_payload (hsound : SoundPsa psa) (hexact : ExactBytes psa)
    (m m' : HesClmeMsg) (hpath : m.path.length < hesPathMax) (hpath' : m'.path.length < hesPathMax)
    (hline : 10 ∉ m.path) (hline' : 10 ∉ m'.path) (hpayload : m.payload.length ≤ hesPayloadMax)
    (hpayload' : m'.payload.length ≤ hesPayloadMax) (key : CryptoServiceState)
    (hpub : cryptoServicePublicKey psa key = some pub)
    (hsig : cryptoServiceSign psa key (commandText m.path m.payload) = some sig) :
    ProofBound psa m m' ↔
      (m'.path = m.path → m'.payload = m.payload → m'.deviceIndex = m.deviceIndex) := by
  obtain ⟨hpubLen, hsigLen, -, -⟩ := hsound.signed hpub hsig
  constructor
  · intro hbound hsamePath hsamePayload
    -- the owner's proof for the one command, shown with the other
    have haccepted := provenPolicy_accepts hsound key hpub m hsig
    have hsig' : cryptoServiceSign psa key (commandText m'.path m'.payload) = some sig := by
      rw [hsamePath, hsamePayload]
      exact hsig
    have haccepted' := provenPolicy_accepts hsound key hpub m' hsig'
    have hfits : (lit "k" ++ 59 :: proofText pub sig).length < hesCredMax := by
      rw [List.length_append, List.length_cons, length_proofText hpubLen hsigLen]
      decide
    have hrequired : (authServiceRequiredProofPi (loadPolicy (some (provenPolicy (publicId pub))))
        (lit "/lx/ob/uo/li/ll/da/at")).isSome = true := by
      rw [provenPolicy_requires _ (length_publicId hpubLen)]
      rfl
    exact (hbound _ _ _ _ _ hfits hrequired haccepted haccepted').2.1
  · intro hdevice policy atAddress credInfo userName userName' _ hrequired haccepted haccepted'
    obtain ⟨pi, hproof⟩ := coreAuthorize_proven _ _ _ hrequired haccepted
    obtain ⟨pi', hproof'⟩ := coreAuthorize_proven _ _ _ hrequired haccepted'
    have hsame : commandText m'.path m'.payload = commandText m.path m.payload :=
      one_message_for_a_proof hexact credInfo pi pi' _ _ hproof hproof'
    rw [commandText_eq _ _ hpath hpayload, commandText_eq _ _ hpath' hpayload'] at hsame
    obtain ⟨hsamePath, hsamePayload⟩ := commandText_inj hline hline' hsame
    exact ⟨hsamePath, hdevice hsamePath hsamePayload, hsamePayload⟩

/-! ## A P-256 key that commands a lamp -/

/-- Bytes given by their digits. -/
def ofHex (digits : String) : List UInt8 := (scanHexPairs (lit digits)).getD []

/-- A private scalar. -/
def ownerScalar : List UInt8 :=
  ofHex "c9afa9d845ba75166b5c215767b1d6934e50c3db36e89b127b8a622b120f6721"

/-- Its point. -/
def ownerPub : List UInt8 :=
  ofHex ("0460fed4ba255a9d31c961eb74c6356d68c049b8923b61fa6ce669622e60f29fb6" ++
    "7903fe1008b8bc99a41ae9e95628bc64f2f1b20c2d7e9f5177a3c294d4462299")

/-- The command that switches the lamp behind device 2 on. -/
def switchOn : HesClmeMsg where
  path := lit "/lx/ob/uo/li/ll/da/cv"
  verb := .event
  deviceIndex := 2
  payloadLen := 1
  payload := lit "1"

/-- SHA-256 of the command's path, a line feed and its payload. -/
def switchOnDigest : List UInt8 :=
  ofHex "3bdaf9bcba1759d06a6984d3bccfbebeb7ce61be1687c3eaa5b1f0ad4807d29b"

/-- The owner's deterministic signature of it. -/
def switchOnSig : List UInt8 :=
  ofHex ("4c02a216994ea98e2a995316a3255b3815c4ee4dd6543845f853bab9e12d9e74" ++
    "160c7005d7fe79b889783f137f7f0d9df800eb0212ab7f890d2dd687c833395d")

/-- PSA as it works on this key and this message. On anything else it reports an error. -/
def ownerPsa : Psa where
  cryptoInit := .success
  hashCompute msg :=
    if msg = lit "/lx/ob/uo/li/ll/da/cv\n1" then (.success, switchOnDigest)
    else (.errorGenericError, [])
  importKeyPair scalar := if scalar = ownerScalar then .success else .errorInvalidArgument
  signHash scalar digest :=
    if scalar = ownerScalar ∧ digest = switchOnDigest then (.success, switchOnSig)
    else (.errorGenericError, [])
  exportPublicKey scalar :=
    if scalar = ownerScalar then (.success, ownerPub) else (.errorGenericError, [])
  importPublicKey pub := if pub = ownerPub then .success else .errorInvalidArgument
  verifyHash pub digest sig :=
    if pub = ownerPub ∧ digest = switchOnDigest ∧ sig = switchOnSig then .success
    else .errorInvalidSignature
  importCipherKey _ := .errorNotSupported
  cipherDecrypt _ _ _ := (.errorNotSupported, [])
  aeadDecrypt _ _ _ := (.errorNotSupported, [])

/-- The owner's service state. -/
def ownerKey : CryptoServiceState := { identityScalar := some ownerScalar }

/-- INTERNAL: the owner's point is exported uncompressed. -/
theorem ownerPub_shape : ownerPub.length = cryptoIdentityPubBytes ∧ ownerPub.head? = some 4 := by
  unfold ownerPub ofHex
  rw [lit_append, lit_ofList, lit_ofList]
  decide +kernel

/-- INTERNAL: the signature has its length. -/
theorem switchOnSig_length : switchOnSig.length = cryptoIdentitySigBytes := by
  unfold switchOnSig ofHex
  rw [lit_append, lit_ofList, lit_ofList]
  decide +kernel

/-- INTERNAL: so has the digest. -/
theorem switchOnDigest_length : switchOnDigest.length = 32 := by
  unfold switchOnDigest ofHex
  rw [lit_ofList]
  decide +kernel

/-- INTERNAL: the bytes that are signed for the command. -/
theorem switchOn_text :
    commandText switchOn.path switchOn.payload = lit "/lx/ob/uo/li/ll/da/cv\n1" := by
  decide +kernel

/-- INTERNAL: the key, its point and its signature fit together. -/
theorem ownerPsa_sound : SoundPsa ownerPsa := by
  constructor
  · intro scalar pub _ hexport
    simp only [ownerPsa] at hexport
    split at hexport
    · obtain rfl := (Prod.mk.inj hexport).2
      exact ownerPub_shape.2
    · cases (Prod.mk.inj hexport).1
  · intro scalar pub digest sig _ hexport hsign
    simp only [ownerPsa] at hexport hsign
    split at hexport
    · split at hsign
      next hinput =>
        obtain rfl := (Prod.mk.inj hexport).2
        obtain rfl := (Prod.mk.inj hsign).2
        simp [ownerPsa, hinput.2]
      · cases (Prod.mk.inj hsign).1
    · cases (Prod.mk.inj hexport).1

/-- INTERNAL: only one message is ever accepted. -/
theorem ownerPsa_exact : ExactBytes ownerPsa := by
  have honly : ∀ pub msg sig, cryptoVerifyMessage ownerPsa pub msg sig = true →
      msg = lit "/lx/ob/uo/li/ll/da/cv\n1" := by
    intro pub msg sig h
    by_contra hne
    have hnone : sha256Digest ownerPsa msg = none := by
      simp [sha256Digest, ownerPsa, hne]
    unfold cryptoVerifyMessage at h
    rw [hnone] at h
    simp at h
  intro pub msg msg' sig h h'
  rw [honly pub msg sig h, honly pub msg' sig h']

/-- INTERNAL: the owner's key signs the command. -/
theorem owner_signs : cryptoServicePublicKey ownerPsa ownerKey = some ownerPub ∧
    cryptoServiceSign ownerPsa ownerKey (commandText switchOn.path switchOn.payload) =
      some switchOnSig := by
  have hdigest : sha256Digest ownerPsa (lit "/lx/ob/uo/li/ll/da/cv\n1") = some switchOnDigest := by
    unfold sha256Digest ownerPsa
    simp [switchOnDigest_length]
  refine ⟨?_, ?_⟩
  · unfold cryptoServicePublicKey ownerKey ownerPsa
    simp [ownerPub_shape.1]
  · rw [switchOn_text]
    unfold cryptoServiceSign ownerKey
    dsimp only
    rw [hdigest]
    simp [ownerPsa, switchOnSig_length]

/-- The same command for the lamp behind device 3. -/
def switchOther : HesClmeMsg := { switchOn with deviceIndex := 3 }

/-- The proof captured with the command for device 2 lets the command for device 3 pass. -/
theorem captured_proof_moves_on :
    SoundPsa ownerPsa ∧ ExactBytes ownerPsa ∧ switchOn.path.length < hesPathMax ∧
      10 ∉ switchOn.path ∧ switchOther.path = switchOn.path ∧
      switchOther.deviceIndex ≠ switchOn.deviceIndex ∧
      authServiceRequiredProofPi (loadPolicy (some (provenPolicy (publicId ownerPub))))
        (lit "/lx/ob/uo/li/ll/da/at") = some (publicId ownerPub) ∧
      (∀ m ∈ [switchOn, switchOther],
        coreAuthorize ownerPsa (loadPolicy (some (provenPolicy (publicId ownerPub))))
          (presenting m (lit "k" ++ 59 :: proofText ownerPub switchOnSig) [])
          (lit "/lx/ob/uo/li/ll/da/at") = true) ∧
      ¬ ProofBound ownerPsa switchOn switchOther := by
  have haccepted : ∀ m ∈ [switchOn, switchOther],
      coreAuthorize ownerPsa (loadPolicy (some (provenPolicy (publicId ownerPub))))
        (presenting m (lit "k" ++ 59 :: proofText ownerPub switchOnSig) [])
        (lit "/lx/ob/uo/li/ll/da/at") = true := by
    intro m hm
    apply provenPolicy_accepts ownerPsa_sound ownerKey owner_signs.1
    simp only [List.mem_cons, List.not_mem_nil, or_false] at hm
    rcases hm with rfl | rfl
    · exact owner_signs.2
    · exact owner_signs.2
  have hrequired := provenPolicy_requires (publicId ownerPub) (length_publicId ownerPub_shape.1)
  refine ⟨ownerPsa_sound, ownerPsa_exact, by decide, by decide, rfl, by decide, hrequired,
    haccepted, ?_⟩
  intro hbound
  have hfits : (lit "k" ++ 59 :: proofText ownerPub switchOnSig).length < hesCredMax := by
    rw [List.length_append, List.length_cons, length_proofText ownerPub_shape.1 switchOnSig_length]
    decide
  have hsame := hbound _ _ _ _ _ hfits (by rw [hrequired]; rfl)
    (haccepted switchOn (by simp)) (haccepted switchOther (by simp))
  exact absurd hsame.2.1 (by decide)

/-- A command at another address is not passed by it. -/
theorem proof_binds_path_and_payload_lamp :
    ProofBound ownerPsa switchOn { switchOn with path := lit "/lx/ob/uo/li/ll/aa/cv" } :=
  (proof_binds_path_and_payload ownerPsa_sound ownerPsa_exact switchOn
    { switchOn with path := lit "/lx/ob/uo/li/ll/aa/cv" } (by decide) (by decide) (by decide)
    (by decide) (by decide) (by decide) ownerKey owner_signs.1 owner_signs.2).mpr
    fun hpath => absurd hpath (by decide)

/-- A challenge to the identity row: the hex of the command's bytes. -/
def commandChallenge : HesClmeMsg where
  verb := .event
  query := lit "ei=100"
  payloadLen := 46
  payload := hexText upperDigit (lit "/lx/ob/uo/li/ll/da/cv\n1")

/-- INTERNAL: the challenge goes to the identity row. -/
theorem commandChallenge_ei : parseEi commandChallenge.query = cryptoIdentityEi := by
  decide +kernel

/-- INTERNAL: it decodes to the bytes of the command. -/
theorem commandChallenge_decodes :
    hexDecode (hesStrlcpy hesPayloadMax commandChallenge.payload) cryptoMaxPayload =
      some (commandText switchOn.path switchOn.payload) := by
  have hlen : (lit "/lx/ob/uo/li/ll/da/cv\n1").length = 23 := by
    rw [lit_ofList]
    rfl
  have hwhole : hesStrlcpy hesPayloadMax commandChallenge.payload = commandChallenge.payload := by
    apply List.take_of_length_le
    show (hexText upperDigit _).length ≤ _
    rw [length_hexText, hlen]
    decide
  rw [hwhole, switchOn_text]
  exact hexDecode_hexText writesHex_upper _ _ (by rw [hlen]; decide)

/-- The gateway's answer to it is accepted as the proof of the command. -/
theorem challenge_answer_commands :
    SoundPsa ownerPsa ∧ ExactBytes ownerPsa ∧
      cryptoServicePublicKey ownerPsa ownerKey = some ownerPub ∧
      parseEi commandChallenge.query = cryptoIdentityEi ∧
      cryptoVerifyProof ownerPsa
        (hesMsgSetPayloadStr commandChallenge
          (cryptoOnGet ownerPsa ownerKey commandChallenge)).payload
        (publicId ownerPub) (commandText switchOn.path switchOn.payload) = true := by
  refine ⟨ownerPsa_sound, ownerPsa_exact, owner_signs.1, commandChallenge_ei, ?_⟩
  obtain ⟨hpubLen, hsigLen, hpoint, hverify⟩ := ownerPsa_sound.signed owner_signs.1 owner_signs.2
  obtain ⟨hpi, hpk, hsg⟩ := proofField_proofText hpubLen hsigLen
  have hcarries : CarriesProof (proofText ownerPub switchOnSig) ownerPub switchOnSig :=
    ⟨hpi, hpk, hsg⟩
  rw [cryptoOnGet_fits ownerPsa_sound _ _ commandChallenge_ei,
    cryptoOnGet_identity _ _ commandChallenge_ei, if_pos (by decide),
    cryptoIdentityProof_answer ownerPsa_sound owner_signs.1 owner_signs.2
      commandChallenge_decodes (commandText_ne_nil _ _)]
  exact (hcarries.verify hpubLen hsigLen hpoint _).mpr hverify

/-- It is not accepted for the command that switches the lamp off. -/
theorem answer_proves_its_challenge_off :
    parseEi commandChallenge.query = cryptoIdentityEi ∧
      ¬ cryptoVerifyProof ownerPsa
        (hesMsgSetPayloadStr commandChallenge
          (cryptoOnGet ownerPsa ownerKey commandChallenge)).payload
        (publicId ownerPub) (commandText switchOn.path (lit "0")) = true := by
  refine ⟨commandChallenge_ei, ?_⟩
  rw [answer_proves_its_challenge ownerPsa_sound ownerPsa_exact ownerKey owner_signs.1
    commandChallenge commandChallenge_ei]
  rintro ⟨-, hdecode, -⟩
  rw [commandChallenge_decodes, Option.some.injEq] at hdecode
  exact absurd hdecode (by decide +kernel)

/-- A stored credential that is a record named "pi" hides the proof behind it. -/
theorem credential_hides_proof :
    SoundPsa ownerPsa ∧ cryptoServicePublicKey ownerPsa ownerKey = some ownerPub ∧
      59 ∉ lit "pi=house" ∧ (lit "pi=house").length = 8 ∧
      cryptoServiceSign ownerPsa ownerKey (lit "/lx/ob/uo/li/ll/da/cv\n1") = some switchOnSig ∧
      cryptoVerifyProof ownerPsa (lit "pi=house" ++ 59 ::
        cryptoIdentityProof ownerPsa ownerKey (hexText upperDigit (lit "/lx/ob/uo/li/ll/da/cv\n1")))
        (publicId ownerPub) (lit "/lx/ob/uo/li/ll/da/cv\n1") = false :=
  ⟨ownerPsa_sound, owner_signs.1, by decide, by decide, switchOn_text ▸ owner_signs.2,
    no_proof_behind _ _ _ _ (by decide) (by decide) (by decide)⟩

/-- A plain token rides with the proof. -/
theorem credential_and_proof_token :
    credentialMatches (lit "parent-key") (lit "parent-key" ++ 59 ::
        cryptoIdentityProof ownerPsa ownerKey (hexText lowerDigit (lit "/lx/ob/uo/li/ll/da/cv\n1"))) =
          true ∧
      cryptoVerifyProof ownerPsa (lit "parent-key" ++ 59 ::
        cryptoIdentityProof ownerPsa ownerKey (hexText lowerDigit (lit "/lx/ob/uo/li/ll/da/cv\n1")))
        (publicId ownerPub) (lit "/lx/ob/uo/li/ll/da/cv\n1") = true :=
  (credential_and_proof ownerPsa_sound ownerKey owner_signs.1 (lit "parent-key") (by decide)
    (by decide) (lit "/lx/ob/uo/li/ll/da/cv\n1") (by decide) owner_signs.2
    (hexText lowerDigit (lit "/lx/ob/uo/li/ll/da/cv\n1"))
    (hexDecode_hexText writesHex_lower _ _ (by decide))).2.mpr (by decide)

end OpenHes.Analysis
