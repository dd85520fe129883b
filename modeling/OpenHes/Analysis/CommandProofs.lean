import OpenHes.Model.Gateway
import OpenHes.Analysis.HexCodec

/-!
# What a proof proves

A proof names an identity, brings its key and signs one message. The service writes the
proofs it is asked for and checks the ones it is shown, so the text goes both ways: what
`crypto_identity_proof` writes is read back field by field, also behind a credential. What is
signed for a command is its path and its payload.
-/

set_option autoImplicit false

namespace OpenHes.Analysis

open OpenHes.Library OpenHes.Model

/-! ## The signature scheme -/

/-- The keys of PSA fit together: the point it exports for a scalar is uncompressed, and a
signature made with the scalar verifies under the point. -/
structure SoundPsa (psa : Psa) : Prop where
  point : ∀ scalar pub, psa.importKeyPair scalar = .success →
    psa.exportPublicKey scalar = (.success, pub) → pub.head? = some 4
  verifies : ∀ scalar pub digest sig, psa.importKeyPair scalar = .success →
    psa.exportPublicKey scalar = (.success, pub) → psa.signHash scalar digest = (.success, sig) →
    psa.importPublicKey pub = .success ∧ psa.verifyHash pub digest sig = .success

/-- A signature is accepted for the exact bytes that were signed and for no others. -/
def ExactBytes (psa : Psa) : Prop :=
  ∀ pub msg msg' sig, cryptoVerifyMessage psa pub msg sig = true →
    cryptoVerifyMessage psa pub msg' sig = true → msg' = msg

/-- `pi` of a key: the X coordinate in lower case. -/
def publicId (pub : List UInt8) : CStr := hexText lowerDigit ((pub.drop 1).take 32)

variable {psa : Psa}

/-- INTERNAL: a public key that was exported. -/
theorem cryptoServicePublicKey_some {st : CryptoServiceState} {pub : List UInt8}
    (h : cryptoServicePublicKey psa st = some pub) :
    ∃ scalar, st.identityScalar = some scalar ∧ psa.cryptoInit = .success ∧
      psa.importKeyPair scalar = .success ∧ psa.exportPublicKey scalar = (.success, pub) ∧
      pub.length = cryptoIdentityPubBytes := by
  unfold cryptoServicePublicKey at h
  split at h
  · cases h
  next scalar hscalar =>
    split at h
    · cases h
    next hinit =>
      split at h
      · cases h
      next himport =>
        split at h
        next pub' hexport =>
          split at h
          next hlen =>
            obtain rfl := Option.some.inj h
            exact ⟨scalar, hscalar, not_not.mp hinit, not_not.mp himport, hexport, hlen⟩
          · cases h
        · cases h

/-- INTERNAL: a signature that was made. -/
theorem cryptoServiceSign_some {st : CryptoServiceState} {msg sig : List UInt8}
    (h : cryptoServiceSign psa st msg = some sig) :
    ∃ scalar digest, st.identityScalar = some scalar ∧ psa.importKeyPair scalar = .success ∧
      sha256Digest psa msg = some digest ∧ psa.signHash scalar digest = (.success, sig) ∧
      sig.length = cryptoIdentitySigBytes := by
  unfold cryptoServiceSign at h
  split at h
  · cases h
  next scalar hscalar =>
    split at h
    · cases h
    · split at h
      · cases h
      next digest hdigest =>
        split at h
        · cases h
        next himport =>
          split at h
          next sig' hsign =>
            split at h
            next hlen =>
              obtain rfl := Option.some.inj h
              exact ⟨scalar, digest, hscalar, not_not.mp himport, hdigest, hsign, hlen⟩
            · cases h
          · cases h

/-- INTERNAL: what the service signs verifies under the key it publishes. -/
theorem SoundPsa.signed (hpsa : SoundPsa psa) {st : CryptoServiceState} {pub msg sig : List UInt8}
    (hpub : cryptoServicePublicKey psa st = some pub)
    (hsig : cryptoServiceSign psa st msg = some sig) :
    pub.length = cryptoIdentityPubBytes ∧ sig.length = cryptoIdentitySigBytes ∧
      pub.head? = some 4 ∧ cryptoVerifyMessage psa pub msg sig = true := by
  obtain ⟨scalar, hscalar, hinit, himport, hexport, hpubLen⟩ := cryptoServicePublicKey_some hpub
  obtain ⟨scalar', digest, hscalar', -, hdigest, hsign, hsigLen⟩ := cryptoServiceSign_some hsig
  obtain rfl := Option.some.inj (hscalar.symm.trans hscalar')
  have hpoint := hpsa.point scalar pub himport hexport
  obtain ⟨himportPub, hverify⟩ := hpsa.verifies scalar pub digest sig himport hexport hsign
  refine ⟨hpubLen, hsigLen, hpoint, ?_⟩
  unfold cryptoVerifyMessage
  rw [if_neg (by simp [hpoint]), if_neg (by simp [hinit]), hdigest]
  simp [himportPub, hverify]

/-! ## Records -/

/-- Characters that may stand in the value of a record: no ';' and no '='. -/
def PlainValue (value : CStr) : Prop := ∀ c ∈ value, c ≠ 59 ∧ c ≠ 61

/-- INTERNAL: hex digits are plain. -/
theorem plainValue_hexText {digit : ℕ → UInt8} (hdigit : ∀ n < 16, digit n ≠ 59 ∧ digit n ≠ 61)
    (data : List UInt8) : PlainValue (hexText digit data) :=
  hexText_forall _ hdigit data

/-- INTERNAL: the digits of both cases are plain. -/
theorem plain_upperDigit : ∀ n < 16, upperDigit n ≠ 59 ∧ upperDigit n ≠ 61 := by decide

/-- INTERNAL: the digits of both cases are plain. -/
theorem plain_lowerDigit : ∀ n < 16, lowerDigit n ≠ 59 ∧ lowerDigit n ≠ 61 := by decide

/-- INTERNAL: the name of a record is what stands before its first '='. -/
theorem recordNamed_record (code name value : CStr) (hname : 61 ∉ name) :
    recordNamed code (name ++ 61 :: value) = decide (name = code) := by
  have htake : (name ++ 61 :: value).takeWhile (fun c => decide (c ≠ 61)) = name := by
    rw [List.takeWhile_append_of_pos]
    · simp
    · intro c hc
      have hne : c ≠ 61 := fun h => hname (h ▸ hc)
      simp [hne]
  unfold recordNamed
  rw [htake]
  simp

/-- INTERNAL: a record in front of a text is looked at first. -/
theorem proofField_cons (record rest code : CStr) (outCap : ℕ) (hrecord : 59 ∉ record) :
    proofField (record ++ 59 :: rest) code outCap =
      if recordNamed code record = true then
        if outCap ≤ (record.drop (code.length + 1)).length then none
        else some (record.drop (code.length + 1))
      else proofField rest code outCap := by
  unfold proofField
  rw [List.splitOn_append_cons_self, List.splitOn_eq_singleton hrecord, List.singleton_append,
    List.find?_cons]
  cases recordNamed code record <;> simp

/-- INTERNAL: the last record of a text. -/
theorem proofField_last (record code : CStr) (outCap : ℕ) (hrecord : 59 ∉ record) :
    proofField record code outCap =
      if recordNamed code record = true then
        if outCap ≤ (record.drop (code.length + 1)).length then none
        else some (record.drop (code.length + 1))
      else none := by
  unfold proofField
  rw [List.splitOn_eq_singleton hrecord, List.find?_cons]
  cases recordNamed code record <;> simp

/-! ## The text of a proof -/

variable {pub sig : List UInt8}

/-- INTERNAL: a proof is three records, whose values are not cut. -/
theorem proofText_records (hpub : pub.length = cryptoIdentityPubBytes)
    (hsig : sig.length = cryptoIdentitySigBytes) :
    proofText pub sig = (lit "pi" ++ 61 :: publicId pub) ++
      59 :: ((lit "pk" ++ 61 :: hexText upperDigit pub) ++
        59 :: (lit "sig" ++ 61 :: hexText upperDigit sig)) := by
  have hx : ((pub.drop 1).take 32).take ((65 - 1) / 2) = (pub.drop 1).take 32 := by
    rw [List.take_take]
    rfl
  have hp : pub.take ((cryptoIdentityPubBytes * 2 + 1 - 1) / 2) = pub := by
    apply List.take_of_length_le
    simp [hpub]
  have hs : sig.take ((cryptoIdentitySigBytes * 2 + 1 - 1) / 2) = sig := by
    apply List.take_of_length_le
    simp [hsig]
  unfold proofText hexEncodeLower hexEncode publicId
  rw [hx, hp, hs]
  simp [lit]

/-- INTERNAL: a public id has 64 characters. -/
theorem length_publicId (hpub : pub.length = cryptoIdentityPubBytes) :
    (publicId pub).length = 64 := by
  have hlen : cryptoIdentityPubBytes = 65 := rfl
  unfold publicId
  rw [length_hexText, List.length_take, List.length_drop]
  omega

/-- INTERNAL: a proof has 334. -/
theorem length_proofText (hpub : pub.length = cryptoIdentityPubBytes)
    (hsig : sig.length = cryptoIdentitySigBytes) : (proofText pub sig).length = 334 := by
  have hpi := length_publicId hpub
  have hpubLen : cryptoIdentityPubBytes = 65 := rfl
  have hsigLen : cryptoIdentitySigBytes = 64 := rfl
  rw [proofText_records hpub hsig]
  simp only [List.length_append, List.length_cons, length_hexText, hpi]
  show 2 + (64 + 1) + (2 + (2 * pub.length + 1) + (3 + (2 * sig.length + 1) + 1) + 1) = 334
  omega

/-- INTERNAL: **round trip of a proof.** Each field of a proof reads back. -/
theorem proofField_proofText (hpub : pub.length = cryptoIdentityPubBytes)
    (hsig : sig.length = cryptoIdentitySigBytes) :
    proofField (proofText pub sig) (lit "pi") 65 = some (publicId pub) ∧
      proofField (proofText pub sig) (lit "pk") (cryptoIdentityPubBytes * 2 + 1) =
        some (hexText upperDigit pub) ∧
      proofField (proofText pub sig) (lit "sig") (cryptoIdentitySigBytes * 2 + 1) =
        some (hexText upperDigit sig) := by
  have hplain : ∀ name value, 59 ∉ name → PlainValue value → 59 ∉ name ++ 61 :: value := by
    intro name value hname hvalue hmem
    simp only [List.mem_append, List.mem_cons] at hmem
    rcases hmem with h | h | h
    · exact hname h
    · exact absurd h (by decide)
    · exact (hvalue 59 h).1 rfl
  have hpi : 59 ∉ lit "pi" ++ 61 :: publicId pub :=
    hplain _ _ (by decide) (plainValue_hexText plain_lowerDigit _)
  have hpk : 59 ∉ lit "pk" ++ 61 :: hexText upperDigit pub :=
    hplain _ _ (by decide) (plainValue_hexText plain_upperDigit _)
  have hsg : 59 ∉ lit "sig" ++ 61 :: hexText upperDigit sig :=
    hplain _ _ (by decide) (plainValue_hexText plain_upperDigit _)
  have hdrop : ∀ name value : CStr, (name ++ 61 :: value).drop (name.length + 1) = value := by
    intro name value
    simp [List.drop_append]
  have hpiName : (61 : UInt8) ∉ lit "pi" := by decide
  have hpkName : (61 : UInt8) ∉ lit "pk" := by decide
  have hsigName : (61 : UInt8) ∉ lit "sig" := by decide
  have hpiPk : lit "pi" ≠ lit "pk" := by decide
  have hpiSig : lit "pi" ≠ lit "sig" := by decide
  have hpkSig : lit "pk" ≠ lit "sig" := by decide
  rw [proofText_records hpub hsig]
  refine ⟨?_, ?_, ?_⟩
  · rw [proofField_cons _ _ _ _ hpi, recordNamed_record _ _ _ hpiName, hdrop,
      length_publicId hpub]
    simp
  · rw [proofField_cons _ _ _ _ hpi, recordNamed_record _ _ _ hpiName,
      proofField_cons _ _ _ _ hpk, recordNamed_record _ _ _ hpkName, hdrop, length_hexText]
    simp [hpub, hpiPk]
    omega
  · rw [proofField_cons _ _ _ _ hpi, recordNamed_record _ _ _ hpiName,
      proofField_cons _ _ _ _ hpk, recordNamed_record _ _ _ hpkName,
      proofField_last _ _ _ hsg, recordNamed_record _ _ _ hsigName, hdrop, length_hexText]
    simp [hsig, hpiSig, hpkSig]
    omega

/-- INTERNAL: a key matches the identity it publishes. -/
theorem cryptoPiMatches_publicId (hpub : pub.length = cryptoIdentityPubBytes)
    (hpoint : pub.head? = some 4) : cryptoPiMatches pub (publicId pub) = true := by
  have hlower : (publicId pub).map Binary64.lower = publicId pub := by
    have hdigits : ∀ n < 16, Binary64.lower (lowerDigit n) = id (lowerDigit n) := by decide
    have hall : ∀ c ∈ publicId pub, Binary64.lower c = id c := hexText_forall _ hdigits _
    rw [List.map_congr_left hall, List.map_id]
  have hdigits : hexText lowerDigit ((pub.drop 1).take 32) = publicId pub := rfl
  unfold cryptoPiMatches
  rw [hlower, hdigits]
  simp [hpoint, length_publicId hpub]

/-! ## Checking a proof -/

/-- INTERNAL: what it takes for a proof to be accepted.
SRCLINE: crypto.c:833-875 -/
theorem cryptoVerifyProof_iff (credInfo expectedPi : CStr) (msg : List UInt8) :
    cryptoVerifyProof psa credInfo expectedPi msg = true ↔ ∃ pi pkHex sigHex pub sig,
      proofField credInfo (lit "pi") 65 = some pi ∧
      proofField credInfo (lit "pk") (cryptoIdentityPubBytes * 2 + 1) = some pkHex ∧
      proofField credInfo (lit "sig") (cryptoIdentitySigBytes * 2 + 1) = some sigHex ∧
      hexDecode pkHex cryptoIdentityPubBytes = some pub ∧
      hexDecode sigHex cryptoIdentitySigBytes = some sig ∧
      pub.length = cryptoIdentityPubBytes ∧ sig.length = cryptoIdentitySigBytes ∧
      cryptoPiMatches pub expectedPi = true ∧ cryptoPiMatches pub pi = true ∧
      cryptoVerifyMessage psa pub msg sig = true := by
  unfold cryptoVerifyProof
  constructor
  · intro h
    split at h
    next pi pkHex sigHex hpi hpk hsig =>
      split at h
      next pub sig hpub hsigBytes =>
        simp only [Bool.and_eq_true, decide_eq_true_eq] at h
        obtain ⟨⟨⟨⟨hpubLen, hsigLen⟩, hexpected⟩, hown⟩, hverify⟩ := h
        exact ⟨pi, pkHex, sigHex, pub, sig, hpi, hpk, hsig, hpub, hsigBytes, hpubLen, hsigLen,
          hexpected, hown, hverify⟩
      · cases h
    · cases h
  · rintro ⟨pi, pkHex, sigHex, pub, sig, hpi, hpk, hsig, hpub, hsigBytes, hpubLen, hsigLen,
      hexpected, hown, hverify⟩
    simp [hpi, hpk, hsig, hpub, hsigBytes, hpubLen, hsigLen, hexpected, hown, hverify]

/-- The fields of a credential text are those of a proof. -/
structure CarriesProof (credInfo : CStr) (pub sig : List UInt8) : Prop where
  pi : proofField credInfo (lit "pi") 65 = some (publicId pub)
  pk : proofField credInfo (lit "pk") (cryptoIdentityPubBytes * 2 + 1) =
    some (hexText upperDigit pub)
  sig : proofField credInfo (lit "sig") (cryptoIdentitySigBytes * 2 + 1) =
    some (hexText upperDigit sig)

/-- INTERNAL: a proof of this shape is accepted for what its signature was made for. -/
theorem CarriesProof.verify {credInfo : CStr} (h : CarriesProof credInfo pub sig)
    (hpub : pub.length = cryptoIdentityPubBytes) (hsig : sig.length = cryptoIdentitySigBytes)
    (hpoint : pub.head? = some 4) (msg : List UInt8) :
    cryptoVerifyProof psa credInfo (publicId pub) msg = true ↔
      cryptoVerifyMessage psa pub msg sig = true := by
  have hpubHex := hexDecode_hexText writesHex_upper pub cryptoIdentityPubBytes (by omega)
  have hsigHex := hexDecode_hexText writesHex_upper sig cryptoIdentitySigBytes (by omega)
  have hmatch := cryptoPiMatches_publicId hpub hpoint
  rw [cryptoVerifyProof_iff]
  constructor
  · rintro ⟨pi, pkHex, sigHex, pub', sig', -, hpk, hsg, hpub', hsig', -, -, -, -, hverify⟩
    rw [h.pk] at hpk
    rw [h.sig] at hsg
    obtain rfl := Option.some.inj hpk
    obtain rfl := Option.some.inj hsg
    obtain rfl := Option.some.inj (hpubHex.symm.trans hpub')
    obtain rfl := Option.some.inj (hsigHex.symm.trans hsig')
    exact hverify
  · intro hverify
    exact ⟨_, _, _, pub, sig, h.pi, h.pk, h.sig, hpubHex, hsigHex, hpub, hsig, hmatch, hmatch,
      hverify⟩

/-- The first record of the text has the name of one of a proof's. -/
def NamesProofField (text : CStr) : Prop :=
  ∃ code ∈ [lit "pi", lit "pk", lit "sig"], recordNamed code text = true

instance (text : CStr) : Decidable (NamesProofField text) := by
  unfold NamesProofField
  infer_instance

/-- INTERNAL: a credential in front of a proof leaves its fields readable. -/
theorem carriesProof_behind (credential : CStr) (hcred : 59 ∉ credential)
    (hname : ¬ NamesProofField credential) (hpub : pub.length = cryptoIdentityPubBytes)
    (hsig : sig.length = cryptoIdentitySigBytes) :
    CarriesProof (credential ++ 59 :: proofText pub sig) pub sig := by
  obtain ⟨hpi, hpk, hsg⟩ := proofField_proofText hpub hsig
  have hskip : ∀ code ∈ [lit "pi", lit "pk", lit "sig"], ∀ outCap,
      proofField (credential ++ 59 :: proofText pub sig) code outCap =
        proofField (proofText pub sig) code outCap := by
    intro code hcode outCap
    rw [proofField_cons _ _ _ _ hcred, if_neg]
    intro h
    exact hname ⟨code, hcode, h⟩
  constructor
  · rw [hskip _ (by simp), hpi]
  · rw [hskip _ (by simp), hpk]
  · rw [hskip _ (by simp), hsg]

/-- INTERNAL: a credential that has the name of a field is too short to be its value. -/
theorem no_proof_behind (credential rest expectedPi : CStr) (msg : List UInt8)
    (hcred : 59 ∉ credential) (hlen : credential.length < 64)
    (hname : NamesProofField credential) :
    cryptoVerifyProof psa (credential ++ 59 :: rest) expectedPi msg = false := by
  obtain ⟨code, hcode, hnamed⟩ := hname
  by_contra hno
  rw [Bool.not_eq_false, cryptoVerifyProof_iff] at hno
  obtain ⟨pi, pkHex, sigHex, pub, sig, hpi, hpk, hsg, hpub, hsig, hpubLen, hsigLen, -, hown, -⟩ := hno
  -- the value of the field is the credential's, which is shorter than 64
  have hshort : ∀ outCap value, proofField (credential ++ 59 :: rest) code outCap = some value →
      value.length < 64 := by
    intro outCap value hvalue
    rw [proofField_cons _ _ _ _ hcred, if_pos hnamed] at hvalue
    split at hvalue
    · cases hvalue
    · obtain rfl := Option.some.inj hvalue
      rw [List.length_drop]
      omega
  have hhex : ∀ text outCap data, hexDecode text outCap = some data →
      text.length = 2 * data.length := by
    intro text outCap data hdata
    unfold hexDecode at hdata
    split at hdata
    · cases hdata
    · split at hdata
      · cases hdata
      · exact length_of_scanHexPairs text data hdata
  have hpkLen := hhex _ _ _ hpub
  have hsgLen := hhex _ _ _ hsig
  have hpubBytes : cryptoIdentityPubBytes = 65 := rfl
  have hsigBytes : cryptoIdentitySigBytes = 64 := rfl
  simp only [List.mem_cons, List.not_mem_nil, or_false] at hcode
  rcases hcode with rfl | rfl | rfl
  · have hpiLen := hshort _ _ hpi
    unfold cryptoPiMatches at hown
    simp only [Bool.and_eq_true, decide_eq_true_eq] at hown
    omega
  · have hvalue := hshort _ _ hpk
    omega
  · have hvalue := hshort _ _ hsg
    omega

/-! ## Proofs the service writes -/

/-- INTERNAL: **the answer to a challenge** that decodes to bytes the key signs.
SRCLINE: crypto.c:408-447 -/
theorem cryptoIdentityProof_answer {st : CryptoServiceState} {challenge : List UInt8}
    {payload : CStr} (hsound : SoundPsa psa) (hpub : cryptoServicePublicKey psa st = some pub)
    (hsig : cryptoServiceSign psa st challenge = some sig)
    (hdecode : hexDecode (hesStrlcpy hesPayloadMax payload) cryptoMaxPayload = some challenge)
    (hne : challenge ≠ []) : cryptoIdentityProof psa st payload = proofText pub sig := by
  obtain ⟨hpubLen, hsigLen, -, -⟩ := hsound.signed hpub hsig
  have hfits : ¬ hesPayloadMax ≤ (proofText pub sig).length := by
    rw [length_proofText hpubLen hsigLen]
    decide
  unfold cryptoIdentityProof
  cases challenge with
  | nil => exact absurd rfl hne
  | cons b rest => simp only [hdecode, hpub, hsig, hfits, if_false]

/-- INTERNAL: an answer that is no proof has no fields. -/
theorem no_proof_in_error (text : CStr)
    (htext : text ∈ [lit "error:bad-challenge", lit "error:proof-too-large",
      lit "error:no-identity-key", lit "ei=100;ks=32;it=256;au=64"]) (expectedPi : CStr)
    (msg : List UInt8) : cryptoVerifyProof psa text expectedPi msg = false := by
  have hnone : proofField text (lit "pi") 65 = none := by
    have hall : ∀ text ∈ [lit "error:bad-challenge", lit "error:proof-too-large",
        lit "error:no-identity-key", lit "ei=100;ks=32;it=256;au=64"],
        proofField text (lit "pi") 65 = none := by decide
    exact hall text htext
  unfold cryptoVerifyProof
  rw [hnone]

/-! ## What is signed for a command -/

/-- The bytes `core_authorize` has the proof of a message checked for. -/
def commandText (path payload : CStr) : CStr :=
  cryptoProofMessage path payload (hesPathMax + hesPayloadMax + 2)

/-- INTERNAL: a path and a payload as a message holds them are signed whole. -/
theorem commandText_eq (path payload : CStr) (hpath : path.length < hesPathMax)
    (hpayload : payload.length ≤ hesPayloadMax) :
    commandText path payload = path ++ 10 :: payload := by
  have hpathMax : hesPathMax = 128 := rfl
  have hpayloadMax : hesPayloadMax = 512 := rfl
  have hcopy : hesStrlcpy (hesPathMax + hesPayloadMax + 2) path = path := by
    apply List.take_of_length_le
    omega
  unfold commandText cryptoProofMessage
  rw [hcopy, if_neg (by omega)]
  have hcopy' : hesStrlcpy (hesPathMax + hesPayloadMax + 2 - (path.length + 1)) payload =
      payload := by
    apply List.take_of_length_le
    omega
  rw [hcopy']

/-- INTERNAL: something is always signed. -/
theorem commandText_ne_nil (path payload : CStr) : commandText path payload ≠ [] := by
  unfold commandText cryptoProofMessage
  simp only
  split
  next hfull =>
    intro hnil
    rw [hnil] at hfull
    exact absurd hfull (by decide)
  · simp

/-- INTERNAL: **the framing is injective** on paths without a line feed. -/
theorem commandText_inj {path payload path' payload' : CStr} (hline : 10 ∉ path)
    (hline' : 10 ∉ path') (h : path' ++ 10 :: payload' = path ++ 10 :: payload) :
    path' = path ∧ payload' = payload := by
  induction path generalizing path' with
  | nil =>
    cases path' with
    | nil => exact ⟨rfl, (List.cons.inj h).2⟩
    | cons c rest =>
      have hc := (List.cons.inj h).1
      exact absurd (by simp [hc]) hline'
  | cons c rest ih =>
    cases path' with
    | nil =>
      have hc := (List.cons.inj h).1
      exact absurd (by simp [hc]) hline
    | cons c' rest' =>
      obtain ⟨hc, hrest⟩ := List.cons.inj h
      obtain ⟨hpath, hpayload⟩ := ih (fun hm => hline (by simp [hm])) (fun hm => hline' (by simp [hm]))
        hrest
      exact ⟨by rw [hc, hpath], hpayload⟩

end OpenHes.Analysis
