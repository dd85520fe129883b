import OpenHes.Library.HexPairs
import OpenHes.Model.Crypto

/-!
# The hex texts of the cryptographic service

`hex_decode` reads its text two characters at a time with `%2x`. Here stands which texts it
takes, what the two encoders make of bytes that it reads back, and which spellings of a key and
a signature a proof may have.
-/

set_option autoImplicit false

namespace OpenHes.Analysis

open OpenHes.Library OpenHes.Model

/-- Is the text decoded exactly when it has an even length that fits and only digits, and is it
then its bytes in upper case, up to the case of its letters? -/
def DecodesExactly (hex : CStr) (outCap : ℕ) : Prop :=
  ((hexDecode hex outCap).isSome ↔
      hex.length % 2 = 0 ∧ hex.length / 2 ≤ outCap ∧ ∀ c ∈ hex, isHexDigit c = true) ∧
    ∀ data, hexDecode hex outCap = some data →
      ∀ encodeCap, hex.length < encodeCap → hexEncode data encodeCap = hex.map upper

/-- Is the text of an even length that fits, every pair of it two digits or a loose pair, and at
least one a loose pair? -/
def LooselyWritten (hex : CStr) (outCap : ℕ) : Prop :=
  hex.length % 2 = 0 ∧ hex.length / 2 ≤ outCap ∧
    (∀ p ∈ pairsOf hex, strictPair p = true ∨ loosePair p = true) ∧
      ∃ p ∈ pairsOf hex, loosePair p = true

/-- Does the proof present the field as digits, which are those of the bytes it stands for up to
the case of the letters? -/
def SpelledInDigits (credInfo code : CStr) (size : ℕ) : Prop :=
  ∃ hex data, proofField credInfo code (size * 2 + 1) = some hex ∧
    hexDecode hex size = some data ∧ hex.map upper = hexText upperDigit data

/-- Has the field of the proof no loose pair? -/
def StrictlySpelled (credInfo code : CStr) (size : ℕ) : Prop :=
  ∀ hex, proofField credInfo code (size * 2 + 1) = some hex →
    ∀ p ∈ pairsOf hex, loosePair p = false

/-- INTERNAL: a text is decoded if it fits and all its pairs are scanned. -/
theorem hexDecode_eq_some_iff (hex : CStr) (outCap : ℕ) (data : List UInt8) :
    hexDecode hex outCap = some data ↔
      hex.length / 2 ≤ outCap ∧ scanHexPairs hex = some data := by
  unfold hexDecode
  split
  next hodd =>
    have hnone : scanHexPairs hex ≠ some data := fun h => by
      have := length_of_scanHexPairs hex data h
      omega
    simp [hnone]
  next heven =>
    split
    next hlong => simp [Nat.not_le_of_lt hlong]
    next hfits => simp [Nat.le_of_not_lt hfits]

/-- INTERNAL: it is decoded at all if its pairs are strict or loose ones. -/
theorem hexDecode_isSome_iff (hex : CStr) (outCap : ℕ) :
    (hexDecode hex outCap).isSome ↔ hex.length % 2 = 0 ∧ hex.length / 2 ≤ outCap ∧
      ∀ p ∈ pairsOf hex, strictPair p = true ∨ loosePair p = true := by
  rw [Option.isSome_iff_exists]
  simp only [hexDecode_eq_some_iff, exists_and_left, ← Option.isSome_iff_exists,
    scanHexPairs_isSome]
  tauto

/-- INTERNAL: where the room suffices the text is all of the bytes' digits. -/
theorem hexEncode_eq (data : List UInt8) (outCap : ℕ) (h : 2 * data.length < outCap) :
    hexEncode data outCap = hexText upperDigit data ∧
      hexEncodeLower data outCap = hexText lowerDigit data := by
  have htake : data.take ((outCap - 1) / 2) = data := List.take_of_length_le (by omega)
  unfold hexEncode hexEncodeLower
  rw [htake]
  exact ⟨rfl, rfl⟩

/-- INTERNAL: **the texts that are taken** are the right ones unless loose pairs are taken. -/
theorem decodesExactly_iff (hex : CStr) (outCap : ℕ) :
    DecodesExactly hex outCap ↔ ¬LooselyWritten hex outCap := by
  constructor
  · rintro ⟨haccepts, -⟩ ⟨heven, hfits, hpairs, p, hp, hloose⟩
    have hsome := (hexDecode_isSome_iff hex outCap).mpr ⟨heven, hfits, hpairs⟩
    obtain ⟨-, -, hdigits⟩ := haccepts.mp hsome
    have hstrict := (allDigits_iff hex heven).mp hdigits p hp
    rw [strictPair_not_loosePair p hstrict] at hloose
    exact Bool.false_ne_true hloose
  · intro hnot
    have hstrict : hex.length % 2 = 0 → hex.length / 2 ≤ outCap →
        (∀ p ∈ pairsOf hex, strictPair p = true ∨ loosePair p = true) →
          ∀ p ∈ pairsOf hex, strictPair p = true := by
      intro heven hfits hpairs p hp
      refine (hpairs p hp).resolve_right fun hloose => ?_
      exact hnot ⟨heven, hfits, hpairs, p, hp, hloose⟩
    constructor
    · rw [hexDecode_isSome_iff]
      constructor
      · rintro ⟨heven, hfits, hpairs⟩
        exact ⟨heven, hfits, (allDigits_iff hex heven).mpr (hstrict heven hfits hpairs)⟩
      · rintro ⟨heven, hfits, hdigits⟩
        exact ⟨heven, hfits, fun p hp => Or.inl ((allDigits_iff hex heven).mp hdigits p hp)⟩
    · intro data hdata encodeCap hcap
      obtain ⟨heven, hfits, hpairs⟩ :=
        (hexDecode_isSome_iff hex outCap).mp (by rw [hdata]; rfl)
      have hscan := ((hexDecode_eq_some_iff hex outCap data).mp hdata).2
      have hlen := length_of_scanHexPairs hex data hscan
      rw [(hexEncode_eq data encodeCap (by omega)).1]
      exact hexText_of_strict hex data hscan (hstrict heven hfits hpairs)

-- A zero and an 'x' are one pair that is taken, for a zero.
example : hexDecode (lit "0x4g") 2 = some [0, 4] ∧
    (pairsOf (lit "0x4g")).all loosePair = true := by decide

/-- INTERNAL: bytes that were encoded are decoded. -/
theorem hexDecode_hexText {digit : ℕ → UInt8} (h : WritesHex digit) (data : List UInt8)
    (outCap : ℕ) (hfits : data.length ≤ outCap) :
    hexDecode (hexText digit data) outCap = some data := by
  rw [hexDecode_eq_some_iff, length_hexText]
  exact ⟨by omega, scanHexPairs_hexText h data⟩

/-- INTERNAL: a field that is decoded is spelled in digits if it is strictly spelled. -/
theorem spelledInDigits_iff (credInfo code : CStr) (size : ℕ) (hex : CStr) (data : List UInt8)
    (hfield : proofField credInfo code (size * 2 + 1) = some hex)
    (hdata : hexDecode hex size = some data) :
    SpelledInDigits credInfo code size ↔ StrictlySpelled credInfo code size := by
  have hscan := ((hexDecode_eq_some_iff hex size data).mp hdata).2
  unfold SpelledInDigits StrictlySpelled
  simp only [hfield, Option.some.injEq, forall_eq']
  rw [← upper_eq_hexText_iff hex data hscan]
  constructor
  · rintro ⟨_, _, rfl, hdata', hspelled⟩
    obtain rfl := Option.some.inj (hdata.symm.trans hdata')
    exact hspelled
  · exact fun hspelled => ⟨hex, data, rfl, hdata, hspelled⟩

/-- INTERNAL: an accepted proof has both fields, and they are decoded. -/
theorem cryptoVerifyProof_fields (psa : Psa) (credInfo expectedPi : CStr) (msg : List UInt8)
    (h : cryptoVerifyProof psa credInfo expectedPi msg = true) :
    (∃ hex data, proofField credInfo (lit "pk") (cryptoIdentityPubBytes * 2 + 1) = some hex ∧
        hexDecode hex cryptoIdentityPubBytes = some data) ∧
      ∃ hex data, proofField credInfo (lit "sig") (cryptoIdentitySigBytes * 2 + 1) = some hex ∧
        hexDecode hex cryptoIdentitySigBytes = some data := by
  unfold cryptoVerifyProof at h
  split at h
  next pi pkHex sigHex _ hpk hsig =>
    split at h
    next pub sig hpub hsigBytes =>
      exact ⟨⟨pkHex, pub, hpk, hpub⟩, ⟨sigHex, sig, hsig, hsigBytes⟩⟩
    · cases h
  · cases h

/-- **The hex codec.** A text is decoded exactly as it should be unless its pairs are two digits
or loose and one is loose; encoded bytes are decoded to themselves; and an accepted proof has
its key and its signature in digits, so in one spelling, exactly when they have no loose pair.
SRCLINE: crypto.c:118-163 -/
theorem hex_codec (hex : CStr) (outCap : ℕ) (data : List UInt8) (encodeCap decodeCap : ℕ) :
    (DecodesExactly hex outCap ↔ ¬LooselyWritten hex outCap) ∧
    (2 * data.length < encodeCap → data.length ≤ decodeCap →
      hexDecode (hexEncode data encodeCap) decodeCap = some data ∧
        hexDecode (hexEncodeLower data encodeCap) decodeCap = some data) ∧
    ∀ psa credInfo expectedPi msg, cryptoVerifyProof psa credInfo expectedPi msg = true →
      (SpelledInDigits credInfo (lit "pk") cryptoIdentityPubBytes ↔
        StrictlySpelled credInfo (lit "pk") cryptoIdentityPubBytes) ∧
      (SpelledInDigits credInfo (lit "sig") cryptoIdentitySigBytes ↔
        StrictlySpelled credInfo (lit "sig") cryptoIdentitySigBytes) := by
  refine ⟨decodesExactly_iff hex outCap, ?_, ?_⟩
  · intro hroom hfits
    obtain ⟨hencode, hlower⟩ := hexEncode_eq data encodeCap hroom
    rw [hencode, hlower]
    exact ⟨hexDecode_hexText writesHex_upper data decodeCap hfits,
      hexDecode_hexText writesHex_lower data decodeCap hfits⟩
  · intro psa credInfo expectedPi msg haccepted
    obtain ⟨⟨pkHex, pub, hpk, hpub⟩, ⟨sigHex, sig, hsig, hsigBytes⟩⟩ :=
      cryptoVerifyProof_fields psa credInfo expectedPi msg haccepted
    exact ⟨spelledInDigits_iff _ _ _ pkHex pub hpk hpub,
      spelledInDigits_iff _ _ _ sigHex sig hsig hsigBytes⟩

/-- Two bytes in upper and in lower case. -/
theorem hex_codec_roundtrip :
    hexDecode (hexEncode [4, 171] 5) 2 = some [4, 171] ∧
      hexDecode (hexEncodeLower [4, 171] 5) 2 = some [4, 171] :=
  (hex_codec [] 0 [4, 171] 5 2).2.1 (by decide) (by decide)

/-- A blank and a digit are decoded as a byte. -/
theorem blank_digit_decoded : ¬∀ hex outCap, DecodesExactly hex outCap := by
  intro h
  have hdigits := ((h (lit " 4") 1).1.mp (by decide)).2.2 32 (by decide)
  exact absurd hdigits (by decide)

end OpenHes.Analysis
