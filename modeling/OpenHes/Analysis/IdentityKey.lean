import OpenHes.Model.Identity
import Mathlib.GroupTheory.OrderOfElement
import Mathlib.Data.ZMod.Basic

/-!
# The identity key pair

`derive_identity_key` takes the first candidate that PSA accepts, and its negative where the
candidate's point has an odd Y. Over any group in which a point and its negative share their X
and have Y and p - Y, the scalar that is kept has an even Y and the X of the candidate.
-/

set_option autoImplicit false

namespace OpenHes.Analysis

open OpenHes.Library OpenHes.Model

/-! ## Points and their coordinates -/

/-- A base point of a group, and coordinates of the group's points over an odd `fieldSize`: a
point and its negative share X, and their Ys add up to the field size. -/
structure CurvePoints (G : Type*) [AddGroup G] where
  base : G
  fieldSize : ℕ
  xCoord : G → ℕ
  yCoord : G → ℕ
  odd_fieldSize : fieldSize % 2 = 1
  fieldSize_le : fieldSize ≤ 256 ^ idIdentityKeyBytes
  yCoord_pos : ∀ P ≠ 0, 0 < yCoord P
  yCoord_lt : ∀ P ≠ 0, yCoord P < fieldSize
  xCoord_neg : ∀ P ≠ 0, xCoord (-P) = xCoord P
  yCoord_neg : ∀ P ≠ 0, yCoord (-P) = fieldSize - yCoord P

namespace CurvePoints

variable {G : Type*} [AddGroup G] (curve : CurvePoints G)

/-- The public point of a scalar. -/
def publicPoint (d : List UInt8) : G := beValue d • curve.base

/-- A point as PSA exports it: X and Y behind the mark of an uncompressed point. -/
def exported (P : G) : List UInt8 :=
  4 :: (beBytes idIdentityKeyBytes (curve.xCoord P) ++ beBytes idIdentityKeyBytes (curve.yCoord P))

variable {curve}

/-- INTERNAL: of a point and its negative one has an even Y. -/
theorem even_yCoord_neg {P : G} (hP : P ≠ 0) (h : curve.yCoord P % 2 = 1) :
    curve.yCoord (-P) % 2 = 0 := by
  have hlt := curve.yCoord_lt P hP
  have hodd := curve.odd_fieldSize
  rw [curve.yCoord_neg P hP]
  omega

/-- INTERNAL: the parity byte of an exported point tells its ordinate. -/
theorem oddPoint_exported {P : G} (hP : P ≠ 0) :
    oddPoint (curve.exported P) = decide (curve.yCoord P % 2 = 1) := by
  have hlt := (curve.yCoord_lt P hP).trans_le curve.fieldSize_le
  have hlast := last_beBytes_odd 31 (curve.yCoord P) hlt
  unfold oddPoint exported
  rw [List.getElem?_cons_succ, List.getElem?_append_right (by rw [length_beBytes]; decide),
    length_beBytes]
  exact congrArg (fun k => decide (k = 1)) hlast

/-- INTERNAL: behind it stands the abscissa. -/
theorem take_exported (P : G) :
    ((curve.exported P).drop 1).take idIdentityKeyBytes =
      beBytes idIdentityKeyBytes (curve.xCoord P) := by
  unfold exported
  rw [List.drop_one, List.tail_cons]
  exact List.take_left' (length_beBytes _ _)

end CurvePoints

/-! ## PSA on the group -/

/-- Is the scalar in 1..n-1, for the order `n`? -/
def InRange (n : ℕ) (d : List UInt8) : Prop := 0 < beValue d ∧ beValue d < n

/-- Does PSA import the scalar, and export its point? -/
def Accepts (psa : IdPsa) (d : List UInt8) : Prop :=
  psa.importKeyPair d = .success ∧ (psa.exportPublicKey d).1 = .success

/-- PSA on the group of the curve: only scalars in 1..n-1 are imported, what is exported is
the public point, and a derivation gives as many bytes as it is asked for. Any call may fail. -/
structure PsaOn {G : Type*} [AddGroup G] (psa : IdPsa) (curve : CurvePoints G) (n : ℕ) :
    Prop where
  imports : ∀ d, d.length = idIdentityKeyBytes → psa.importKeyPair d = .success → InRange n d
  exports : ∀ d, d.length = idIdentityKeyBytes → Accepts psa d →
    (psa.exportPublicKey d).2 = curve.exported (curve.publicPoint d)
  derives : ∀ salt secret info len out,
    psa.derivationOutput salt secret info len = (.success, out) → out.length = len

/-- A candidate of the fingerprint. -/
def candidate (psa : IdPsa) (fp : List UInt8) (attempt : ℕ) : Option (List UInt8) :=
  hkdfSha256 psa fp (idKeyInfo attempt) idIdentityKeyBytes

/-- Is `d` the candidate of the attempt, accepted, and was every candidate before it from
`start` on rejected? -/
structure FirstAccepted (psa : IdPsa) (fp : List UInt8) (start attempt : ℕ) (d : List UInt8) :
    Prop where
  derived : candidate psa fp attempt = some d
  accepted : Accepts psa d
  rejected : ∀ j, start ≤ j → j < attempt → ∃ c, candidate psa fp j = some c ∧ ¬Accepts psa c

/-- Does no call that is made of PSA fail: the initialisation, the derivation of each candidate
that is tried, and the import and export of a scalar in range? -/
structure NoFailure (psa : IdPsa) (fp : List UInt8) (n : ℕ) : Prop where
  initialised : psa.cryptoInit = .success
  derived : ∀ i < idKeyTries,
    (∀ j < i, ∀ c, candidate psa fp j = some c → ¬InRange n c) → (candidate psa fp i).isSome
  accepted : ∀ d, d.length = idIdentityKeyBytes → InRange n d → Accepts psa d

variable {G : Type*} [AddGroup G] {curve : CurvePoints G} {psa : IdPsa} {n : ℕ}

/-- INTERNAL: a candidate has the bytes of a key. -/
theorem PsaOn.length_candidate (h : PsaOn psa curve n) (fp d : List UInt8) (attempt : ℕ)
    (hd : candidate psa fp attempt = some d) : d.length = idIdentityKeyBytes := by
  unfold candidate hkdfSha256 at hd
  iterate 6
    split at hd
    · cases hd
  split at hd
  next out hout =>
    obtain rfl := Option.some.inj hd
    exact h.derives _ _ _ _ _ hout
  · cases hd

/-- INTERNAL: a candidate comes from an initialised PSA. -/
theorem candidate_initialised (fp d : List UInt8) (attempt : ℕ)
    (hd : candidate psa fp attempt = some d) : psa.cryptoInit = .success := by
  by_contra hinit
  rw [candidate, hkdfSha256, if_pos hinit] at hd
  cases hd

/-- INTERNAL: **import and export.** A scalar that PSA accepts gives its public point. -/
theorem PsaOn.publicFromScalar_accepted (h : PsaOn psa curve n) (d : List UInt8)
    (hd : d.length = idIdentityKeyBytes) (haccepts : Accepts psa d) :
    publicFromScalar psa d = some (curve.exported (curve.publicPoint d)) := by
  have hpair : psa.exportPublicKey d = (.success, curve.exported (curve.publicPoint d)) :=
    Prod.ext haccepts.2 (h.exports d hd haccepts)
  have hlength : (curve.exported (curve.publicPoint d)).length = 65 := by
    simp [CurvePoints.exported, idIdentityKeyBytes]
  have hhead : (curve.exported (curve.publicPoint d)).head? = some 4 := rfl
  unfold publicFromScalar
  rw [if_neg (not_not.mpr haccepts.1), hpair]
  simp only [hlength, hhead, decide_true, Bool.and_self, if_true]

/-- INTERNAL: any other scalar gives none. -/
theorem publicFromScalar_rejected (d : List UInt8) (h : ¬Accepts psa d) :
    publicFromScalar psa d = none := by
  unfold publicFromScalar
  split
  · rfl
  next himport =>
    split
    next pub hexport =>
      refine absurd ⟨not_not.mp himport, ?_⟩ h
      rw [hexport]
    · rfl

/-! ## The first candidate that is accepted -/

/-- INTERNAL: without a candidate the search ends. -/
theorem deriveCandidate_missing (fp : List UInt8) (left attempt : ℕ)
    (h : candidate psa fp attempt = none) : deriveCandidate psa fp (left + 1) attempt = none := by
  unfold candidate at h
  rw [deriveCandidate, h]

/-- INTERNAL: a candidate with a point is taken. -/
theorem deriveCandidate_accepted (fp : List UInt8) (left attempt : ℕ) (d pub : List UInt8)
    (h : candidate psa fp attempt = some d) (hpub : publicFromScalar psa d = some pub) :
    deriveCandidate psa fp (left + 1) attempt = some (d, pub) := by
  unfold candidate at h
  rw [deriveCandidate, h]
  dsimp only
  rw [hpub]

/-- INTERNAL: without one the next is tried. -/
theorem deriveCandidate_rejected (fp : List UInt8) (left attempt : ℕ) (d : List UInt8)
    (h : candidate psa fp attempt = some d) (hpub : publicFromScalar psa d = none) :
    deriveCandidate psa fp (left + 1) attempt = deriveCandidate psa fp left (attempt + 1) := by
  unfold candidate at h
  rw [deriveCandidate, h]
  dsimp only
  rw [hpub]

/-- INTERNAL: **the loop** gives a candidate exactly when it is the first one accepted. -/
theorem PsaOn.deriveCandidate_iff (h : PsaOn psa curve n) (fp : List UInt8) (left attempt : ℕ)
    (d pub : List UInt8) :
    deriveCandidate psa fp left attempt = some (d, pub) ↔
      (∃ i < attempt + left, attempt ≤ i ∧ FirstAccepted psa fp attempt i d) ∧
        pub = curve.exported (curve.publicPoint d) := by
  induction left generalizing attempt with
  | zero =>
    refine ⟨fun hnone => (by cases hnone), ?_⟩
    rintro ⟨⟨i, hlt, hle, -⟩, -⟩
    omega
  | succ left ih =>
    cases hcandidate : candidate psa fp attempt with
    | none =>
      rw [deriveCandidate_missing fp left attempt hcandidate]
      refine ⟨fun hnone => (by cases hnone), ?_⟩
      rintro ⟨⟨i, -, hle, hfirst⟩, -⟩
      rcases Nat.eq_or_lt_of_le hle with rfl | hlt
      · exact nomatch hcandidate.symm.trans hfirst.derived
      · obtain ⟨c, hc, -⟩ := hfirst.rejected attempt le_rfl hlt
        exact nomatch hcandidate.symm.trans hc
    | some c =>
      have hlen := h.length_candidate fp c attempt hcandidate
      by_cases haccepts : Accepts psa c
      · rw [deriveCandidate_accepted fp left attempt c _ hcandidate
          (h.publicFromScalar_accepted c hlen haccepts), Option.some.injEq, Prod.mk.injEq]
        constructor
        · rintro ⟨rfl, rfl⟩
          refine ⟨⟨attempt, by omega, le_rfl, hcandidate, haccepts, ?_⟩, rfl⟩
          exact fun j hle hlt => absurd hlt (Nat.not_lt.mpr hle)
        · rintro ⟨⟨i, -, hle, hfirst⟩, rfl⟩
          have hi : i = attempt := by
            by_contra hne
            obtain ⟨c', hc', hrejected⟩ := hfirst.rejected attempt le_rfl (by omega)
            obtain rfl := Option.some.inj (hcandidate.symm.trans hc')
            exact hrejected haccepts
          subst hi
          obtain rfl := Option.some.inj (hcandidate.symm.trans hfirst.derived)
          exact ⟨rfl, rfl⟩
      · rw [deriveCandidate_rejected fp left attempt c hcandidate
          (publicFromScalar_rejected c haccepts), ih (attempt + 1)]
        refine and_congr_left fun _ => ⟨?_, ?_⟩
        · rintro ⟨i, hlt, hle, hfirst⟩
          refine ⟨i, by omega, by omega, hfirst.derived, hfirst.accepted, fun j hj hji => ?_⟩
          rcases Nat.eq_or_lt_of_le hj with rfl | hlater
          · exact ⟨c, hcandidate, haccepts⟩
          · exact hfirst.rejected j hlater hji
        · rintro ⟨i, hlt, hle, hfirst⟩
          have hne : i ≠ attempt := by
            rintro rfl
            obtain rfl := Option.some.inj (hcandidate.symm.trans hfirst.derived)
            exact haccepts hfirst.accepted
          exact ⟨i, by omega, by omega, hfirst.derived, hfirst.accepted,
            fun j hj => hfirst.rejected j (by omega)⟩

/-! ## The negative of a scalar -/

variable {order : List UInt8}

/-- INTERNAL: **negation.** A scalar taken from the order is in range, and its point is the
negative one. -/
theorem scalarNegate_point (horder : order.length = idIdentityKeyBytes)
    (hn : addOrderOf curve.base = beValue order) (d : List UInt8)
    (hd : d.length = idIdentityKeyBytes) (hrange : InRange (beValue order) d) :
    (scalarNegate order d).length = idIdentityKeyBytes ∧
      InRange (beValue order) (scalarNegate order d) ∧
        curve.publicPoint (scalarNegate order d) = -curve.publicPoint d := by
  obtain ⟨hpos, hlt⟩ := hrange
  have hlen : order.length = d.length := horder.trans hd.symm
  have hvalue : beValue (scalarNegate order d) = beValue order - beValue d :=
    beValue_subtractBytes_of_le order d hlen hlt.le
  refine ⟨(length_subtractBytes order d hlen).trans horder, ?_, ?_⟩
  · constructor
    · omega
    · omega
  · unfold CurvePoints.publicPoint
    rw [hvalue, sub_nsmul _ hlt.le, ← hn, addOrderOf_nsmul_eq_zero, zero_add]

/-- INTERNAL: a scalar in range has a point other than zero. -/
theorem publicPoint_ne_zero (hn : addOrderOf curve.base = beValue order) (d : List UInt8)
    (hrange : InRange (beValue order) d) : curve.publicPoint d ≠ 0 :=
  nsmul_ne_zero_of_lt_addOrderOf hrange.1.ne' (by rw [hn]; exact hrange.2)

/-! ## The fingerprint -/

/-- INTERNAL: a digit is one in lower case, too. -/
theorem hexValue_lower (c : UInt8) (h : (Binary64.hexValue c).isSome = true) :
    (Binary64.hexValue (Binary64.lower c)).isSome = true := by
  revert c
  apply forall_byte
  decide +kernel

/-- INTERNAL: digits enough for the bytes are decoded. -/
theorem hexToBytes_isSome (n : ℕ) (text : CStr) (hlen : 2 * n ≤ text.length)
    (h : ∀ c ∈ text, (Binary64.hexValue c).isSome = true) : (hexToBytes n text).isSome = true := by
  fun_induction hexToBytes n text with
  | case1 => rfl
  | case2 n a b rest hi lo hhi hlo ih =>
    rw [Option.isSome_map]
    apply ih
    · simp only [List.length_cons] at hlen
      omega
    · exact fun c hc => h c (by simp [hc])
  | case3 n a b rest hnot =>
    obtain ⟨hi, hhi⟩ := Option.isSome_iff_exists.mp (h a (by simp))
    obtain ⟨lo, hlo⟩ := Option.isSome_iff_exists.mp (h b (by simp))
    exact absurd hlo (hnot hi lo hhi)
  | case4 n text hnot =>
    cases text with
    | nil => simp at hlen
    | cons a text =>
      cases text with
      | nil =>
        simp only [List.length_cons, List.length_nil] at hlen
        omega
      | cons b rest => exact absurd rfl (hnot a b rest)

/-- INTERNAL: a fingerprint that was taken is key material. -/
theorem takeHex256_bytes (value : Option CStr) (hex : CStr) (h : takeHex256 value = some hex) :
    ∃ fp, hexToBytes idIdentityKeyBytes hex = some fp := by
  rw [← Option.isSome_iff_exists]
  unfold takeHex256 at h
  split at h
  · cases h
  next text =>
    split at h
    · cases h
    next hlen =>
      split at h
      next hdigits =>
        obtain rfl := Option.some.inj h
        apply hexToBytes_isSome
        · rw [List.length_map, not_not.mp hlen]
          decide
        · intro c hc
          obtain ⟨c', hc', rfl⟩ := List.mem_map.mp hc
          exact hexValue_lower c' (List.all_eq_true.mp hdigits c' hc')
      · cases h

/-! ## The key pair that is kept -/

/-- Is the key pair of the service the canonical one of the scalar `d`: a scalar in range whose
point has an even Y and the X of `d`'s point, and 'pi' the digits of that X? -/
structure Canonical (curve : CurvePoints G) (n : ℕ) (d : List UInt8) (st : IdServiceState) :
    Prop where
  handedOver : st.haveIdentityKey = true
  inRange : InRange n st.identityScalar
  even : curve.yCoord (curve.publicPoint st.identityScalar) % 2 = 0
  published : st.uniquePublicId =
    bytesToHex (beBytes idIdentityKeyBytes (curve.xCoord (curve.publicPoint st.identityScalar)))
  sameX : curve.xCoord (curve.publicPoint st.identityScalar) = curve.xCoord (curve.publicPoint d)

/-- What a call of `derive_identity_key` leaves: the canonical key of the first candidate that
was accepted, or no key. -/
def Derived (psa : IdPsa) (curve : CurvePoints G) (n : ℕ) (fp : List UInt8)
    (out : ℤ × IdServiceState) : Prop :=
  (out.1 = 0 ∧ ∃ i < idKeyTries, ∃ d, FirstAccepted psa fp 0 i d ∧ Canonical curve n d out.2) ∨
    (out.1 = -1 ∧ out.2.haveIdentityKey = false)

/-- INTERNAL: **what is published** is canonical for the key, if its point is the even one. -/
theorem publish_canonical (st : IdServiceState) (d d' : List UInt8)
    (hrange : InRange n d') (heven : curve.yCoord (curve.publicPoint d') % 2 = 0)
    (hx : curve.xCoord (curve.publicPoint d') = curve.xCoord (curve.publicPoint d)) :
    Canonical curve n d (publishIdentityKey { st with identityScalar := d' }
      (curve.exported (curve.publicPoint d'))).2 where
  handedOver := rfl
  inRange := hrange
  even := heven
  published := congrArg bytesToHex (CurvePoints.take_exported _)
  sameX := hx

section Derivation

variable (st : IdServiceState) (fp : List UInt8)
  (hfp : hexToBytes idIdentityKeyBytes st.digitalFingerprint = some fp)

include hfp

/-- INTERNAL: nothing is derived where no candidate is accepted. -/
theorem deriveIdentityKeyIn_none (h : deriveCandidate psa fp idKeyTries 0 = none) :
    deriveIdentityKeyIn psa order st = (-1, st) := by
  unfold deriveIdentityKeyIn
  split
  · rfl
  · rw [hfp]
    dsimp only
    rw [h]

/-- INTERNAL: **what follows on a candidate**, by the parity of its point's Y. -/
theorem deriveIdentityKeyIn_some (d : List UInt8) (hinit : psa.cryptoInit = .success)
    (hne : curve.publicPoint d ≠ 0)
    (h : deriveCandidate psa fp idKeyTries 0 =
      some (d, curve.exported (curve.publicPoint d))) :
    deriveIdentityKeyIn psa order st =
      if curve.yCoord (curve.publicPoint d) % 2 = 1 then
        match publicFromScalar psa (scalarNegate order d) with
        | none => (-1, { st with identityScalar := d })
        | some pub =>
          if oddPoint pub then (-1, { st with identityScalar := scalarNegate order d })
          else publishIdentityKey { st with identityScalar := scalarNegate order d } pub
      else publishIdentityKey { st with identityScalar := d }
        (curve.exported (curve.publicPoint d)) := by
  unfold deriveIdentityKeyIn
  rw [if_neg (not_not.mpr hinit), hfp]
  dsimp only
  rw [h]
  dsimp only
  rw [CurvePoints.oddPoint_exported hne]
  by_cases hodd : curve.yCoord (curve.publicPoint d) % 2 = 1
  · exact (if_pos (decide_eq_true hodd)).trans (if_pos hodd).symm
  · exact (if_neg (by simpa using hodd)).trans (if_neg hodd).symm

end Derivation

/-- INTERNAL: **a call** leaves the canonical key of the first candidate accepted, or none. -/
theorem deriveIdentityKeyIn_derived (hpsa : PsaOn psa curve (beValue order))
    (horder : order.length = idIdentityKeyBytes) (hn : addOrderOf curve.base = beValue order)
    (st : IdServiceState) (fp : List UInt8)
    (hfp : hexToBytes idIdentityKeyBytes st.digitalFingerprint = some fp)
    (hnew : st.haveIdentityKey = false) :
    Derived psa curve (beValue order) fp (deriveIdentityKeyIn psa order st) := by
  cases hloop : deriveCandidate psa fp idKeyTries 0 with
  | none =>
    rw [deriveIdentityKeyIn_none st fp hfp hloop]
    exact Or.inr ⟨rfl, hnew⟩
  | some taken =>
    obtain ⟨d, pub⟩ := taken
    obtain ⟨⟨i, hi, -, hfirst⟩, rfl⟩ := (hpsa.deriveCandidate_iff fp idKeyTries 0 d pub).mp hloop
    have htries : i < idKeyTries := by omega
    have hlen := hpsa.length_candidate fp d i hfirst.derived
    have hrange := hpsa.imports d hlen hfirst.accepted.1
    have hne := publicPoint_ne_zero hn d hrange
    rw [deriveIdentityKeyIn_some st fp hfp d (candidate_initialised fp d i hfirst.derived) hne hloop]
    split
    next hodd =>
      obtain ⟨hnegLen, hnegRange, hnegPoint⟩ := scalarNegate_point horder hn d hlen hrange
      have heven : curve.yCoord (curve.publicPoint (scalarNegate order d)) % 2 = 0 := by
        rw [hnegPoint]
        exact CurvePoints.even_yCoord_neg hne hodd
      have hx : curve.xCoord (curve.publicPoint (scalarNegate order d)) =
          curve.xCoord (curve.publicPoint d) := by
        rw [hnegPoint]
        exact curve.xCoord_neg _ hne
      by_cases haccepts : Accepts psa (scalarNegate order d)
      · rw [hpsa.publicFromScalar_accepted _ hnegLen haccepts]
        dsimp only
        rw [CurvePoints.oddPoint_exported (publicPoint_ne_zero hn _ hnegRange), heven]
        left
        exact ⟨rfl, i, htries, d, hfirst, publish_canonical st d _ hnegRange heven hx⟩
      · rw [publicFromScalar_rejected _ haccepts]
        exact Or.inr ⟨rfl, hnew⟩
    next hnotOdd =>
      left
      exact ⟨rfl, i, htries, d, hfirst, publish_canonical st d d hrange (by omega) rfl⟩

/-- INTERNAL: **where nothing fails**, a key is derived exactly when a candidate is in range. -/
theorem deriveIdentityKeyIn_zero_iff (hpsa : PsaOn psa curve (beValue order))
    (horder : order.length = idIdentityKeyBytes) (hn : addOrderOf curve.base = beValue order)
    (st : IdServiceState) (fp : List UInt8)
    (hfp : hexToBytes idIdentityKeyBytes st.digitalFingerprint = some fp)
    (hnew : st.haveIdentityKey = false) (hworks : NoFailure psa fp (beValue order)) :
    (deriveIdentityKeyIn psa order st).1 = 0 ↔
      ∃ i < idKeyTries, ∃ d, candidate psa fp i = some d ∧ InRange (beValue order) d := by
  constructor
  · intro hzero
    rcases deriveIdentityKeyIn_derived hpsa horder hn st fp hfp hnew with
      ⟨-, i, hi, d, hfirst, -⟩ | ⟨hfail, -⟩
    · have hlen := hpsa.length_candidate fp d i hfirst.derived
      exact ⟨i, hi, d, hfirst.derived, hpsa.imports d hlen hfirst.accepted.1⟩
    · rw [hzero] at hfail
      cases hfail
  · intro hexists
    classical
    obtain ⟨hi, d, hd, hrange⟩ := Nat.find_spec hexists
    have hleast := fun j hj => Nat.find_min hexists (m := j) hj
    generalize Nat.find hexists = i at hi hd hleast
    have hlen := hpsa.length_candidate fp d i hd
    have hout : ∀ j < i, ∀ c, candidate psa fp j = some c → ¬InRange (beValue order) c :=
      fun j hj c hc hin => hleast j hj ⟨by omega, c, hc, hin⟩
    have hfirst : FirstAccepted psa fp 0 i d := by
      refine ⟨hd, hworks.accepted d hlen hrange, fun j _ hj => ?_⟩
      obtain ⟨c, hc⟩ := Option.isSome_iff_exists.mp
        (hworks.derived j (by omega) fun k hk => hout k (by omega))
      have hcLen := hpsa.length_candidate fp c j hc
      exact ⟨c, hc, fun haccepts => hout j hj c hc (hpsa.imports c hcLen haccepts.1)⟩
    have hloop := (hpsa.deriveCandidate_iff fp idKeyTries 0 d _).mpr
      ⟨⟨i, by omega, by omega, hfirst⟩, rfl⟩
    rw [deriveIdentityKeyIn_some st fp hfp d hworks.initialised
      (publicPoint_ne_zero hn d hrange) hloop]
    split
    next hodd =>
      obtain ⟨hnegLen, hnegRange, hnegPoint⟩ := scalarNegate_point horder hn d hlen hrange
      have hne := publicPoint_ne_zero hn d hrange
      rw [hpsa.publicFromScalar_accepted _ hnegLen (hworks.accepted _ hnegLen hnegRange)]
      dsimp only
      rw [CurvePoints.oddPoint_exported (publicPoint_ne_zero hn _ hnegRange), hnegPoint,
        CurvePoints.even_yCoord_neg hne hodd]
      rfl
    · rfl

/-- **The identity key is canonical.** For a fingerprint of the document and a state that has no
key yet, `derive_identity_key` leaves the canonical key of the first candidate that PSA accepts,
or returns -1 without one; and where no call of PSA fails it returns 0 exactly when one of the
candidates is in range.
SRCLINE: id.c:377-434 -/
theorem identity_key_canonical {G : Type*} [AddGroup G] (curve : CurvePoints G)
    (order : List UInt8) (horder : order.length = idIdentityKeyBytes)
    (hn : addOrderOf curve.base = beValue order) (psa : IdPsa)
    (hpsa : PsaOn psa curve (beValue order)) (value : Option CStr) (st : IdServiceState)
    (hvalue : takeHex256 value = some st.digitalFingerprint)
    (hnew : st.haveIdentityKey = false) :
    ∃ fp, hexToBytes idIdentityKeyBytes st.digitalFingerprint = some fp ∧
      Derived psa curve (beValue order) fp (deriveIdentityKeyIn psa order st) ∧
        (NoFailure psa fp (beValue order) →
          ((deriveIdentityKeyIn psa order st).1 = 0 ↔
            ∃ i < idKeyTries, ∃ d, candidate psa fp i = some d ∧
              InRange (beValue order) d)) := by
  obtain ⟨fp, hfp⟩ := takeHex256_bytes value st.digitalFingerprint hvalue
  exact ⟨fp, hfp, deriveIdentityKeyIn_derived hpsa horder hn st fp hfp hnew,
    deriveIdentityKeyIn_zero_iff hpsa horder hn st fp hfp hnew⟩

/-! ## The demo gateway's fingerprint -/

/-- The integers modulo an odd number as the points of a curve: those of the lower half have the
given coordinates, and their negatives the same X. -/
def foldedCurve (n p : ℕ) [NeZero n] (hn : n % 2 = 1) (hp : p % 2 = 1)
    (hple : p ≤ 256 ^ idIdentityKeyBytes) (x y : ℕ → ℕ) (hy : ∀ k, 0 < y k ∧ y k < p) :
    CurvePoints (ZMod n) where
  base := 1
  fieldSize := p
  xCoord P := x (min P.val (n - P.val))
  yCoord P := if P.val < n - P.val then y P.val else p - y (n - P.val)
  odd_fieldSize := hp
  fieldSize_le := hple
  yCoord_pos P _ := by
    split
    · exact (hy _).1
    · exact Nat.sub_pos_of_lt (hy _).2
  yCoord_lt P _ := by
    split
    · exact (hy _).2
    · exact Nat.sub_lt_of_pos_le (hy _).1 (hy _).2.le
  xCoord_neg P hP := by
    have hlt := P.val_lt
    rw [ZMod.neg_val, if_neg hP, Nat.sub_sub_self hlt.le, min_comm]
  yCoord_neg P hP := by
    have hlt := P.val_lt
    rw [ZMod.neg_val, if_neg hP, Nat.sub_sub_self hlt.le]
    by_cases hlower : P.val < n - P.val
    · rw [if_neg (by omega), if_pos hlower]
    · rw [if_pos (by omega), if_neg hlower, Nat.sub_sub_self (hy _).2.le]

/-- The order of P-256. -/
def p256Size : ℕ := 0xffffffff00000000ffffffffffffffffbce6faada7179e84f3b9cac2fc632551

/-- The scalar of the demo gateway: the first candidate of its fingerprint. -/
def demoScalar : ℕ := 0x79565050a494bf9b2ead63845485b7929a878f566d48ca72fe391447aaeec894

/-- INTERNAL: the field of P-256 is not empty. -/
theorem neZero_p256Size : NeZero p256Size := ⟨by decide⟩

/-- P-256, with the coordinates of the demo gateway's point. -/
def demoCurve : CurvePoints (ZMod p256Size) :=
  haveI := neZero_p256Size
  foldedCurve p256Size 0xffffffff00000001000000000000000000000000ffffffffffffffffffffffff
    (by decide) (by decide) (by decide)
    (fun k => if k = demoScalar then
      0x943d607d1f4c645d9a356e042873ec41aa7d95fd6c0a373e9e7639cc2dbef97d else 1)
    (fun k => if k = demoScalar then
      0x4df39825111f52dc11a50e03a9cdd24eb16bed5bb928ea0cab716eb1675c41d6 else 1)
    (fun k => by split <;> decide)

/-- The demo gateway's 'fp'. -/
def demoFingerprint : CStr :=
  lit "9c41d2e83a7b0f5c6d1e8a9b4f203c7d5a6b1e9f0c8d3a7b2e5f4c1d9a8b7e6f"

/-- PSA as it answers for the demo gateway. -/
def demoPsa : IdPsa where
  cryptoInit := .success
  hashCompute _ := (.errorGenericError, [])
  importKeyPair d :=
    if 0 < beValue d ∧ beValue d < beValue p256Order then .success else .errorInvalidArgument
  signHash _ _ := (.errorGenericError, [])
  exportPublicKey d := (.success, demoCurve.exported (demoCurve.publicPoint d))
  importPublicKey _ := .errorGenericError
  verifyHash _ _ _ := .errorInvalidSignature
  importCipherKey _ := .errorNotSupported
  cipherDecrypt _ _ _ := (.errorGenericError, [])
  aeadDecrypt _ _ _ := (.errorGenericError, [])
  importDeriveKey _ := .success
  keyDerivationSetup := .success
  derivationInputSalt _ := .success
  derivationInputSecret _ := .success
  derivationInputInfo _ := .success
  derivationOutput _ secret info len :=
    if hexToBytes idIdentityKeyBytes demoFingerprint = some secret ∧ info = idKeyInfo 0 ∧
      len = idIdentityKeyBytes
    then (.success, beBytes idIdentityKeyBytes demoScalar) else (.errorGenericError, [])

/-- INTERNAL: the demonstration's PSA keeps the contract. -/
theorem demoPsa_serves : PsaOn demoPsa demoCurve (beValue p256Order) where
  imports d _ himport := by
    by_contra hout
    exact nomatch (if_neg hout).symm.trans himport
  exports _ _ _ := rfl
  derives salt secret info len out hout := by
    unfold demoPsa at hout
    dsimp only at hout
    split at hout
    next hasked =>
      obtain ⟨-, rfl⟩ := Prod.mk.inj hout
      rw [length_beBytes, hasked.2.2]
    · exact nomatch congrArg Prod.fst hout

/-- INTERNAL: its first candidate is the demonstration's scalar. -/
theorem demo_candidate (fp : List UInt8)
    (hfp : hexToBytes idIdentityKeyBytes demoFingerprint = some fp) :
    candidate demoPsa fp 0 = some (beBytes idIdentityKeyBytes demoScalar) := by
  have hout : demoPsa.derivationOutput idKeySalt fp (idKeyInfo 0) idIdentityKeyBytes =
      (.success, beBytes idIdentityKeyBytes demoScalar) := if_pos ⟨hfp, rfl, rfl⟩
  have hcalls : demoPsa.cryptoInit = .success ∧ demoPsa.importDeriveKey fp = .success ∧
      demoPsa.keyDerivationSetup = .success ∧ demoPsa.derivationInputSalt idKeySalt = .success ∧
        demoPsa.derivationInputSecret fp = .success ∧
          demoPsa.derivationInputInfo (idKeyInfo 0) = .success := ⟨rfl, rfl, rfl, rfl, rfl, rfl⟩
  unfold candidate hkdfSha256
  simp only [hcalls, hout, ne_eq, not_true_eq_false, if_false]

/-- INTERNAL: the scalar is in range. -/
theorem demo_inRange : InRange (beValue p256Order) (beBytes idIdentityKeyBytes demoScalar) := by
  unfold InRange
  decide +kernel

/-- The demonstration's fingerprint gives its key. -/
theorem identity_key_canonical_demo :
    (deriveIdentityKeyIn demoPsa p256Order { digitalFingerprint := demoFingerprint }).1 = 0 := by
  have horder : addOrderOf demoCurve.base = beValue p256Order :=
    (ZMod.addOrderOf_one p256Size).trans (by decide +kernel)
  obtain ⟨fp, hfp, -, hzero⟩ := identity_key_canonical demoCurve p256Order rfl horder demoPsa
    demoPsa_serves (some demoFingerprint) { digitalFingerprint := demoFingerprint }
    (by decide +kernel) rfl
  have hfirst := demo_candidate fp hfp
  apply (hzero ?_).mpr
  · exact ⟨0, by decide, _, hfirst, demo_inRange⟩
  · refine ⟨rfl, fun i _ hrejected => ?_, fun d _ hd => ⟨if_pos hd, rfl⟩⟩
    cases i with
    | zero => exact Option.isSome_iff_exists.mpr ⟨_, hfirst⟩
    | succ i => exact absurd demo_inRange (hrejected 0 (Nat.succ_pos i) _ hfirst)

end OpenHes.Analysis
