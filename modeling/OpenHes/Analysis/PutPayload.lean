import OpenHes.Library.SixDigits
import OpenHes.Model.Evaluator

/-!
# Integers on the bus

A result is put on the bus with `%g`, which keeps six significant digits. The bare number is
read back by `bm_datum_value` whatever datum is asked for.
-/

set_option autoImplicit false

namespace OpenHes.Analysis

open OpenHes.Library OpenHes.Library.Binary64 OpenHes.Model

/-- INTERNAL: **a bare number** is the value of every datum. -/
theorem bmDatumValue_bare {V : Type} [CDouble V] (payload transCode : CStr)
    (h : ∀ c ∈ payload, c ≠ 59 ∧ c ≠ 61) :
    (bmDatumValue payload transCode : V) = CDouble.atof payload := by
  have hrecord := splitAtByte_none 59 payload fun c hc => (h c hc).1
  have hname := splitAtByte_none 61 payload fun c hc => (h c hc).2
  unfold bmDatumValue datumScan
  by_cases hnil : payload = []
  · simp [hnil]
  · rw [if_neg hnil, hrecord]
    dsimp only
    rw [hname]
    rfl

/-- INTERNAL: the text of an integer has no separator and fits its buffer. -/
theorem fmtG_ofInt_bytes (v : ℤ) (h : v.natAbs < 2 ^ 53) :
    (∀ c ∈ fmtG (ofInt v), c ≠ 59 ∧ c ≠ 61) ∧ (fmtG (ofInt v)).length ≤ 31 := by
  by_cases hzero : v = 0
  · subst hzero
    decide +kernel
  obtain ⟨-, hbytes, hlen⟩ := fmtPositive_bytes v.natAbs (by omega) (by omega)
  rw [fmtG_ofInt v hzero h]
  refine ⟨fun c hc => ?_, ?_⟩
  · rcases List.mem_append.mp hc with hsign | hdigits
    · split at hsign
      · rw [List.mem_singleton.mp hsign]
        decide
      · cases hsign
    · exact hbytes c hdigits
  · rw [List.length_append]
    split
    · simp only [List.length_singleton]
      omega
    · simp only [List.length_nil]
      omega

/-- INTERNAL: a PUT carries the printed integer. -/
theorem putMessage_payload (op : BmOperation Binary64) (v : ℤ) (h : v.natAbs < 2 ^ 53) :
    (putMessage op (ofInt v)).payload = fmtG (ofInt v) := by
  obtain ⟨-, hlen⟩ := fmtG_ofInt_bytes v h
  show boundedCopy hesPayloadMax (boundedCopy 32 (fmtG (ofInt v))) = fmtG (ofInt v)
  have hfirst : boundedCopy 32 (fmtG (ofInt v)) = fmtG (ofInt v) :=
    List.take_of_length_le (by omega)
  rw [hfirst]
  apply List.take_of_length_le
  unfold hesPayloadMax
  omega

/-- **Integers survive the bus** when six significant digits say all of them: reading the
payload of the PUT that a row sends for an integer gives it back exactly when it is a number
of at most six digits followed by zeros.
SRCLINE: bm.c:754-768 -/
theorem integer_survives_iff (op : BmOperation Binary64) (v : ℤ) (h : v.natAbs < 2 ^ 53) :
    bmDatumValue (putMessage op (ofInt v)).payload bmLiveInputParam = ofInt v ↔
      ∃ m k : ℕ, m < 10 ^ 6 ∧ v.natAbs = m * 10 ^ k := by
  obtain ⟨hbytes, -⟩ := fmtG_ofInt_bytes v h
  rw [putMessage_payload op v h, bmDatumValue_bare _ _ hbytes]
  exact atof_fmtG_ofInt_iff v h

/-- A row that passes the seconds of the realTime object on. -/
def secondsRow : BmOperation Binary64 where
  operation := lit "ad"
  inputs := [{ deviceIndex := 1, sourceObject := lit "/lx/ob/ti/rt" }]
  outDeviceIndex := 2
  outDestObject := lit "/lx/ob/di/cv"

/-- A second that ends in zeros is read back. -/
theorem hundred_thousands_survive :
    bmDatumValue (putMessage secondsRow (ofInt 1785600000)).payload bmLiveInputParam =
      ofInt 1785600000 :=
  (integer_survives_iff secondsRow 1785600000 (by decide)).mpr ⟨17856, 5, by decide, by decide⟩

/-- Any other is cut to six digits. -/
theorem seconds_do_not_survive :
    bmDatumValue (putMessage secondsRow (ofInt 1785612345)).payload bmLiveInputParam ≠
      ofInt 1785612345 := by
  decide +kernel

end OpenHes.Analysis
