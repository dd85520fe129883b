import OpenHes.Library.SixDigits

/-!
# Integers through `%d`

`%d` keeps every digit, so an integer that a double holds comes back from its text, also where a
comma follows.
-/

set_option autoImplicit false

namespace OpenHes.Library

namespace Binary64

/-- What may follow a number: nothing, or a comma and more. -/
def EndsNumber (rest : CStr) : Prop := ∀ c ∈ rest.head?, c = 44

/-- INTERNAL: digits are read up to where the number ends. -/
theorem readDigits_before (ds rest : CStr) (h : ∀ c ∈ ds, isDigit c = true) (hne : ds ≠ [])
    (hrest : EndsNumber rest) : readDigits isDigit (ds ++ rest) = some (ds, 0, rest) := by
  obtain ⟨htake, hdrop⟩ := takeWhile_of_stop isDigit ds rest h fun c hc => by
    rw [hrest c hc]
    decide
  unfold readDigits
  rw [htake, hdrop]
  cases rest with
  | nil => simp [hne]
  | cons c more =>
    have hcomma : c = 44 := hrest c rfl
    subst hcomma
    simp [hne]

/-- INTERNAL: there is no exponent there. -/
theorem readExponent_before (rest : CStr) (hrest : EndsNumber rest) :
    readExponent 101 rest = 0 := by
  cases rest with
  | nil => rfl
  | cons c more =>
    have hcomma : c = 44 := hrest c rfl
    subst hcomma
    rfl

/-- INTERNAL: **an integer comes back** from `%d`, all of it. -/
theorem atof_fmtD (n : ℤ) (h : n.natAbs < 2 ^ 53) (rest : CStr) (hrest : EndsNumber rest) :
    atof (fmtD n ++ rest) = ofInt n := by
  have hexponent := readExponent_before rest hrest
  by_cases hzero : n = 0
  · subst hzero
    have htext : fmtD 0 ++ rest = 48 :: rest := by
      have hdigits : fmtD 0 = [48] := by decide +kernel
      rw [hdigits]
      rfl
    have hdigit : ∀ c ∈ [(48 : UInt8)], isDigit c = true := by
      intro c hc
      rw [List.mem_singleton.mp hc]
      decide
    have hread : readDigits isDigit (48 :: rest) = some ([48], 0, rest) :=
      readDigits_before [48] rest hdigit (List.cons_ne_nil _ _) hrest
    have hinf : dropPrefix (lit "inf") (48 :: rest) = none :=
      dropPrefix_ne 105 48 (lit "nf") rest (by decide)
    have hnan : dropPrefix (lit "nan") (48 :: rest) = none :=
      dropPrefix_ne 110 48 (lit "an") rest (by decide)
    have hhex : dropPrefix (lit "0x") (48 :: rest) = none := by
      cases rest with
      | nil => rfl
      | cons c more =>
        have hcomma : c = 44 := hrest c rfl
        subst hcomma
        rfl
    have hsigned := atof_signed false 48 rest (by decide)
    rw [if_neg (by decide), List.nil_append] at hsigned
    rw [htext, hsigned]
    unfold readUnsigned
    rw [hinf, hnan, hhex]
    dsimp only [Option.isSome_none, Option.bind_none]
    rw [if_neg (by decide), if_neg (by decide), hread]
    dsimp only
    have hnone : digitsValue 10 [48] = 0 := by decide
    rw [hnone]
    rfl
  · obtain ⟨c, s, hcons, hc, hne, hs⟩ := decimal_cons n.natAbs (by omega)
    have hdigits : ∀ d ∈ c :: s, isDigit d = true := by
      rw [← hcons]
      exact decimal_digits _
    have hread : readDigits isDigit (c :: (s ++ rest)) = some (c :: s, 0, rest) :=
      readDigits_before (c :: s) rest hdigits (List.cons_ne_nil _ _) hrest
    have hlen : (Nat.toDigits 10 n.natAbs).length ≤ 16 :=
      (Nat.length_toDigits_le_iff (by omega) (by omega)).mpr (by omega)
    have hsigned := atof_signed (decide (n < 0)) c (s ++ rest) hc
    simp only [decide_eq_true_eq] at hsigned
    have htext : fmtD n ++ rest = (if n < 0 then [45] else []) ++ c :: (s ++ rest) := by
      unfold fmtD
      rw [hcons, List.append_assoc]
      rfl
    have hwhole := ofDecimal_shift (decide (n < 0)) n.natAbs 0 (by omega) (by omega)
    rw [Nat.pow_zero, Nat.mul_one] at hwhole
    rw [htext, hsigned, readUnsigned_digits _ c (s ++ rest) hc hne, hread]
    dsimp only
    rw [← hcons, digitsValue_decimal, hexponent]
    exact hwhole

end Binary64

end OpenHes.Library
