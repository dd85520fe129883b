import OpenHes.Library.Decimal
import Mathlib.Data.List.TakeWhile

/-!
# Integers through `%g`

`%g` keeps six significant digits. An integer that is printed with it and read back becomes
the integer of its six leading digits, so it comes back itself exactly when the others are
zeros.
-/

set_option autoImplicit false

namespace OpenHes.Library

namespace Binary64

/-! ## Runs of digits -/

/-- INTERNAL: ten times a number is its numeral with a zero behind. -/
theorem decimal_mul_ten (n : ℕ) (h : 0 < n) : decimal (n * 10) = decimal n ++ [48] := by
  unfold decimal
  rw [Nat.toDigits_of_base_le (by omega) (by omega), Nat.mul_div_cancel _ (by omega),
    Nat.mul_mod_left, List.map_append]
  rfl

/-- INTERNAL: a power of ten adds that many zeros. -/
theorem decimal_mul_pow (n j : ℕ) (h : 0 < n) :
    decimal (n * 10 ^ j) = decimal n ++ List.replicate j 48 := by
  induction j with
  | zero => simp
  | succ j ih =>
    have hpos : 0 < n * 10 ^ j := Nat.mul_pos h (Nat.pow_pos (by omega))
    rw [Nat.pow_succ, ← Nat.mul_assoc, decimal_mul_ten _ hpos, ih, List.append_assoc,
      List.replicate_succ']

/-- INTERNAL: a numeral has at most so many digits if the number is below that power of ten. -/
theorem length_decimal_le_iff (n k : ℕ) (hk : 0 < k) : (decimal n).length ≤ k ↔ n < 10 ^ k := by
  unfold decimal
  rw [List.length_map]
  exact Nat.length_toDigits_le_iff (by omega) hk

/-- INTERNAL: zeros behind multiply the value. -/
theorem digitsValue_append_zeros (ds : CStr) (j : ℕ) :
    digitsValue 10 (ds ++ List.replicate j 48) = digitsValue 10 ds * 10 ^ j := by
  induction j with
  | zero => simp
  | succ j ih =>
    have hzero : (hexValue 48).getD 0 = 0 := by decide
    rw [List.replicate_succ', ← List.append_assoc]
    unfold digitsValue at ih ⊢
    rw [List.foldl_append, ih, List.foldl_cons, List.foldl_nil, hzero, Nat.pow_succ]
    ring

/-- INTERNAL: only zeros are stripped. -/
theorem stripZeros_append (ds : CStr) : ∃ j, ds = stripZeros ds ++ List.replicate j 48 := by
  have hsplit := List.takeWhile_append_dropWhile (p := fun c : UInt8 => decide (c = 48))
    (l := ds.reverse)
  refine ⟨(ds.reverse.takeWhile fun c => decide (c = 48)).length, ?_⟩
  have hzeros : ds.reverse.takeWhile (fun c => decide (c = 48)) =
      List.replicate (ds.reverse.takeWhile fun c => decide (c = 48)).length 48 := by
    apply List.eq_replicate_of_mem
    intro c hc
    simpa using List.mem_takeWhile_imp hc
  unfold stripZeros
  conv_lhs => rw [← List.reverse_reverse ds, ← hsplit, List.reverse_append, hzeros]
  rw [List.reverse_replicate]

/-- INTERNAL: of zeros alone nothing stays. -/
theorem stripZeros_zeros (j : ℕ) : stripZeros (List.replicate j 48) = [] := by
  unfold stripZeros
  rw [List.reverse_replicate, List.reverse_eq_nil_iff, List.dropWhile_eq_nil_iff]
  intro c hc
  simpa using List.eq_of_mem_replicate hc

/-! ## The six digits -/

/-- The integer of the six leading digits, rounded. -/
def sixRound (n : ℕ) : ℕ :=
  if n < 10 ^ 6 then n
  else (sixDigits n 1).1 * 10 ^ ((sixDigits n 1).2 - 5).toNat

/-- INTERNAL: a common factor does not change the digits. -/
theorem sixDigits_scale (n den : ℕ) (hn : 0 < n) (hden : 0 < den) :
    sixDigits (n * den) den = sixDigits n 1 := by
  have hle : den ≤ n * den := Nat.le_mul_of_pos_left den hn
  have hquot : n * den / den = n := Nat.mul_div_cancel n hden
  unfold sixDigits
  rw [if_pos hle, if_pos (by omega : 1 ≤ n), hquot, Nat.div_one]
  generalize ((Nat.toDigits 10 n).length : ℤ) - 1 = x
  have hnum : n * den * 10 ^ (5 - x).toNat = n * 10 ^ (5 - x).toNat * den := by ring
  have hdiv : n * 10 ^ (5 - x).toNat * den / (den * 10 ^ (x - 5).toNat) =
      n * 10 ^ (5 - x).toNat / (1 * 10 ^ (x - 5).toNat) := by
    rw [Nat.mul_comm den, Nat.mul_div_mul_right _ _ hden, Nat.one_mul]
  have hmod : n * 10 ^ (5 - x).toNat * den % (den * 10 ^ (x - 5).toNat) =
      n * 10 ^ (5 - x).toNat % (1 * 10 ^ (x - 5).toNat) * den := by
    rw [Nat.mul_comm den, Nat.mul_mod_mul_right, Nat.one_mul]
  simp only [hnum, hdiv, hmod]
  generalize n * 10 ^ (5 - x).toNat % (1 * 10 ^ (x - 5).toNat) = r
  generalize 10 ^ (x - 5).toNat = d
  have hlt : den * d < 2 * (r * den) ↔ 1 * d < 2 * r := by
    rw [Nat.mul_comm den, ← Nat.mul_assoc, Nat.mul_lt_mul_right hden, Nat.one_mul]
  have heq : 2 * (r * den) = den * d ↔ 2 * r = 1 * d := by
    rw [Nat.mul_comm den, ← Nat.mul_assoc, Nat.mul_left_inj hden.ne', Nat.one_mul]
  simp only [hlt, heq]

/-- INTERNAL: a number is between the powers of ten that its digits tell. -/
theorem length_decimal_bounds (n : ℕ) (hn : 0 < n) (x : ℕ)
    (hx : x = (Nat.toDigits 10 n).length - 1) : 10 ^ x ≤ n ∧ n < 10 ^ (x + 1) := by
  have hpos : 0 < (Nat.toDigits 10 n).length := Nat.length_toDigits_pos
  constructor
  · by_contra hlt
    rcases Nat.eq_zero_or_pos x with h0 | hpos
    · rw [h0, Nat.pow_zero] at hlt
      omega
    · have := (Nat.length_toDigits_le_iff (by omega : 1 < 10) hpos).mpr (not_le.mp hlt)
      omega
  · exact (Nat.length_toDigits_le_iff (by omega) (by omega)).mp (by omega)

/-- INTERNAL: a quotient is rounded to one of its neighbours, and to itself when nothing is
left. -/
theorem nearest_bounds (n d : ℕ) (hd : 0 < d) :
    let q := if d < 2 * (n % d) || (2 * (n % d) = d && n / d % 2 = 1) then n / d + 1 else n / d
    n / d ≤ q ∧ q ≤ n / d + 1 ∧ (q * d = n ↔ d ∣ n) := by
  have hsplit := Nat.div_add_mod n d
  have hmod := Nat.mod_lt n hd
  intro q
  have hq : q = if d < 2 * (n % d) || (2 * (n % d) = d && n / d % 2 = 1) then n / d + 1
      else n / d := rfl
  clear_value q
  refine ⟨by split at hq <;> omega, by split at hq <;> omega, ?_⟩
  constructor
  · intro h
    exact ⟨q, by rw [← h, Nat.mul_comm]⟩
  · intro h
    have h0 : n % d = 0 := Nat.mod_eq_zero_of_dvd h
    have hno : ¬ ((d < 2 * (n % d) || (2 * (n % d) = d && n / d % 2 = 1)) = true) := by
      simp [h0, hd.ne]
    rw [if_neg hno] at hq
    rw [hq, Nat.div_mul_cancel h]

/-- INTERNAL: **the six digits** of an integer of more: their exponent, the integer that they
stand for, and when it is the integer itself. -/
theorem sixDigits_large (n : ℕ) (h : 10 ^ 6 ≤ n) :
    ∃ q x : ℕ, sixDigits n 1 = (q, (x : ℤ)) ∧ 6 ≤ x ∧ x ≤ (Nat.toDigits 10 n).length ∧
      10 ^ 5 ≤ q ∧ q < 10 ^ 6 ∧ q * 10 ^ (x - 5) ≤ n + 10 ^ (x - 5) ∧
      (q * 10 ^ (x - 5) = n ↔ 10 ^ ((Nat.toDigits 10 n).length - 6) ∣ n) := by
  have hn : 0 < n := by omega
  obtain ⟨y, hy⟩ : ∃ y, y = (Nat.toDigits 10 n).length - 1 := ⟨_, rfl⟩
  obtain ⟨hlow, hhigh⟩ := length_decimal_bounds n hn y hy
  have hpos : 0 < (Nat.toDigits 10 n).length := Nat.length_toDigits_pos
  have hy6 : 6 ≤ y := by
    by_contra hlt
    have hpow : 10 ^ (y + 1) ≤ 10 ^ 6 := Nat.pow_le_pow_right (by omega) (by omega)
    omega
  have hexp : ((Nat.toDigits 10 n).length : ℤ) - 1 = (y : ℤ) := by omega
  have hlen : (Nat.toDigits 10 n).length - 6 = y - 5 := by omega
  obtain ⟨d, hd⟩ : ∃ d, d = 10 ^ (y - 5) := ⟨_, rfl⟩
  have hdpos : 0 < d := by
    rw [hd]
    exact Nat.pow_pos (by omega)
  have hd5 : 10 ^ 5 * d = 10 ^ y := by
    rw [hd, ← Nat.pow_add]
    congr 1
    omega
  have hd6 : 10 ^ 6 * d = 10 ^ (y + 1) := by
    rw [hd, ← Nat.pow_add]
    congr 1
    omega
  have hq1 : 10 ^ 5 ≤ n / d := (Nat.le_div_iff_mul_le hdpos).mpr (by omega)
  have hq2 : n / d < 10 ^ 6 := (Nat.div_lt_iff_lt_mul hdpos).mpr (by omega)
  obtain ⟨hge, hle, hexact⟩ := nearest_bounds n d hdpos
  have hdown : n / d * d ≤ n := Nat.div_mul_le_self n d
  have hsix : sixDigits n 1 =
      if (if d < 2 * (n % d) || (2 * (n % d) = d && n / d % 2 = 1) then n / d + 1 else n / d) =
        10 ^ 6 then (10 ^ 5, (y : ℤ) + 1)
      else ((if d < 2 * (n % d) || (2 * (n % d) = d && n / d % 2 = 1) then n / d + 1
        else n / d), (y : ℤ)) := by
    have h5 : (5 - (y : ℤ)).toNat = 0 := by omega
    have h5' : ((y : ℤ) - 5).toNat = y - 5 := by omega
    unfold sixDigits
    rw [if_pos (by omega : 1 ≤ n), Nat.div_one, hexp]
    simp only [h5, h5', Nat.pow_zero, Nat.mul_one, Nat.one_mul, ← hd]
  rw [hsix, hlen, ← hd]
  generalize (if d < 2 * (n % d) || (2 * (n % d) = d && n / d % 2 = 1) then n / d + 1
    else n / d) = q at hge hle hexact ⊢
  have hmul : q * d ≤ (n / d + 1) * d := Nat.mul_le_mul_right d hle
  rw [Nat.add_mul, Nat.one_mul] at hmul
  split
  next hfull =>
    refine ⟨10 ^ 5, y + 1, by simp, by omega, by omega, by omega, by omega, ?_, ?_⟩
    · have hstep : 10 ^ (y + 1 - 5) = 10 * d := by
        rw [hd, ← Nat.pow_succ']
        congr 1
        omega
      rw [hfull] at hmul
      rw [hstep]
      omega
    · have hsame : 10 ^ 5 * 10 ^ (y + 1 - 5) = q * d := by
        rw [hfull, hd6, ← Nat.pow_add]
        congr 1
        omega
      rw [hsame, hexact]
  next hless =>
    refine ⟨q, y, rfl, hy6, by omega, by omega, by omega, ?_, ?_⟩
    · rw [← hd]
      omega
    · rw [← hd, hexact]

/-! ## Reading the text -/

/-- INTERNAL: a digit is no blank, sign, mark or letter of a number. -/
theorem digit_facts (c : UInt8) (h : isDigit c = true) :
    isSpace c = false ∧ lower c = c ∧ c ≠ 43 ∧ c ≠ 45 ∧ c ≠ 59 ∧ c ≠ 61 ∧ c ≠ 105 ∧ c ≠ 110 := by
  revert c
  apply forall_byte
  decide +kernel

/-- INTERNAL: a word is not read where another letter stands. -/
theorem dropPrefix_ne (p c : UInt8) (ps s : CStr) (h : lower c ≠ p) :
    dropPrefix (p :: ps) (c :: s) = none := by
  unfold dropPrefix
  rw [if_neg]
  rw [List.length_cons, List.take_succ_cons, List.map_cons]
  intro heq
  exact h (List.cons.inj heq).1

/-- INTERNAL: a number that starts with a digit that is no zero is read by its digits. -/
theorem readUnsigned_digits (neg : Bool) (c : UInt8) (s : CStr) (h : isDigit c = true)
    (hzero : c ≠ 48) :
    readUnsigned neg (c :: s) =
      match readDigits isDigit (c :: s) with
      | some (ds, frac, rest) => ofDecimal neg (digitsValue 10 ds) (readExponent 101 rest - frac)
      | none => pack false 0 := by
  obtain ⟨-, hlower, -, -, -, -, hi, hn⟩ := digit_facts c h
  have hinf : dropPrefix (lit "inf") (c :: s) = none :=
    dropPrefix_ne 105 c (lit "nf") s (by rwa [hlower])
  have hnan : dropPrefix (lit "nan") (c :: s) = none :=
    dropPrefix_ne 110 c (lit "an") s (by rwa [hlower])
  have hhex : dropPrefix (lit "0x") (c :: s) = none :=
    dropPrefix_ne 48 c (lit "x") s (by rwa [hlower])
  unfold readUnsigned
  rw [hinf, hnan, hhex]
  rfl

/-- INTERNAL: a text of digits is read whole. -/
theorem readDigits_whole (ds : CStr) (h : ∀ c ∈ ds, isDigit c = true) (hne : ds ≠ []) :
    readDigits isDigit ds = some (ds, 0, []) := by
  obtain ⟨htake, hdrop⟩ := takeWhile_of_stop isDigit ds [] h (by simp)
  rw [List.append_nil] at htake hdrop
  unfold readDigits
  rw [htake, hdrop]
  simp [hne]

/-- INTERNAL: the digits of a scientific notation, with or without a point. -/
theorem readDigits_pointed (d : UInt8) (frac rest : CStr) (hd : isDigit d = true)
    (hfrac : ∀ c ∈ frac, isDigit c = true) :
    readDigits isDigit (pointed [d] frac ++ 101 :: rest) =
      some (d :: stripZeros frac, (stripZeros frac).length, 101 :: rest) := by
  obtain ⟨j, hj⟩ := stripZeros_append frac
  have hstripped : ∀ c ∈ stripZeros frac, isDigit c = true := by
    intro c hc
    apply hfrac c
    rw [hj]
    exact List.mem_append_left _ hc
  have hpoint : isDigit 46 = false := by decide
  have hletter : isDigit 101 = false := by decide
  unfold pointed
  dsimp only
  split
  next hnil =>
    obtain ⟨htake, hdrop⟩ := takeWhile_of_stop isDigit [d] (101 :: rest) (by simpa) (by simp [hletter])
    unfold readDigits
    rw [htake, hdrop, hnil]
    simp
  next hsome =>
    obtain ⟨htake, hdrop⟩ := takeWhile_of_stop isDigit [d] (46 :: (stripZeros frac ++ 101 :: rest))
      (by simpa) (by simp [hpoint])
    obtain ⟨htake', hdrop'⟩ := takeWhile_of_stop isDigit (stripZeros frac) (101 :: rest) hstripped
      (by simp [hletter])
    have hassoc : [d] ++ 46 :: stripZeros frac ++ 101 :: rest =
        [d] ++ 46 :: (stripZeros frac ++ 101 :: rest) := by simp
    unfold readDigits
    rw [hassoc, htake, hdrop]
    simp [htake', hdrop']

/-! ## The text of an integer -/

/-- INTERNAL: a positive number starts with a digit other than zero. -/
theorem decimal_cons (n : ℕ) (h : 0 < n) :
    ∃ c s, decimal n = c :: s ∧ isDigit c = true ∧ c ≠ 48 ∧ ∀ d ∈ s, isDigit d = true := by
  obtain ⟨c, s, hcons⟩ := List.exists_cons_of_ne_nil (decimal_ne_nil n)
  have hdigits := decimal_digits n
  rw [hcons] at hdigits
  refine ⟨c, s, hcons, hdigits c (by simp), ?_, fun d hd => hdigits d (by simp [hd])⟩
  rintro rfl
  have hlen := decimal_head n (by rw [hcons]; rfl)
  rw [hcons, List.length_cons] at hlen
  have hnil : s = [] := List.length_eq_zero_iff.mp (by omega)
  have hvalue := digitsValue_decimal n
  rw [hcons, hnil] at hvalue
  have h48 : digitsValue 10 [48] = 0 := by decide
  omega

/-- INTERNAL: an integer of six digits or less is printed as it is. -/
theorem fmtPositive_small (n : ℕ) (hn : 0 < n) (h : n < 10 ^ 6) :
    fmtPositive n 1 = decimal n := by
  obtain ⟨x, hx⟩ : ∃ x, x = (Nat.toDigits 10 n).length - 1 := ⟨_, rfl⟩
  obtain ⟨hlow, hhigh⟩ := length_decimal_bounds n hn x hx
  have hpos : 0 < (Nat.toDigits 10 n).length := Nat.length_toDigits_pos
  have hx5 : x ≤ 5 := by
    have := (Nat.length_toDigits_le_iff (by omega : 1 < 10) (by omega : 0 < 6)).mpr h
    omega
  have hexp : ((Nat.toDigits 10 n).length : ℤ) - 1 = (x : ℤ) := by omega
  have hsix : sixDigits n 1 = (n * 10 ^ (5 - x), (x : ℤ)) := by
    have h1 : (5 - (x : ℤ)).toNat = 5 - x := by omega
    have h2 : ((x : ℤ) - 5).toNat = 0 := by omega
    have hlt : n * 10 ^ (5 - x) < 10 ^ 6 := by
      have hpow : 10 ^ (x + 1) * 10 ^ (5 - x) = 10 ^ 6 := by
        rw [← Nat.pow_add]
        congr 1
        omega
      rw [← hpow]
      exact Nat.mul_lt_mul_of_pos_right hhigh (Nat.pow_pos (by omega))
    unfold sixDigits
    rw [if_pos (by omega : 1 ≤ n), Nat.div_one, hexp]
    simp only [h1, h2]
    simp [Nat.mod_one]
    omega
  have hlen : (decimal n).length = x + 1 := by
    unfold decimal
    rw [List.length_map]
    omega
  unfold fmtPositive
  rw [hsix]
  dsimp only
  rw [if_pos (by simp; omega), if_pos (by omega), Int.toNat_natCast, decimal_mul_pow n _ hn,
    ← hlen, List.take_left, List.drop_left]
  unfold pointed
  rw [stripZeros_zeros]
  rfl

/-- INTERNAL: an integer of more is printed in scientific notation. -/
theorem fmtPositive_large (n q x : ℕ) (hsix : sixDigits n 1 = (q, (x : ℤ))) (hx : 6 ≤ x) :
    ∃ ex, fmtPositive n 1 =
        pointed ((decimal q).take 1) ((decimal q).drop 1) ++ 101 :: 43 :: ex ∧
      (∀ c ∈ ex, isDigit c = true) ∧ digitsValue 10 ex = x ∧
      ex.length ≤ (decimal x).length + 1 := by
  refine ⟨if (decimal x).length < 2 then 48 :: decimal x else decimal x, ?_, ?_, ?_, ?_⟩
  · unfold fmtPositive
    rw [hsix]
    dsimp only
    rw [if_neg (by simp; omega), if_neg (by omega), Int.natAbs_natCast]
  · split
    · intro c hc
      rcases List.mem_cons.mp hc with rfl | hc
      · decide
      · exact decimal_digits x c hc
    · exact decimal_digits x
  · have hzero : digitsValue 10 (48 :: decimal x) = digitsValue 10 (decimal x) := rfl
    split
    · rw [hzero, digitsValue_decimal]
    · rw [digitsValue_decimal]
  · split
    · rw [List.length_cons]
    · omega

/-- INTERNAL: the digits behind a positive exponent are read. -/
theorem readExponent_digits (ex : CStr) (h : ∀ c ∈ ex, isDigit c = true) :
    readExponent 101 (101 :: 43 :: ex) = digitsValue 10 ex := by
  obtain ⟨htake, -⟩ := takeWhile_of_stop isDigit ex [] h (by simp)
  rw [List.append_nil] at htake
  have hsign : readSign (43 :: ex) = (false, ex) := rfl
  have hletter : lower 101 = 101 := by decide
  unfold readExponent
  dsimp only
  rw [if_pos hletter, hsign]
  simp [htake]

/-- INTERNAL: a decimal number with a positive exponent is rounded as the integer that it is. -/
theorem ofDecimal_shift (neg : Bool) (m x : ℕ) (hm : m ≠ 0)
    (hsize : (Nat.toDigits 10 m).length + x ≤ 400) :
    ofDecimal neg m x = round neg (m * 10 ^ x) 0 false := by
  unfold ofDecimal
  dsimp only
  rw [if_neg hm, if_neg (by omega), if_neg (by omega), if_pos (by omega), Int.toNat_natCast]

/-- INTERNAL: **an integer** printed and read is the one of its six digits. -/
theorem readUnsigned_fmtPositive (neg : Bool) (n : ℕ) (hn : 0 < n) (h : n < 10 ^ 16) :
    readUnsigned neg (fmtPositive n 1) = round neg (sixRound n) 0 false := by
  by_cases hsmall : n < 10 ^ 6
  · obtain ⟨c, s, hcons, hc, hzero, hs⟩ := decimal_cons n hn
    have hdigits : readDigits isDigit (c :: s) = some (c :: s, 0, []) := by
      apply readDigits_whole _ _ (List.cons_ne_nil c s)
      intro d hd
      rcases List.mem_cons.mp hd with rfl | hd
      · exact hc
      · exact hs d hd
    have hlen : (Nat.toDigits 10 n).length ≤ 16 :=
      (Nat.length_toDigits_le_iff (by omega) (by omega)).mpr h
    unfold sixRound
    rw [if_pos hsmall, fmtPositive_small n hn hsmall, hcons, readUnsigned_digits neg c s hc hzero,
      hdigits]
    dsimp only
    rw [← hcons, digitsValue_decimal]
    exact (ofDecimal_shift neg n 0 (by omega) (by omega)).trans (by rw [Nat.pow_zero, Nat.mul_one])
  · obtain ⟨q, x, hsix, hx6, hxlen, hq5, hq6, -, -⟩ := sixDigits_large n (by omega)
    obtain ⟨ex, htext, hex, hvalue, -⟩ := fmtPositive_large n q x hsix hx6
    obtain ⟨c, s, hcons, hc, hzero, hs⟩ := decimal_cons q (by omega)
    obtain ⟨j, hj⟩ := stripZeros_append s
    have hlen6 : (decimal q).length = 6 := by
      have hle := (length_decimal_le_iff q 6 (by omega)).mpr hq6
      have hge := mt (length_decimal_le_iff q 5 (by omega)).mp (by omega)
      omega
    have hxsmall : x ≤ 16 := by
      have := (Nat.length_toDigits_le_iff (by omega : 1 < 10) (by omega : 0 < 16)).mpr h
      omega
    have hlens : s.length = 5 := by
      rw [hcons, List.length_cons] at hlen6
      omega
    have hj5 : (stripZeros s).length + j = 5 := by
      rw [← hlens, hj, List.length_append, List.length_replicate]
      rw [← hj]
    obtain ⟨m, hm⟩ : ∃ m, m = digitsValue 10 (c :: stripZeros s) := ⟨_, rfl⟩
    have hq : m * 10 ^ j = q := by
      rw [hm, ← digitsValue_append_zeros, List.cons_append, ← hj, ← hcons, digitsValue_decimal]
    have hm0 : m ≠ 0 := by
      rintro rfl
      omega
    have hmq : m ≤ q := by
      rw [← hq]
      exact Nat.le_mul_of_pos_right m (Nat.pow_pos (by omega))
    have hmlen : (Nat.toDigits 10 m).length ≤ 6 :=
      (Nat.length_toDigits_le_iff (by omega) (by omega)).mpr (by omega)
    have hshift : (x : ℤ) - ((stripZeros s).length : ℕ) = ((x - (stripZeros s).length : ℕ) : ℤ) := by
      omega
    have hpow : m * 10 ^ (x - (stripZeros s).length) = q * 10 ^ (x - 5) := by
      rw [← hq, Nat.mul_assoc, ← Nat.pow_add]
      congr 2
      omega
    have hpointed : pointed ((decimal q).take 1) ((decimal q).drop 1) = pointed [c] s := by
      rw [hcons]
      rfl
    have hround : sixRound n = q * 10 ^ (x - 5) := by
      unfold sixRound
      rw [if_neg hsmall, hsix]
      dsimp only
      congr 2
      omega
    have hdigits := readDigits_pointed c s (43 :: ex) hc hs
    have hhead : ∃ t, pointed [c] s ++ 101 :: 43 :: ex = c :: t := by
      unfold pointed
      dsimp only
      split <;> exact ⟨_, rfl⟩
    obtain ⟨t, ht⟩ := hhead
    rw [ht] at hdigits
    rw [htext, hpointed, ht, readUnsigned_digits neg c t hc hzero, hdigits]
    dsimp only
    rw [readExponent_digits ex hex, hvalue, ← hm, hshift, ofDecimal_shift neg m _ hm0 (by omega),
      hpow, hround]

/-- INTERNAL: what the text of a positive integer is made of. -/
theorem fmtPositive_bytes (n : ℕ) (hn : 0 < n) (h : n < 10 ^ 16) :
    (∃ c s, fmtPositive n 1 = c :: s ∧ isDigit c = true) ∧
      (∀ c ∈ fmtPositive n 1, c ≠ 59 ∧ c ≠ 61) ∧ (fmtPositive n 1).length ≤ 30 := by
  have hdigit : ∀ c, isDigit c = true → c ≠ 59 ∧ c ≠ 61 := fun c hc =>
    ⟨(digit_facts c hc).2.2.2.2.1, (digit_facts c hc).2.2.2.2.2.1⟩
  by_cases hsmall : n < 10 ^ 6
  · rw [fmtPositive_small n hn hsmall]
    obtain ⟨c, s, hcons, hc, -, -⟩ := decimal_cons n hn
    refine ⟨⟨c, s, hcons, hc⟩, fun d hd => hdigit d (decimal_digits n d hd), ?_⟩
    have := (length_decimal_le_iff n 6 (by omega)).mpr hsmall
    omega
  · obtain ⟨q, x, hsix, hx6, hxlen, hq5, hq6, -, -⟩ := sixDigits_large n (by omega)
    obtain ⟨ex, htext, hex, -, hexlen⟩ := fmtPositive_large n q x hsix hx6
    obtain ⟨c, s, hcons, hc, -, hs⟩ := decimal_cons q (by omega)
    obtain ⟨j, hj⟩ := stripZeros_append s
    have hxlen16 : x < 10 ^ 2 := by
      have := (Nat.length_toDigits_le_iff (by omega : 1 < 10) (by omega : 0 < 16)).mpr h
      omega
    have hxdigits := (length_decimal_le_iff x 2 (by omega)).mpr hxlen16
    have hqlen := (length_decimal_le_iff q 6 (by omega)).mpr hq6
    have hstripped : ∀ d ∈ stripZeros s, isDigit d = true := by
      intro d hd
      apply hs d
      rw [hj]
      exact List.mem_append_left _ hd
    have hstriplen : (stripZeros s).length ≤ s.length := by
      have := congrArg List.length hj
      rw [List.length_append] at this
      omega
    rw [hcons, List.length_cons] at hqlen
    have hpointed : pointed ((decimal q).take 1) ((decimal q).drop 1) = pointed [c] s := by
      rw [hcons]
      rfl
    rw [htext, hpointed]
    have hmem : ∀ d ∈ pointed [c] s, d = 46 ∨ isDigit d = true := by
      intro d hd
      unfold pointed at hd
      dsimp only at hd
      split at hd
      · rw [List.mem_singleton.mp hd]
        exact Or.inr hc
      · simp only [List.cons_append, List.nil_append, List.mem_cons] at hd
        rcases hd with rfl | rfl | hd
        · exact Or.inr hc
        · exact Or.inl rfl
        · exact Or.inr (hstripped d hd)
    refine ⟨?_, ?_, ?_⟩
    · unfold pointed
      dsimp only
      split <;> exact ⟨c, _, rfl, hc⟩
    · intro d hd
      simp only [List.mem_append, List.mem_cons] at hd
      rcases hd with hd | rfl | rfl | hd
      · rcases hmem d hd with rfl | hd
        · decide
        · exact hdigit d hd
      · decide
      · decide
      · exact hdigit d (hex d hd)
    · have hlen : (pointed [c] s).length ≤ s.length + 2 := by
        unfold pointed
        dsimp only
        split
        · simp
        · simp only [List.length_append, List.length_cons, List.length_nil]
          omega
      simp only [List.length_append, List.length_cons]
      omega

/-- INTERNAL: a numeral is read behind its sign. -/
theorem atof_signed (neg : Bool) (c : UInt8) (s : CStr) (hc : isDigit c = true) :
    atof ((if neg then [45] else []) ++ c :: s) = readUnsigned neg (c :: s) := by
  obtain ⟨hspace, -, hplus, hminus, -⟩ := digit_facts c hc
  have hdash : isSpace 45 = false := by decide
  unfold atof
  cases neg with
  | false =>
    simp only [Bool.false_eq_true, if_false, List.nil_append]
    rw [List.dropWhile_cons_of_neg (by simp [hspace])]
    simp [readSign, hminus, hplus]
  | true =>
    simp only [if_true, List.cons_append, List.nil_append]
    rw [List.dropWhile_cons_of_neg (by simp [hdash])]
    simp [readSign]

/-! ## The double of an integer -/

/-- INTERNAL: a packed number has the sign it was given. -/
theorem sign_pack (neg : Bool) (mag : ℕ) (h : mag < 2 ^ 63) : sign (pack neg mag) = neg := by
  unfold sign pack
  rw [BitVec.toNat_ofNat]
  cases neg
  · simp only [Bool.false_eq_true, if_false, decide_eq_false_iff_not]
    omega
  · simp only [if_true, decide_eq_true_eq]
    omega

/-- INTERNAL: the fields of an integer that is not zero. -/
theorem view_ofInt (n : ℤ) (hn : n ≠ 0) (h : n.natAbs < 2 ^ 53) :
    ∃ j : ℕ, sign (ofInt n) = decide (n < 0) ∧
      view (ofInt n) = .fin (n < 0) (n.natAbs * 2 ^ j) (-(j : ℤ)) := by
  obtain ⟨k, biased, frac, hbiased, hk, hfrac, hq, hpack⟩ := ofInt_packed n hn h
  have hview := view_pack (n < 0) biased frac (by omega) (by omega) hfrac
  have hexp : (biased : ℤ) - 1075 = -((52 - k : ℕ) : ℤ) := by omega
  refine ⟨52 - k, ?_, ?_⟩
  · rw [hpack, sign_pack _ _ (by omega)]
  · rw [hpack, hview, hexp, hq]

/-- INTERNAL: **`%g`** of an integer. -/
theorem fmtG_ofInt (n : ℤ) (hn : n ≠ 0) (h : n.natAbs < 2 ^ 53) :
    fmtG (ofInt n) = (if n < 0 then [45] else []) ++ fmtPositive n.natAbs 1 := by
  obtain ⟨j, hsign, hview⟩ := view_ofInt n hn h
  have hpow : 0 < 2 ^ j := Nat.two_pow_pos j
  have hne : n.natAbs * 2 ^ j ≠ 0 := by
    have : 0 < n.natAbs * 2 ^ j := Nat.mul_pos (by omega) hpow
    omega
  have hdigits : fmtPositive (n.natAbs * 2 ^ j) (2 ^ j) = fmtPositive n.natAbs 1 := by
    unfold fmtPositive
    rw [sixDigits_scale n.natAbs (2 ^ j) (by omega) hpow]
  have h1 : (-(j : ℤ)).toNat = 0 := by omega
  have h2 : (- -(j : ℤ)).toNat = j := by omega
  unfold fmtG
  rw [hview]
  dsimp only
  rw [if_neg hne, hsign, h1, h2, Nat.pow_zero, Nat.mul_one, hdigits]
  simp

/-- INTERNAL: an even integer of 54 bits is a double as well. -/
theorem toLong_ofInt_even (n : ℤ) (heven : n.natAbs % 2 = 0) (hlow : 2 ^ 53 ≤ n.natAbs)
    (hhigh : n.natAbs < 2 ^ 54) : toLong (ofInt n) = n := by
  obtain ⟨m, hm⟩ : ∃ m, m = n.natAbs := ⟨_, rfl⟩
  have hlog : m.log2 = 53 := by
    rw [Nat.log2_eq_iff (by omega)]
    omega
  obtain ⟨biased, hbiased⟩ : ∃ b : ℕ, b = 1076 := ⟨_, rfl⟩
  obtain ⟨frac, hfrac⟩ : ∃ frac, m / 2 = 2 ^ 52 + frac := Nat.exists_eq_add_of_le (by omega)
  have hpack : ofInt n = pack (n < 0) (biased * 2 ^ 52 + frac) := by
    have hunit : max ((0 : ℤ) + ((53 : ℕ) + 1) - 53) (-1074) = 1 := by decide
    have hround : m % 2 ^ (1 : ℕ) = 0 := by omega
    have hexp : ((1 : ℤ) + 1074).toNat = 1075 := by decide
    have hsum : min (1075 * 2 ^ 52 + m / 2) (2047 * 2 ^ 52) = biased * 2 ^ 52 + frac := by
      rw [hbiased]
      omega
    unfold ofInt round
    rw [← hm, if_neg (by omega), hlog]
    simp only [hunit, hexp]
    rw [if_neg (by decide)]
    have hshift : ((1 : ℤ) - 0).toNat = 1 := by decide
    simp only [hshift, hround]
    rw [if_neg (by simp), Nat.pow_one, hsum]
  have hview := view_pack (n < 0) biased frac (by omega) (by omega) (by omega)
  obtain ⟨e, he⟩ : ∃ e : ℤ, e = (biased : ℤ) - 1075 := ⟨_, rfl⟩
  rw [← he] at hview
  rw [hpack]
  apply toLong_of_view _ n e _ _ hview
  · have hexp : e.toNat = 1 := by omega
    rw [if_pos (by omega), hexp]
    omega
  · unfold FitsInt64
    omega

/-! ## There and back -/

/-- INTERNAL: **six digits** say all of an integer when the others are zeros. -/
theorem sixRound_eq_iff (n : ℕ) :
    sixRound n = n ↔ ∃ m k : ℕ, m < 10 ^ 6 ∧ n = m * 10 ^ k := by
  unfold sixRound
  split
  next hsmall => exact iff_of_true rfl ⟨n, 0, hsmall, by simp⟩
  next hlarge =>
    obtain ⟨q, x, hsix, hx6, -, -, -, -, hexact⟩ := sixDigits_large n (by omega)
    have hshift : ((x : ℤ) - 5).toNat = x - 5 := by omega
    obtain ⟨y, hy⟩ : ∃ y, y = (Nat.toDigits 10 n).length - 1 := ⟨_, rfl⟩
    obtain ⟨hlow, hhigh⟩ := length_decimal_bounds n (by omega) y hy
    have hlen : (Nat.toDigits 10 n).length - 6 = y - 5 := by omega
    rw [hsix]
    dsimp only
    rw [hshift, hexact, hlen]
    constructor
    · rintro ⟨m, hm⟩
      refine ⟨m, y - 5, ?_, by rw [hm, Nat.mul_comm]⟩
      by_contra hge
      have hpow : 10 ^ (y - 5) * 10 ^ 6 = 10 ^ (y + 1) := by
        rw [← Nat.pow_add]
        congr 1
        by_contra hne
        have : 10 ^ (y + 1) ≤ 10 ^ 6 := Nat.pow_le_pow_right (by omega) (by omega)
        omega
      have := Nat.mul_le_mul_left (10 ^ (y - 5)) (not_lt.mp hge)
      omega
    · rintro ⟨m, k, hm, hn⟩
      have hk : y - 5 ≤ k := by
        have hlt : 10 ^ y < 10 ^ (6 + k) := by
          rw [Nat.pow_add]
          have := Nat.mul_lt_mul_of_pos_right hm (Nat.pow_pos (n := k) (by omega : 0 < 10))
          omega
        have := (Nat.pow_lt_pow_iff_right (by omega : 1 < 10)).mp hlt
        omega
      rw [hn]
      exact Dvd.dvd.mul_left (Nat.pow_dvd_pow 10 hk) m

/-- INTERNAL: rounding to six digits gives a number that fits the mantissa. -/
theorem sixRound_bounds (n : ℕ) (hn : 0 < n) (h : n < 2 ^ 53) :
    0 < sixRound n ∧ (sixRound n < 2 ^ 53 ∨ sixRound n % 2 = 0 ∧ sixRound n < 2 ^ 54) := by
  unfold sixRound
  split
  next hsmall => exact ⟨hn, Or.inl h⟩
  next hlarge =>
    obtain ⟨q, x, hsix, hx6, -, hq5, -, hle, -⟩ := sixDigits_large n (by omega)
    have hshift : ((x : ℤ) - 5).toNat = x - 5 := by omega
    have htens : 10 ^ (x - 5) = 10 * 10 ^ (x - 6) := by
      rw [← Nat.pow_succ']
      congr 1
      omega
    have hdpos : 0 < 10 ^ (x - 6) := Nat.pow_pos (by omega)
    rw [hsix]
    dsimp only
    rw [hshift, htens]
    rw [htens] at hle
    have hmul := Nat.mul_le_mul_right (10 * 10 ^ (x - 6)) hq5
    have heven : q * (10 * 10 ^ (x - 6)) % 2 = 0 := by
      have : q * (10 * 10 ^ (x - 6)) = 2 * (q * (5 * 10 ^ (x - 6))) := by ring
      omega
    generalize q * (10 * 10 ^ (x - 6)) = r at hle hmul heven ⊢
    omega

/-- INTERNAL: such a number is cut to itself. -/
theorem toLong_ofInt_sixRound (n : ℤ) (m : ℕ) (hm : n.natAbs = m)
    (h : m < 2 ^ 53 ∨ m % 2 = 0 ∧ m < 2 ^ 54) : toLong (ofInt n) = n := by
  by_cases hlt : m < 2 ^ 53
  · exact toLong_ofInt n (by omega)
  · exact toLong_ofInt_even n (by omega) (by omega) (by omega)

/-- INTERNAL: an integer printed with `%g` and read back. -/
theorem atof_fmtG_ofInt (n : ℤ) (h : n.natAbs < 2 ^ 53) :
    atof (fmtG (ofInt n)) =
      ofInt (if n < 0 then -(sixRound n.natAbs : ℤ) else sixRound n.natAbs) := by
  by_cases hzero : n = 0
  · subst hzero
    decide +kernel
  have hpos : 0 < n.natAbs := by omega
  have hsmall : n.natAbs < 10 ^ 16 := by omega
  obtain ⟨⟨c, s, hcons, hc⟩, -, -⟩ := fmtPositive_bytes n.natAbs hpos hsmall
  obtain ⟨hround, -⟩ := sixRound_bounds n.natAbs hpos h
  have hread := readUnsigned_fmtPositive (decide (n < 0)) n.natAbs hpos hsmall
  have hsigned := atof_signed (decide (n < 0)) c s hc
  simp only [decide_eq_true_eq] at hsigned
  rw [fmtG_ofInt n hzero h, hcons, hsigned, ← hcons, hread]
  unfold ofInt
  split
  next hneg =>
    have hlt : -(sixRound n.natAbs : ℤ) < 0 := by omega
    rw [Int.natAbs_neg, Int.natAbs_natCast, decide_eq_true hneg, decide_eq_true hlt]
  next hnonneg =>
    have hge : ¬ (sixRound n.natAbs : ℤ) < 0 := by omega
    rw [Int.natAbs_natCast, decide_eq_false hnonneg, decide_eq_false hge]

/-- INTERNAL: **an integer comes back** from `%g` exactly when six digits say all of it. -/
theorem atof_fmtG_ofInt_iff (n : ℤ) (h : n.natAbs < 2 ^ 53) :
    atof (fmtG (ofInt n)) = ofInt n ↔ ∃ m k : ℕ, m < 10 ^ 6 ∧ n.natAbs = m * 10 ^ k := by
  rw [← sixRound_eq_iff, atof_fmtG_ofInt n h]
  constructor
  · intro heq
    by_cases hzero : n = 0
    · subst hzero
      rfl
    have hlong := congrArg toLong heq
    obtain ⟨-, hbounds⟩ := sixRound_bounds n.natAbs (by omega) h
    rw [toLong_ofInt n h, toLong_ofInt_sixRound _ (sixRound n.natAbs) (by split <;> simp) hbounds]
      at hlong
    split at hlong <;> omega
  · intro heq
    rw [heq]
    congr 1
    split <;> omega

end Binary64

end OpenHes.Library
