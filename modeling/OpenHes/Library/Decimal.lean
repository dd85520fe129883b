import OpenHes.Library.CInt

/-!
# Longs and their texts

A `long` is printed in decimal and read back digit by digit, and a program that reads its
numbers as `double` converts it there and back. What fits in the significand survives both.
-/

set_option autoImplicit false

namespace OpenHes.Library

namespace Binary64

/-! ## Through a double -/

/-- `(double)n`. -/
def ofInt (n : ℤ) : Binary64 := round (n < 0) n.natAbs 0 false

/-- `(long)x`: the fraction is dropped; what a `long` cannot hold becomes its least value,
as the conversion instruction leaves it. -/
def toLong (x : Binary64) : ℤ :=
  match view x with
  | .nan => -2 ^ 63
  | .inf _ => -2 ^ 63
  | .fin neg m e =>
    let size : ℤ := if 0 ≤ e then (m * 2 ^ e.toNat : ℕ) else (m / 2 ^ (-e).toNat : ℕ)
    let n := if neg then -size else size
    if FitsInt64 n then n else -2 ^ 63

/-- The integer part of a number; an infinity and what is no number have none. -/
def intPart (x : Binary64) : Option ℤ :=
  match view x with
  | .nan => none
  | .inf _ => none
  | .fin neg m e =>
    let size : ℤ := if 0 ≤ e then (m * 2 ^ e.toNat : ℕ) else (m / 2 ^ (-e).toNat : ℕ)
    some (if neg then -size else size)

/-- `(int)x`, which is undefined where an `int` does not hold the integer part. -/
def toInt (x : Binary64) : Option ℤ := (intPart x).filter FitsInt32

/-- INTERNAL: the fields of a normal number are seen as its mantissa and exponent. -/
theorem view_pack (neg : Bool) (biased frac : ℕ) (h1 : 0 < biased) (h2 : biased < 2047)
    (h3 : frac < 2 ^ 52) :
    view (pack neg (biased * 2 ^ 52 + frac)) = .fin neg (2 ^ 52 + frac) ((biased : ℤ) - 1075) := by
  have hmag : biased * 2 ^ 52 + frac < 2 ^ 63 := by omega
  have hnat : (pack neg (biased * 2 ^ 52 + frac)).toNat =
      (if neg then 2 ^ 63 else 0) + (biased * 2 ^ 52 + frac) := by
    unfold pack
    rw [BitVec.toNat_ofNat]
    apply Nat.mod_eq_of_lt
    split <;> omega
  have hfrac : (pack neg (biased * 2 ^ 52 + frac)).toNat % 2 ^ 52 = frac := by
    rw [hnat]
    split <;> omega
  have hbiased : (pack neg (biased * 2 ^ 52 + frac)).toNat / 2 ^ 52 % 2 ^ 11 = biased := by
    rw [hnat]
    split <;> omega
  have hsign : sign (pack neg (biased * 2 ^ 52 + frac)) = neg := by
    unfold sign
    rw [hnat]
    cases neg
    · simp only [Bool.false_eq_true, if_false, decide_eq_false_iff_not]
      omega
    · simp only [if_true, decide_eq_true_eq]
      omega
  unfold view
  simp only [hfrac, hbiased, hsign]
  rw [if_neg (by omega), if_neg (by omega)]

/-- INTERNAL: below the infinities the significand carries its top bit into the exponent. -/
theorem saturated (k q biased frac : ℕ) (hbiased : biased = k + 1023) (hk : k < 53)
    (hq : q = 2 ^ 52 + frac) (hfrac : frac < 2 ^ 52) :
    min ((k + 1022) * 2 ^ 52 + q) (2047 * 2 ^ 52) = biased * 2 ^ 52 + frac := by
  have hfits : (k + 1022) * 2 ^ 52 + q ≤ 2047 * 2 ^ 52 := by omega
  have hcarry : (k + 1022) * 2 ^ 52 + q = biased * 2 ^ 52 + frac := by omega
  rw [Nat.min_eq_left hfits]
  exact hcarry

/-- INTERNAL: an integer with at most 53 binary digits is packed with its own mantissa. -/
theorem ofInt_eq_pack (n : ℤ) (k biased frac : ℕ) (hbiased : biased = k + 1023) (hk : k < 53)
    (hlog : n.natAbs.log2 = k) (hpos : n.natAbs ≠ 0)
    (hq : n.natAbs * 2 ^ (52 - k) = 2 ^ 52 + frac) (hfrac : frac < 2 ^ 52) :
    ofInt n = pack (n < 0) (biased * 2 ^ 52 + frac) := by
  unfold ofInt round
  rw [if_neg hpos, hlog]
  have hunit : max ((0 : ℤ) + ((k : ℤ) + 1) - 53) (-1074) = (k : ℤ) - 52 := by omega
  have hle : (k : ℤ) - 52 - 0 ≤ 0 := by omega
  have hshift : (-((k : ℤ) - 52 - 0)).toNat = 52 - k := by omega
  have hexp : ((k : ℤ) - 52 + 1074).toNat = k + 1022 := by omega
  simp only [hunit, if_pos hle, hshift, hexp]
  rw [saturated k (n.natAbs * 2 ^ (52 - k)) biased frac hbiased hk hq hfrac]

/-- INTERNAL: a significand that a shift to the left has filled up is shifted back. -/
theorem size_of_shift (m k q : ℕ) (e : ℤ) (he : e = (k : ℤ) - 52) (hk : k < 53)
    (hq : m * 2 ^ (52 - k) = q) :
    (if 0 ≤ e then ((q * 2 ^ e.toNat : ℕ) : ℤ) else ((q / 2 ^ (-e).toNat : ℕ) : ℤ)) = m := by
  split
  next hle =>
    have hlast : 52 - k = 0 := by omega
    have hexp : e.toNat = 0 := by omega
    rw [hexp, ← hq, hlast, Nat.pow_zero, Nat.mul_one, Nat.mul_one]
  next hlt =>
    have hexp : (-e).toNat = 52 - k := by omega
    rw [hexp, ← hq, Nat.mul_div_cancel _ (Nat.two_pow_pos _)]

/-- INTERNAL: a number whose whole part fits is cut to it. -/
theorem toLong_of_view (x : Binary64) (n e : ℤ) (m : ℕ) (hn : FitsInt64 n)
    (hview : view x = .fin (n < 0) m e)
    (hsize : (if 0 ≤ e then ((m * 2 ^ e.toNat : ℕ) : ℤ) else ((m / 2 ^ (-e).toNat : ℕ) : ℤ)) =
      n.natAbs) : toLong x = n := by
  have hsign : (if decide (n < 0) = true then -(n.natAbs : ℤ) else n.natAbs) = n := by
    by_cases hneg : n < 0
    · simp only [hneg, decide_true, if_true]
      omega
    · simp only [hneg, decide_false, Bool.false_eq_true, if_false]
      omega
  unfold toLong
  rw [hview]
  dsimp only
  rw [hsize, hsign, if_pos hn]

/-- INTERNAL: a packed integer is cut to itself. -/
theorem toLong_pack (n : ℤ) (k biased frac : ℕ) (hbiased : biased = k + 1023) (hk : k < 53)
    (hfrac : frac < 2 ^ 52) (hq : n.natAbs * 2 ^ (52 - k) = 2 ^ 52 + frac) (hn : FitsInt64 n) :
    toLong (pack (n < 0) (biased * 2 ^ 52 + frac)) = n := by
  have hview := view_pack (n < 0) biased frac (by omega) (by omega) hfrac
  obtain ⟨m, hm⟩ : ∃ m, n.natAbs * 2 ^ (52 - k) = m := ⟨_, rfl⟩
  obtain ⟨e, he⟩ : ∃ e, (biased : ℤ) - 1075 = e := ⟨_, rfl⟩
  rw [he, ← hq, hm] at hview
  apply toLong_of_view _ n e m hn hview
  apply size_of_shift n.natAbs k m e _ hk hm
  omega

/-- INTERNAL: **an integer of at most 53 bits** as it is packed: shifted up to 53 bits. -/
theorem ofInt_packed (n : ℤ) (hn : n ≠ 0) (h : n.natAbs < 2 ^ 53) :
    ∃ k biased frac : ℕ, biased = k + 1023 ∧ k < 53 ∧ frac < 2 ^ 52 ∧
      n.natAbs * 2 ^ (52 - k) = 2 ^ 52 + frac ∧
      ofInt n = pack (n < 0) (biased * 2 ^ 52 + frac) := by
  have hpos : n.natAbs ≠ 0 := by omega
  have hlog : n.natAbs.log2 < 53 := (Nat.log2_lt hpos).mpr h
  have hlow : 2 ^ n.natAbs.log2 ≤ n.natAbs := Nat.log2_self_le hpos
  have hhigh : n.natAbs < 2 ^ (n.natAbs.log2 + 1) := Nat.lt_log2_self
  generalize hk : n.natAbs.log2 = k at hlog hlow hhigh
  have hsplit : 2 ^ k * 2 ^ (52 - k) = 2 ^ 52 := by
    rw [← Nat.pow_add]
    congr 1
    omega
  have hdouble : 2 ^ (k + 1) * 2 ^ (52 - k) = 2 ^ 53 := by
    rw [Nat.pow_succ, Nat.mul_right_comm, hsplit]
    norm_num
  have hq1 : 2 ^ 52 ≤ n.natAbs * 2 ^ (52 - k) := by
    rw [← hsplit]
    exact Nat.mul_le_mul_right _ hlow
  have hq2 : n.natAbs * 2 ^ (52 - k) < 2 ^ 53 := by
    rw [← hdouble]
    exact Nat.mul_lt_mul_of_pos_right hhigh (Nat.two_pow_pos _)
  obtain ⟨frac, hq⟩ := Nat.exists_eq_add_of_le hq1
  have hfrac : frac < 2 ^ 52 := by omega
  obtain ⟨biased, hbiased⟩ : ∃ b, b = k + 1023 := ⟨_, rfl⟩
  exact ⟨k, biased, frac, hbiased, hlog, hfrac, hq,
    ofInt_eq_pack n k biased frac hbiased hlog hk hpos hq hfrac⟩

/-- INTERNAL: such an integer survives the way through a double. -/
theorem toLong_ofInt (n : ℤ) (h : n.natAbs < 2 ^ 53) : toLong (ofInt n) = n := by
  by_cases hzero : n = 0
  · subst hzero
    have hview : view (ofInt 0) = .fin false 0 (-1074) := rfl
    unfold toLong
    rw [hview]
    simp only [Nat.zero_mul, Nat.zero_div, ite_self]
    decide
  · obtain ⟨k, biased, frac, hbiased, hk, hfrac, hq, hpack⟩ := ofInt_packed n hzero h
    have hfits : FitsInt64 n := by
      unfold FitsInt64
      omega
    rw [hpack]
    exact toLong_pack n k biased frac hbiased hk hfrac hq hfits

/-- INTERNAL: a conversion that gives anything but the least `long` gives the integer part. -/
theorem intPart_of_toLong (x : Binary64) (n : ℤ) (h : toLong x = n) (hn : n ≠ -2 ^ 63) :
    intPart x = some n := by
  unfold toLong at h
  unfold intPart
  cases hview : view x with
  | nan =>
    rw [hview] at h
    exact absurd h.symm hn
  | inf neg =>
    rw [hview] at h
    exact absurd h.symm hn
  | fin neg m e =>
    rw [hview] at h
    dsimp only at h ⊢
    generalize (if neg then _ else _ : ℤ) = size at h ⊢
    split at h
    · rw [h]
    · exact absurd h.symm hn

/-- INTERNAL: an `int` survives the way through a double. -/
theorem toInt_ofInt (n : ℤ) (h : FitsInt32 n) : toInt (ofInt n) = some n := by
  have hbound : n.natAbs < 2 ^ 53 ∧ n ≠ -2 ^ 63 := by
    unfold FitsInt32 at h
    omega
  unfold toInt
  rw [intPart_of_toLong _ n (toLong_ofInt n hbound.1) hbound.2, Option.filter_some,
    decide_eq_true h, if_pos rfl]

/-- INTERNAL: a positive integer of at most 53 bits is above zero as a double, too. -/
theorem lt_zero_ofInt (n : ℤ) (hpos : 0 < n) (h : n.natAbs < 2 ^ 53) :
    lt (pack false 0) (ofInt n) = true := by
  obtain ⟨k, biased, frac, hbiased, hk, hfrac, -, hpack⟩ := ofInt_packed n (by omega) h
  rw [decide_eq_false (by omega)] at hpack
  have hnat : (ofInt n).toNat = biased * 2 ^ 52 + frac := by
    rw [hpack]
    unfold pack
    rw [BitVec.toNat_ofNat, if_neg (by simp), Nat.zero_add]
    apply Nat.mod_eq_of_lt
    omega
  have hmag : magnitude (ofInt n) = biased * 2 ^ 52 + frac := by
    unfold magnitude
    rw [hnat]
    apply Nat.mod_eq_of_lt
    omega
  have hsign : sign (ofInt n) = false := by
    unfold sign
    rw [hnat, decide_eq_false_iff_not]
    omega
  have hkey : key (ofInt n) = (biased * 2 ^ 52 + frac : ℕ) := by
    unfold key
    rw [hsign, hmag]
    rfl
  have hzero : key (pack false 0) = 0 := by decide +kernel
  have hnan : isNaN (ofInt n) = false := by
    unfold isNaN
    rw [hmag, decide_eq_false_iff_not]
    omega
  unfold lt
  rw [hkey, hzero, hnan]
  simp only [Bool.not_false, Bool.and_true, Bool.and_eq_true, decide_eq_true_eq]
  refine ⟨by decide +kernel, ?_⟩
  have : 2 ^ 52 ≤ biased * 2 ^ 52 := Nat.le_mul_of_pos_left _ (by omega)
  omega

/-- INTERNAL: what is cut fits. -/
theorem toLong_fits (x : Binary64) : FitsInt64 (toLong x) := by
  unfold toLong
  split
  · decide
  · decide
  next neg m e _ =>
    dsimp only
    generalize (if neg = true then -(if 0 ≤ e then ((m * 2 ^ e.toNat : ℕ) : ℤ)
      else (m / 2 ^ (-e).toNat : ℕ)) else _) = n
    split
    next h => exact h
    · decide

/-! ## In decimal -/

/-- INTERNAL: a decimal digit is written as the byte that is read back for it. -/
theorem digit_byte (c : Char) (h : c.isDigit = true) :
    isDigit (UInt8.ofNat c.toNat) = true ∧
      (hexValue (UInt8.ofNat c.toNat)).getD 0 = c.toNat - 48 := by
  have hrange : 48 ≤ c.toNat ∧ c.toNat ≤ 57 := by
    simp only [Char.isDigit, Bool.and_eq_true, decide_eq_true_eq] at h
    exact h
  generalize c.toNat = n at hrange
  have hall : ∀ k < 58, 48 ≤ k → isDigit (UInt8.ofNat k) = true ∧
      (hexValue (UInt8.ofNat k)).getD 0 = k - 48 := by decide
  exact hall n (by omega) hrange.1

/-- INTERNAL: a numeral is made of digits. -/
theorem decimal_digits (n : ℕ) : ∀ c ∈ decimal n, isDigit c = true := by
  intro c hc
  unfold decimal at hc
  rw [List.mem_map] at hc
  obtain ⟨d, hd, rfl⟩ := hc
  exact (digit_byte d (Nat.isDigit_of_mem_toDigits (by omega) (by omega) hd)).1

/-- INTERNAL: a numeral is not empty. -/
theorem decimal_ne_nil (n : ℕ) : decimal n ≠ [] := by
  unfold decimal
  simp

/-- INTERNAL: **the decimal text** of a number stands for it. -/
theorem digitsValue_decimal (n : ℕ) : digitsValue 10 (decimal n) = n := by
  have hfold : ∀ (ds : List Char) (acc : ℕ), (∀ d ∈ ds, d.isDigit = true) →
      (ds.map fun c => UInt8.ofNat c.toNat).foldl (fun n c => 10 * n + (hexValue c).getD 0) acc =
        Nat.ofDigitChars 10 ds acc := by
    intro ds
    induction ds with
    | nil => simp
    | cons d ds ih =>
      intro acc hds
      rw [List.map_cons, List.foldl_cons, (digit_byte d (hds d (by simp))).2,
        Nat.ofDigitChars_cons]
      exact ih _ fun e he => hds e (by simp [he])
  unfold digitsValue decimal
  rw [hfold _ _ fun d hd => Nat.isDigit_of_mem_toDigits (by omega) (by omega) hd]
  exact Nat.ofDigitChars_toDigits (by omega) (by omega)

/-- INTERNAL: a text in decimal starts with a zero only when it is one. -/
theorem decimal_head (n : ℕ) (h : (decimal n).head? = some 48) : (decimal n).length = 1 := by
  have hhead : ∀ m, (Nat.toDigits 10 m).head? = some '0' → m = 0 := by
    intro m
    induction m using Nat.strong_induction_on with
    | _ m ih =>
      intro hm
      rw [Nat.toDigits_eq_if (by omega)] at hm
      split at hm
      next hlt =>
        have hall : ∀ k < 10, Nat.digitChar k = '0' → k = 0 := by decide
        exact hall m hlt (by simpa using hm)
      next hge =>
        rw [List.head?_append_of_ne_nil _ Nat.toDigits_ne_nil] at hm
        have := ih (m / 10) (by omega) hm
        omega
  unfold decimal at h ⊢
  rw [List.head?_map] at h
  simp only [Option.map_eq_some_iff] at h
  obtain ⟨c, hc, hbyte⟩ := h
  have hdigit : c.isDigit = true :=
    Nat.isDigit_of_mem_toDigits (by omega) (by omega) (List.mem_of_head? hc)
  have hzero : c = '0' := by
    have hvalue := (digit_byte c hdigit).2
    rw [hbyte] at hvalue
    have hnat : c.toNat = 48 := by
      simp only [Char.isDigit, Bool.and_eq_true, decide_eq_true_eq] at hdigit
      have h48 : (hexValue 48).getD 0 = 0 := by decide
      have hlo : 48 ≤ c.toNat := hdigit.1
      omega
    exact Char.toNat_inj.mp hnat
  rw [hzero] at hc
  rw [hhead n hc]
  rfl

end Binary64

/-- INTERNAL: a natural number is printed without a sign. -/
theorem fmtD_natural (n : ℕ) : fmtD n = Binary64.decimal n := by
  unfold fmtD
  rw [if_neg (by omega), List.nil_append, Int.natAbs_natCast]

/-- INTERNAL: a `long` has at most 19 digits and a sign. -/
theorem fmtD_length (n : ℤ) (h : FitsInt64 n) : (fmtD n).length ≤ 20 := by
  have hdigits : (Binary64.decimal n.natAbs).length ≤ 19 := by
    unfold Binary64.decimal
    rw [List.length_map, Nat.length_toDigits_le_iff (by omega) (by omega)]
    obtain ⟨hlo, hhi⟩ := h
    omega
  unfold fmtD
  rw [List.length_append]
  split
  · have hsign : (lit "-").length = 1 := by simp [lit]
    omega
  · rw [List.length_nil]
    omega

/-- INTERNAL: only digits and the sign are in the text of a number. -/
theorem not_mem_fmtD (c : UInt8) (hsign : c ≠ 45) (hdigit : Binary64.isDigit c = false) (n : ℤ) :
    c ∉ fmtD n := by
  intro hc
  unfold fmtD at hc
  rcases List.mem_append.mp hc with hc | hc
  · split at hc
    · exact hsign (by simpa [lit] using hc)
    · exact absurd hc List.not_mem_nil
  · rw [Binary64.decimal_digits _ c hc] at hdigit
    cases hdigit

end OpenHes.Library
