import OpenHes.Library.JsonText

/-!
# Scanning JSON text

What the scanner makes of a text that is put together from pieces. A piece whose tokens are
strings and punctuation is scanned the same in front of anything; a text between quotes is
cut off at its closing quote, whatever is in it, when nothing good comes of reading on
behind that quote.
-/

set_option autoImplicit false

namespace OpenHes.Library

namespace Json

open Binary64

/-! ## The scanner makes progress -/

/-- INTERNAL: a quote ends the string. -/
theorem scanString_quote (rest : CStr) : scanString (34 :: rest) = some ([], rest) := by
  rw [scanString.eq_def]
  simp

/-- INTERNAL: an escape is taken with its backslash. -/
theorem scanString_escape (e : UInt8) (rest : CStr) (h : isEscape e rest = true) :
    scanString (92 :: e :: rest) = (scanString rest).map fun p => (92 :: e :: p.1, p.2) := by
  rw [scanString]
  simp [h]

/-- INTERNAL: a plain byte is taken as it is. -/
theorem scanString_plain (c : UInt8) (rest : CStr) (hquote : c ≠ 34) (hctl : ¬ c < 32)
    (hback : c ≠ 92) :
    scanString (c :: rest) = (scanString rest).map fun p => (c :: p.1, p.2) := by
  rw [scanString.eq_def]
  simp [hquote, hctl, hback]

/-- INTERNAL: a string and what is behind it make up the text, with the quote. -/
theorem scanString_length (text raw rest : CStr) (h : scanString text = some (raw, rest)) :
    raw.length + rest.length + 1 = text.length := by
  fun_induction scanString text generalizing raw rest with
  | case1 => cases h
  | case2 =>
    cases h
    simp
  | case3 => cases h
  | case4 => cases h
  | case5 e tail hesc _ _ ih =>
    simp only [Option.map_eq_some_iff, Prod.mk.injEq] at h
    obtain ⟨p, hp, rfl, rfl⟩ := h
    have := ih p.1 p.2 hp
    simp only [List.length_cons]
    omega
  | case6 => cases h
  | case7 c tail hc hctl hback ih =>
    simp only [Option.map_eq_some_iff, Prod.mk.injEq] at h
    obtain ⟨p, hp, rfl, rfl⟩ := h
    have := ih p.1 p.2 hp
    simp only [List.length_cons]
    omega

/-- INTERNAL: skipping makes no text longer. -/
theorem length_dropWhile_le (p : UInt8 → Bool) (text : CStr) :
    (text.dropWhile p).length ≤ text.length :=
  (List.dropWhile_suffix p).length_le

/-- INTERNAL: skipping something makes it shorter. -/
theorem length_dropWhile_lt (p : UInt8 → Bool) (text : CStr) (h : text.takeWhile p ≠ []) :
    (text.dropWhile p).length < text.length := by
  have hsum := congrArg List.length (List.takeWhile_append_dropWhile (p := p) (l := text))
  have hpos := List.length_pos_iff.mpr h
  rw [List.length_append] at hsum
  omega

/-- INTERNAL: taking off a sign makes no text longer. -/
theorem minusSign_length (text : CStr) : (minusSign text).2.length ≤ text.length := by
  unfold minusSign
  split
  · simp
  · split <;> simp

/-- INTERNAL: nor does taking off the sign of an exponent. -/
theorem readSign_length (text : CStr) : (readSign text).2.length ≤ text.length := by
  unfold readSign
  split
  · simp
  · split
    · simp
    · split <;> simp

/-- INTERNAL: nor does skipping a fraction. -/
theorem skipFraction_length (text rest : CStr) (h : skipFraction text = some rest) :
    rest.length ≤ text.length := by
  unfold skipFraction at h
  split at h
  · cases h
    simp
  · split at h
    · split at h
      · cases h
      · cases h
        exact Nat.le_succ_of_le (length_dropWhile_le _ _)
    · cases h
      simp

/-- INTERNAL: nor does skipping an exponent. -/
theorem skipExponent_length (text rest : CStr) (h : skipExponent text = some rest) :
    rest.length ≤ text.length := by
  unfold skipExponent at h
  split at h
  · cases h
    simp
  next c tail =>
    split at h
    · dsimp only at h
      split at h
      · cases h
      · cases h
        have hsign := readSign_length tail
        have hdrop := length_dropWhile_le isDigit (readSign tail).2
        simp only [List.length_cons]
        omega
    · cases h
      simp

/-- INTERNAL: a number takes a byte at least. -/
theorem scanNumber_length (text rest : CStr) (t : Token) (h : scanNumber text = some (t, rest)) :
    rest.length < text.length := by
  unfold scanNumber at h
  dsimp only at h
  have hsign := minusSign_length text
  generalize (minusSign text).2 = unsigned at h hsign
  split at h
  · cases h
  next hwhole =>
    simp only [Bool.or_eq_true, decide_eq_true_eq, not_or] at hwhole
    have hdrop := length_dropWhile_lt isDigit unsigned hwhole.1
    split at h
    · simp only [Option.bind_eq_some_iff] at h
      obtain ⟨after, ⟨frac, hfrac, hexp⟩, h⟩ := h
      have h1 := skipFraction_length _ _ hfrac
      have h2 := skipExponent_length _ _ hexp
      split at h
      · cases h
      · cases h
        omega
    · generalize (if (minusSign text).1 then -(digitsValue 10 (unsigned.takeWhile isDigit) : ℤ)
        else digitsValue 10 (unsigned.takeWhile isDigit)) = n at h
      split at h
      · cases h
        omega
      · cases h

/-- INTERNAL: a token makes no text longer. -/
theorem lexScan_length (c : UInt8) (text rest : CStr) (t : Token)
    (h : lexScan c text = some (t, rest)) : rest.length ≤ text.length := by
  unfold lexScan at h
  split at h
  · cases h
    exact le_rfl
  · split at h
    · simp only [Option.bind_eq_some_iff, Option.map_eq_some_iff, Prod.mk.injEq] at h
      obtain ⟨p, hp, v, -, -, rfl⟩ := h
      have := scanString_length text p.1 p.2 hp
      omega
    · split at h
      · have := scanNumber_length _ _ _ h
        simp only [List.length_cons] at this
        omega
      · split at h
        next halpha =>
          simp only [Option.map_eq_some_iff, Prod.mk.injEq] at h
          obtain ⟨k, -, -, rfl⟩ := h
          rw [List.dropWhile_cons_of_pos halpha]
          exact length_dropWhile_le _ _
        · cases h

/-- INTERNAL: fuel for each byte is enough. -/
theorem lexAll_fuel (fuel : ℕ) (text : CStr) (h : text.length ≤ fuel) :
    lexAll fuel text = tokens text := by
  unfold tokens
  induction hn : text.length using Nat.strong_induction_on generalizing fuel text with
  | _ n ih =>
    cases text with
    | nil => simp [lexAll]
    | cons c rest =>
      obtain ⟨fuel, rfl⟩ : ∃ k, fuel = k + 1 := ⟨fuel - 1, by simp at h; omega⟩
      subst hn
      simp only [List.length_cons, Nat.add_le_add_iff_right] at h
      simp only [List.length_cons, lexAll]
      split
      · rw [ih rest.length (by simp) fuel rest h rfl]
      · apply Option.bind_congr
        intro p hp
        have hlen := lexScan_length c rest p.2 p.1 hp
        rw [ih p.2.length (by simp; omega) fuel p.2 (by omega) rfl,
          ih p.2.length (by simp; omega) rest.length p.2 hlen rfl]

/-- INTERNAL: an empty text has no tokens. -/
@[simp] theorem tokens_nil : tokens [] = some [] := rfl

/-- INTERNAL: a blank is skipped. -/
theorem tokens_blank (c : UInt8) (rest : CStr) (h : isBlank c = true) :
    tokens (c :: rest) = tokens rest := by
  unfold tokens
  rw [List.length_cons, lexAll, if_pos h]

/-- INTERNAL: any other byte starts a token. -/
theorem tokens_cons (c : UInt8) (rest : CStr) (h : isBlank c = false) :
    tokens (c :: rest) = (lexScan c rest).bind fun p => (tokens p.2).map (p.1 :: ·) := by
  unfold tokens
  rw [List.length_cons, lexAll, if_neg (by simp [h])]
  apply Option.bind_congr
  intro p hp
  rw [lexAll_fuel _ _ (lexScan_length c rest p.2 p.1 hp)]
  rfl

/-- INTERNAL: a token stands in front of the tokens behind it. -/
theorem tokens_token (c : UInt8) (rest after : CStr) (t : Token) (ts : List Token)
    (hblank : isBlank c = false) (hscan : lexScan c rest = some (t, after))
    (h : tokens after = some ts) : tokens (c :: rest) = some (t :: ts) := by
  rw [tokens_cons c rest hblank, hscan, Option.bind_some, h, Option.map_some]

/-- INTERNAL: **induction on the tokens** of a text, a blank or a token at a time. -/
theorem tokens_induction {motive : (text : CStr) → (ts : List Token) → tokens text = some ts → Prop}
    (nil : motive [] [] tokens_nil)
    (blank : ∀ c rest ts (hblank : isBlank c = true) (h : tokens rest = some ts),
      motive rest ts h → motive (c :: rest) ts ((tokens_blank c rest hblank).trans h))
    (token : ∀ c rest t after ts (hblank : isBlank c = false)
      (hscan : lexScan c rest = some (t, after)) (h : tokens after = some ts),
      motive after ts h →
        motive (c :: rest) (t :: ts) (tokens_token c rest after t ts hblank hscan h))
    (text : CStr) (ts : List Token) (h : tokens text = some ts) : motive text ts h := by
  induction hn : text.length using Nat.strong_induction_on generalizing text ts with
  | _ n ih =>
    subst hn
    cases text with
    | nil =>
      cases h
      exact nil
    | cons c rest =>
      by_cases hblank : isBlank c = true
      · have hrest : tokens rest = some ts := (tokens_blank c rest hblank).symm.trans h
        exact blank c rest ts hblank hrest
          (ih rest.length (Nat.lt_succ_self _) rest ts hrest rfl)
      · have hblank : isBlank c = false := by simpa using hblank
        have hcons := h
        rw [tokens_cons c rest hblank] at hcons
        simp only [Option.bind_eq_some_iff, Option.map_eq_some_iff] at hcons
        obtain ⟨⟨t, after⟩, hscan, us, hus, rfl⟩ := hcons
        have hlen := lexScan_length c rest after t hscan
        exact token c rest t after us hblank hscan hus
          (ih after.length (Nat.lt_succ_of_le hlen) after us hus rfl)

/-! ## Pieces of strings and punctuation -/

/-- Is the token a string or punctuation? -/
def Token.isFixed : Token → Bool
  | .integer _ | .real _ | .bool _ | .null => false
  | _ => true

/-- INTERNAL: an escape stays one when more text follows. -/
theorem isEscape_append (e : UInt8) (rest q : CStr) (h : isEscape e rest = true) :
    isEscape e (rest ++ q) = true := by
  unfold isEscape at h ⊢
  split at h
  next he =>
    rw [if_pos he]
    unfold fourHex at h ⊢
    simp only [Bool.and_eq_true, decide_eq_true_eq, List.length_take] at h
    have hlen : 4 ≤ rest.length := by omega
    rw [List.take_append_of_le_length hlen]
    simp only [Bool.and_eq_true, decide_eq_true_eq, List.length_take]
    exact h
  next he =>
    rw [if_neg he]
    exact h

/-- INTERNAL: a string is scanned the same when more text follows. -/
theorem scanString_append (text raw rest q : CStr) (h : scanString text = some (raw, rest)) :
    scanString (text ++ q) = some (raw, rest ++ q) := by
  fun_induction scanString text generalizing raw rest with
  | case1 => cases h
  | case2 tail =>
    cases h
    rw [List.cons_append, scanString_quote]
  | case3 => cases h
  | case4 => cases h
  | case5 e tail hesc _ _ ih =>
    simp only [Option.map_eq_some_iff, Prod.mk.injEq] at h
    obtain ⟨p, hp, rfl, rfl⟩ := h
    rw [List.cons_append, List.cons_append,
      scanString_escape e (tail ++ q) (isEscape_append e tail q hesc), ih p.1 p.2 hp]
    rfl
  | case6 => cases h
  | case7 c tail hc hctl hback ih =>
    simp only [Option.map_eq_some_iff, Prod.mk.injEq] at h
    obtain ⟨p, hp, rfl, rfl⟩ := h
    rw [List.cons_append, scanString_plain c (tail ++ q) hc hctl hback, ih p.1 p.2 hp]
    rfl

/-- INTERNAL: a number may go on with more text. -/
theorem scanNumber_not_fixed (text rest : CStr) (t : Token)
    (h : scanNumber text = some (t, rest)) : t.isFixed = false := by
  unfold scanNumber at h
  dsimp only at h
  split at h
  · cases h
  · split at h
    · simp only [Option.bind_eq_some_iff] at h
      obtain ⟨after, -, h⟩ := h
      split at h
      · cases h
      · cases h
        rfl
    · generalize (if (minusSign text).1 then _ else _ : ℤ) = n at h
      split at h
      · cases h
        rfl
      · cases h

/-- INTERNAL: so may a word. -/
theorem keyword_not_fixed (word : CStr) (t : Token) (h : keyword word = some t) :
    t.isFixed = false := by
  unfold keyword at h
  split at h
  · cases h
    rfl
  · split at h
    · cases h
      rfl
    · split at h
      · cases h
        rfl
      · cases h

/-- INTERNAL: no mark is a string. -/
theorem punct_not_string (c : UInt8) (v : CStr) : punct c ≠ some (.string v) := by
  intro h
  unfold punct at h
  repeat' (split at h <;> try cases h)

/-- INTERNAL: **what is scanned** as a string or punctuation starts with its sign. -/
theorem lexScan_fixed (c : UInt8) (text rest : CStr) (t : Token)
    (h : lexScan c text = some (t, rest)) (hfixed : t.isFixed = true) :
    (punct c = some t ∧ rest = text) ∨
      (punct c = none ∧ c = 34 ∧ ∃ raw v, scanString text = some (raw, rest) ∧
        stringValue raw = some v ∧ t = .string v) := by
  unfold lexScan at h
  split at h
  next t' hpunct =>
    cases h
    exact Or.inl ⟨hpunct, rfl⟩
  next hpunct =>
    split at h
    next hquote =>
      simp only [Option.bind_eq_some_iff, Option.map_eq_some_iff, Prod.mk.injEq] at h
      obtain ⟨⟨raw, after⟩, hscan, v, hv, rfl, rfl⟩ := h
      exact Or.inr ⟨hpunct, hquote, raw, v, hscan, hv, rfl⟩
    · split at h
      · rw [scanNumber_not_fixed _ _ _ h] at hfixed
        cases hfixed
      · split at h
        · simp only [Option.map_eq_some_iff, Prod.mk.injEq] at h
          obtain ⟨k, hk, rfl, -⟩ := h
          rw [keyword_not_fixed _ _ hk] at hfixed
          cases hfixed
        · cases h

/-- INTERNAL: a token that is fixed is scanned the same when more text follows. -/
theorem lexScan_append (c : UInt8) (text rest q : CStr) (t : Token)
    (h : lexScan c text = some (t, rest)) (hfixed : t.isFixed = true) :
    lexScan c (text ++ q) = some (t, rest ++ q) := by
  obtain ⟨hpunct, rfl⟩ | ⟨hpunct, hquote, raw, v, hscan, hv, rfl⟩ :=
    lexScan_fixed c text rest t h hfixed
  · unfold lexScan
    rw [hpunct]
  · unfold lexScan
    rw [hpunct]
    dsimp only
    rw [if_pos hquote, scanString_append text raw rest q hscan]
    simp [hv]

/-- INTERNAL: **a piece** of strings and punctuation is scanned the same in front of any
text. -/
theorem tokens_append (p q : CStr) (ts : List Token) (h : tokens p = some ts)
    (hfixed : ∀ t ∈ ts, t.isFixed = true) : tokens (p ++ q) = (tokens q).map (ts ++ ·) := by
  induction p, ts, h using tokens_induction with
  | nil => simp
  | blank c rest ts hblank h ih =>
    rw [List.cons_append, tokens_blank c _ hblank]
    exact ih hfixed
  | token c rest t after ts hblank hscan h ih =>
    have hscan' := lexScan_append c rest after q t hscan (hfixed t List.mem_cons_self)
    have hrec := ih fun u hu => hfixed u (List.mem_cons_of_mem t hu)
    rw [List.cons_append, tokens_cons c _ hblank, hscan']
    simp only [Option.bind_some, hrec, Option.map_map]
    congr 1

end Json

end OpenHes.Library
