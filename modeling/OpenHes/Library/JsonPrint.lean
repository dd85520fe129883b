import OpenHes.Library.Decimal
import OpenHes.Library.JsonScan

/-!
# Printed JSON

A program that prints JSON with `printf` puts texts and numbers between fixed pieces. What
a text puts between its quotes is its own affair: it may be the text itself, it may stand
for another one, and it may end the string and go on with more tokens. It cannot reach
beyond its place, though, and a string token that it makes is shorter than it is, unless
the text is free of quotes, backslashes and control characters.
-/

set_option autoImplicit false

namespace OpenHes.Library

namespace Json

open Binary64

/-! ## Texts between quotes -/

/-- The text between quotes, as `\"%s\"` prints it. -/
def quote (s : CStr) : CStr := 34 :: (s ++ [34])

/-- Does the text hold no quote, no backslash and no control character? -/
def Unquoted (s : CStr) : Prop := ∀ c ∈ s, 32 ≤ c ∧ c ≠ 34 ∧ c ≠ 92

instance (s : CStr) : Decidable (Unquoted s) := List.decidableBAll _ s

/-- The string that stands between the quotes, if it is one. -/
def slotValue (s : CStr) : CStr :=
  match tokens (quote s) with
  | some [.string v] => v
  | _ => []

/-- Is the text one JSON string between its quotes? -/
def WellQuoted (s : CStr) : Prop := tokens (quote s) = some [.string (slotValue s)]

instance (s : CStr) : Decidable (WellQuoted s) := inferInstanceAs (Decidable (_ = _))

/-- INTERNAL: a byte from the blank on is no control character. -/
theorem not_lt_of_le_byte (c : UInt8) (h : 32 ≤ c) : ¬ c < 32 := by
  rw [UInt8.not_lt]
  exact h

/-- INTERNAL: a string without quotes and backslashes ends at the next quote. -/
theorem scanString_unquoted (s rest : CStr) (h : Unquoted s) :
    scanString (s ++ 34 :: rest) = some (s, rest) := by
  induction s with
  | nil => exact scanString_quote rest
  | cons c s ih =>
    obtain ⟨hctl, hquote, hback⟩ := h c (by simp)
    rw [List.cons_append, scanString_plain c _ hquote (not_lt_of_le_byte c hctl) hback,
      ih fun d hd => h d (by simp [hd])]
    rfl

/-- INTERNAL: a byte that is no backslash stands for itself. -/
theorem unescape_plain (c : UInt8) (rest : CStr) (h : c ≠ 92) :
    unescape (c :: rest) = (unescape rest).map (c :: ·) := by
  rw [unescape.eq_def]
  simp [h]

/-- INTERNAL: a text without backslashes stands for itself. -/
theorem unescape_unquoted (s : CStr) (h : Unquoted s) : unescape s = some s := by
  induction s with
  | nil => rfl
  | cons c s ih =>
    rw [unescape_plain c s (h c (by simp)).2.2, ih fun d hd => h d (by simp [hd])]
    rfl

/-- INTERNAL: such a text holds no NUL. -/
theorem Unquoted.no_nul (s : CStr) (h : Unquoted s) : s.contains 0 = false := by
  rw [List.contains_eq_any_beq, List.any_eq_false]
  intro c hc hzero
  have hctl := (h c hc).1
  rw [← eq_of_beq hzero] at hctl
  exact absurd hctl (by decide)

/-- INTERNAL: at a quote a string is scanned. -/
theorem lexScan_quote (rest : CStr) :
    lexScan 34 rest =
      (scanString rest).bind fun p => (stringValue p.1).map fun text => (.string text, p.2) := by
  have hpunct : punct 34 = none := by decide
  unfold lexScan
  rw [hpunct]
  simp

/-- INTERNAL: the tokens of a text that starts with a quote. -/
theorem tokens_quote_cons (rest : CStr) :
    tokens (34 :: rest) = (lexScan 34 rest).bind fun p => (tokens p.2).map (p.1 :: ·) :=
  tokens_cons 34 rest (by decide)

/-- INTERNAL: a text that needs no escapes is one string between quotes. -/
theorem tokens_unquoted (s : CStr) (h : Unquoted s) : tokens (quote s) = some [.string s] := by
  unfold quote
  rw [tokens_quote_cons, lexScan_quote, scanString_unquoted s [] h]
  have hvalue : stringValue s = some s := by
    unfold stringValue
    rw [unescape_unquoted s h, Option.filter_some, h.no_nul]
    rfl
  rw [Option.bind_some, hvalue, Option.map_some, Option.bind_some, tokens_nil]
  rfl

/-- INTERNAL: its string is the text itself. -/
theorem slotValue_unquoted (s : CStr) (h : Unquoted s) : slotValue s = s := by
  unfold slotValue
  rw [tokens_unquoted s h]

/-- INTERNAL: it is well quoted. -/
theorem Unquoted.wellQuoted (s : CStr) (h : Unquoted s) : WellQuoted s := by
  unfold WellQuoted
  rw [slotValue_unquoted s h, tokens_unquoted s h]

/-- INTERNAL: a well quoted text gives one string in front of the rest. -/
theorem tokens_slot (s q : CStr) (h : WellQuoted s) :
    tokens (quote s ++ q) = (tokens q).map (.string (slotValue s) :: ·) := by
  have hfixed : ∀ t ∈ [Token.string (slotValue s)], t.isFixed = true := by
    intro t ht
    rw [List.mem_singleton.mp ht]
    rfl
  exact tokens_append (quote s) q _ h hfixed

/-! ## Numbers -/

/-- Does the text not go on with the number in front of it? -/
def Stops (rest : CStr) : Prop :=
  ∃ c tail, rest = c :: tail ∧ isDigit c = false ∧ goesOn rest = false

/-- INTERNAL: a digit or a minus sign is no blank, no mark and no quote. -/
theorem numeral_byte (c : UInt8) (h : (isDigit c || decide (c = 45)) = true) :
    isBlank c = false ∧ punct c = none ∧ c ≠ 34 := by
  revert c
  apply forall_byte
  decide +kernel

/-- INTERNAL: a numeral is scanned up to where it stops. -/
theorem scanNumber_digits (neg : Bool) (m : ℕ) (rest : CStr) (hstop : Stops rest)
    (hfits : FitsInt64 (if neg then -(m : ℤ) else m)) :
    scanNumber ((if neg then [45] else []) ++ (decimal m ++ rest)) =
      some (.integer (if neg then -(m : ℤ) else m), rest) := by
  obtain ⟨c, tail, rfl, hdigit, hgoes⟩ := hstop
  have hwhole : (decimal m ++ c :: tail).takeWhile isDigit = decimal m := by
    rw [List.takeWhile_append_of_pos (decimal_digits m), List.takeWhile_cons_of_neg (by simp [hdigit]),
      List.append_nil]
  have hrest : (decimal m ++ c :: tail).dropWhile isDigit = c :: tail := by
    rw [List.dropWhile_append_of_pos (decimal_digits m), List.dropWhile_cons_of_neg (by simp [hdigit])]
  have hminus : minusSign ((if neg then [45] else []) ++ (decimal m ++ c :: tail)) =
      (neg, decimal m ++ c :: tail) := by
    cases neg with
    | true => rfl
    | false =>
      obtain ⟨d, ds, hds⟩ := List.exists_cons_of_ne_nil (decimal_ne_nil m)
      have hd : isDigit d = true := decimal_digits m d (by simp [hds])
      have hne : d ≠ 45 := by
        rintro rfl
        exact absurd hd (by decide)
      rw [hds]
      simp [minusSign, hne]
  have hzero : ((decimal m).head? = some 48 && decide (1 < (decimal m).length)) = false := by
    by_cases h : (decimal m).head? = some 48
    · have := decimal_head m h
      simp [this]
    · simp [h]
  unfold scanNumber
  rw [hminus]
  simp only [hwhole, hrest, hgoes, hzero, digitsValue_decimal, decimal_ne_nil, decide_false,
    Bool.or_false, Bool.false_eq_true, if_false, if_pos hfits]

/-- INTERNAL: a printed integer gives one token in front of the rest. -/
theorem tokens_fmtD (n : ℤ) (rest : CStr) (hstop : Stops rest) (hfits : FitsInt64 n) :
    tokens (fmtD n ++ rest) = (tokens rest).map (.integer n :: ·) := by
  have hvalue : (if decide (n < 0) = true then -(n.natAbs : ℤ) else n.natAbs) = n := by
    by_cases hneg : n < 0
    · simp only [hneg, decide_true, if_true]
      omega
    · simp only [hneg, decide_false, Bool.false_eq_true, if_false]
      omega
  have htext : fmtD n ++ rest =
      (if decide (n < 0) = true then [45] else []) ++ (decimal n.natAbs ++ rest) := by
    unfold fmtD
    rw [List.append_assoc]
    congr 1
    by_cases hneg : n < 0 <;> simp [hneg, lit]
  have hscan := scanNumber_digits (n < 0) n.natAbs rest hstop (by rw [hvalue]; exact hfits)
  rw [hvalue, ← htext] at hscan
  obtain ⟨c, tail, hc⟩ : ∃ c tail, fmtD n ++ rest = c :: tail := by
    apply List.exists_cons_of_ne_nil
    unfold fmtD
    simp [decimal_ne_nil]
  have hfirst : (isDigit c || decide (c = 45)) = true := by
    rw [htext] at hc
    obtain ⟨d, ds, hds⟩ := List.exists_cons_of_ne_nil (decimal_ne_nil n.natAbs)
    by_cases hneg : n < 0
    · simp only [hneg, decide_true, if_true, List.cons_append, List.cons.injEq] at hc
      simp [← hc.1]
    · simp only [hneg, decide_false, Bool.false_eq_true, if_false, List.nil_append, hds,
        List.cons_append, List.cons.injEq] at hc
      rw [← hc.1]
      simp [decimal_digits n.natAbs d (by simp [hds])]
  obtain ⟨hblank, hpunct, hquote⟩ := numeral_byte c hfirst
  rw [hc] at hscan ⊢
  rw [tokens_cons c tail hblank]
  unfold lexScan
  rw [hpunct]
  simp only [hquote, if_false, hfirst, if_true, hscan, Option.bind_some]

/-! ## A text ends at its quote -/

/-- INTERNAL: a code point takes at most four bytes. -/
theorem utf8Encode_length (n : ℕ) : (utf8Encode n).length ≤ 4 := by
  unfold utf8Encode
  split
  · simp
  · split
    · simp
    · split <;> simp

/-- INTERNAL: unescaping makes no text longer, and keeps the length only of a text without
backslashes. -/
theorem unescape_length (raw text : CStr) (h : unescape raw = some text) :
    text.length ≤ raw.length ∧ (text.length = raw.length → text = raw ∧ 92 ∉ raw) := by
  fun_induction unescape raw generalizing text with
  | case1 =>
    cases h
    simp
  | case2 => cases h
  | case3 h1 h2 h3 h4 value _ b u l1 l2 l3 l4 rest low _ ih =>
    simp only [Option.map_eq_some_iff] at h
    obtain ⟨tail, htail, rfl⟩ := h
    have hrec := (ih tail htail).1
    have hsize := utf8Encode_length ((value - 0xD800) * 1024 + (low - 0xDC00) + 0x10000)
    simp only [List.length_append, List.length_cons]
    exact ⟨by omega, fun _ => by omega⟩
  | case4 => cases h
  | case5 => cases h
  | case6 => cases h
  | case7 h1 h2 h3 h4 rest value _ _ ih =>
    simp only [Option.map_eq_some_iff] at h
    obtain ⟨tail, htail, rfl⟩ := h
    have hrec := (ih tail htail).1
    have hsize := utf8Encode_length value
    simp only [List.length_append, List.length_cons]
    exact ⟨by omega, fun _ => by omega⟩
  | case8 => cases h
  | case9 e rest _ ih =>
    simp only [Option.map_eq_some_iff] at h
    obtain ⟨tail, htail, rfl⟩ := h
    have hrec := (ih tail htail).1
    simp only [List.length_cons]
    exact ⟨by omega, fun _ => by omega⟩
  | case10 c rest hc ih =>
    simp only [Option.map_eq_some_iff] at h
    obtain ⟨tail, htail, rfl⟩ := h
    obtain ⟨hle, heq⟩ := ih tail htail
    simp only [List.length_cons, Nat.add_le_add_iff_right, Nat.add_right_cancel_iff]
    refine ⟨hle, fun hlen => ?_⟩
    obtain ⟨rfl, hback⟩ := heq hlen
    exact ⟨rfl, by simp [hback, Ne.symm hc]⟩

/-- INTERNAL: the value of a string is what unescaping makes of it. -/
theorem stringValue_some (raw text : CStr) (h : stringValue raw = some text) :
    unescape raw = some text := by
  unfold stringValue at h
  rw [Option.filter_eq_some_iff] at h
  exact h.1

/-- INTERNAL: where a string ends that starts in front of a text with a quote behind it: in
the text, at the quote, or beyond the quote where the text has escaped it. -/
theorem scanString_before_quote (p q raw rest : CStr)
    (h : scanString (p ++ 34 :: q) = some (raw, rest)) :
    (∃ p', rest = p' ++ 34 :: q ∧ raw.length + 1 + p'.length = p.length) ∨
      (rest = q ∧ raw = p ∧ (92 ∉ p → Unquoted p)) ∨
      ∃ raw', scanString q = some (raw', rest) := by
  induction hn : p.length using Nat.strong_induction_on generalizing p raw rest with
  | _ n ih =>
    subst hn
    cases p with
    | nil =>
      rw [List.nil_append, scanString_quote] at h
      cases h
      exact Or.inr (Or.inl ⟨rfl, rfl, fun _ c hc => by simp at hc⟩)
    | cons c p =>
      by_cases hquote : c = 34
      · subst hquote
        rw [List.cons_append, scanString_quote] at h
        cases h
        exact Or.inl ⟨p, rfl, by simp; omega⟩
      · by_cases hctl : c < 32
        · rw [List.cons_append, scanString.eq_def] at h
          simp [hquote, hctl] at h
        · by_cases hback : c = 92
          · subst hback
            cases p with
            | nil =>
              have hesc : isEscape 34 q = true := by
                unfold isEscape
                simp [lit]
              rw [List.cons_append, List.nil_append, scanString_escape 34 q hesc] at h
              simp only [Option.map_eq_some_iff, Prod.mk.injEq] at h
              obtain ⟨⟨raw', after⟩, hscan, -, rfl⟩ := h
              exact Or.inr (Or.inr ⟨raw', hscan⟩)
            | cons e p =>
              by_cases hesc : isEscape e (p ++ 34 :: q) = true
              · rw [List.cons_append, List.cons_append, scanString_escape e _ hesc] at h
                simp only [Option.map_eq_some_iff, Prod.mk.injEq] at h
                obtain ⟨⟨raw', after⟩, hscan, rfl, rfl⟩ := h
                rcases ih p.length (by simp only [List.length_cons]; omega) p raw' after hscan rfl with
                  ⟨p', hrest, hlen⟩ | ⟨hrest, hraw, -⟩ | hbeyond
                · exact Or.inl ⟨p', hrest, by simp only [List.length_cons]; omega⟩
                · exact Or.inr (Or.inl ⟨hrest, by rw [hraw], fun hno => by simp at hno⟩)
                · exact Or.inr (Or.inr hbeyond)
              · rw [List.cons_append, List.cons_append, scanString.eq_def] at h
                simp [hesc] at h
          · rw [List.cons_append, scanString_plain c _ hquote hctl hback] at h
            simp only [Option.map_eq_some_iff, Prod.mk.injEq] at h
            obtain ⟨⟨raw', after⟩, hscan, rfl, rfl⟩ := h
            rcases ih p.length (by simp) p raw' after hscan rfl with
              ⟨p', hrest, hlen⟩ | ⟨hrest, hraw, hun⟩ | hbeyond
            · exact Or.inl ⟨p', hrest, by simp only [List.length_cons]; omega⟩
            · refine Or.inr (Or.inl ⟨hrest, by rw [hraw], fun hno d hd => ?_⟩)
              rw [List.mem_cons, not_or] at hno
              rcases List.mem_cons.mp hd with rfl | hd
              · exact ⟨UInt8.not_lt.mp hctl, hquote, hback⟩
              · exact hun hno.2 d hd
            · exact Or.inr (Or.inr hbeyond)

section Barrier

variable {q : CStr}

/-- INTERNAL: skipping bytes other than the quote does not skip the quote. -/
theorem suffix_dropWhile (f : UInt8 → Bool) (hf : f 34 = false) (text : CStr)
    (h : 34 :: q <:+ text) : 34 :: q <:+ text.dropWhile f := by
  induction text with
  | nil => simp at h
  | cons c text ih =>
    by_cases hc : f c = true
    · rw [List.dropWhile_cons_of_pos hc]
      rcases List.suffix_cons_iff.mp h with heq | htail
      · cases heq
        rw [hf] at hc
        cases hc
      · exact ih htail
    · rw [List.dropWhile_cons_of_neg hc]
      exact h

/-- INTERNAL: nor does taking off one such byte. -/
theorem suffix_of_cons (c : UInt8) (text : CStr) (hc : c ≠ 34) (h : 34 :: q <:+ c :: text) :
    34 :: q <:+ text := by
  rcases List.suffix_cons_iff.mp h with heq | htail
  · cases heq
    exact absurd rfl hc
  · exact htail

/-- INTERNAL: a sign is in front of the quote. -/
theorem suffix_minusSign (text : CStr) (h : 34 :: q <:+ text) :
    34 :: q <:+ (minusSign text).2 := by
  unfold minusSign
  split
  · exact h
  next c text =>
    split
    next hc =>
      subst hc
      exact suffix_of_cons 45 text (by decide) h
    · exact h

/-- INTERNAL: so is the sign of an exponent. -/
theorem suffix_readSign (text : CStr) (h : 34 :: q <:+ text) : 34 :: q <:+ (readSign text).2 := by
  unfold readSign
  split
  · exact h
  next c text =>
    split
    next hc =>
      subst hc
      exact suffix_of_cons 45 text (by decide) h
    · split
      next hc =>
        subst hc
        exact suffix_of_cons 43 text (by decide) h
      · exact h

/-- INTERNAL: and a fraction. -/
theorem suffix_skipFraction (text rest : CStr) (h : 34 :: q <:+ text)
    (hskip : skipFraction text = some rest) : 34 :: q <:+ rest := by
  unfold skipFraction at hskip
  split at hskip
  · cases hskip
    exact h
  next c text =>
    split at hskip
    next hc =>
      subst hc
      split at hskip
      · cases hskip
      · cases hskip
        exact suffix_dropWhile isDigit (by decide) _ (suffix_of_cons 46 text (by decide) h)
    · cases hskip
      exact h

/-- INTERNAL: and an exponent. -/
theorem suffix_skipExponent (text rest : CStr) (h : 34 :: q <:+ text)
    (hskip : skipExponent text = some rest) : 34 :: q <:+ rest := by
  unfold skipExponent at hskip
  split at hskip
  · cases hskip
    exact h
  next c text =>
    split at hskip
    next hc =>
      have hne : c ≠ 34 := by
        rintro rfl
        exact absurd hc (by decide)
      dsimp only at hskip
      split at hskip
      · cases hskip
      · cases hskip
        exact suffix_dropWhile isDigit (by decide) _
          (suffix_readSign text (suffix_of_cons c text hne h))
    · cases hskip
      exact h

/-- INTERNAL: a number ends before the quote. -/
theorem suffix_scanNumber (text rest : CStr) (t : Token) (h : 34 :: q <:+ text)
    (hscan : scanNumber text = some (t, rest)) : 34 :: q <:+ rest := by
  have hwhole := suffix_dropWhile isDigit (by decide) _ (suffix_minusSign text h)
  unfold scanNumber at hscan
  dsimp only at hscan
  generalize (minusSign text).2 = unsigned at hscan hwhole
  split at hscan
  · cases hscan
  · split at hscan
    · simp only [Option.bind_eq_some_iff] at hscan
      obtain ⟨after, ⟨frac, hfrac, hexp⟩, hscan⟩ := hscan
      have h1 := suffix_skipFraction _ _ hwhole hfrac
      have h2 := suffix_skipExponent _ _ h1 hexp
      split at hscan
      · cases hscan
      · cases hscan
        exact h2
    · generalize (if (minusSign text).1 then _ else _ : ℤ) = n at hscan
      split at hscan
      · cases hscan
        exact hwhole
      · cases hscan

/-- INTERNAL: a token that starts in front of a quote is no string, or it ends before the
quote, at it, or beyond it. -/
theorem lexScan_before_quote (c : UInt8) (p rest : CStr) (t : Token)
    (h : lexScan c (p ++ 34 :: q) = some (t, rest)) :
    (∃ p', rest = p' ++ 34 :: q ∧ p'.length ≤ p.length ∧
        ∀ v, t = .string v → v.length < p.length) ∨
      (∃ v, c = 34 ∧ t = .string v ∧ rest = q ∧ v.length ≤ p.length ∧
        (v.length = p.length → p = v ∧ Unquoted v)) ∨
      ∃ raw, scanString q = some (raw, rest) := by
  have hshort : ∀ r : CStr, 34 :: q <:+ r → r.length ≤ (p ++ 34 :: q).length →
      ∃ p', r = p' ++ 34 :: q ∧ p'.length ≤ p.length := by
    rintro r ⟨p', rfl⟩ hlen
    refine ⟨p', rfl, ?_⟩
    simp only [List.length_append] at hlen
    omega
  have hsuffix : 34 :: q <:+ p ++ 34 :: q := ⟨p, rfl⟩
  have hlen := lexScan_length c _ rest t h
  unfold lexScan at h
  split at h
  next t' hpunct =>
    cases h
    refine Or.inl ⟨p, rfl, le_rfl, fun v hv => ?_⟩
    subst hv
    exact absurd hpunct (punct_not_string c v)
  · split at h
    next hquote =>
      simp only [Option.bind_eq_some_iff, Option.map_eq_some_iff, Prod.mk.injEq] at h
      obtain ⟨⟨raw, after⟩, hscan, v, hv, rfl, rfl⟩ := h
      obtain ⟨hvle, hveq⟩ := unescape_length raw v (stringValue_some raw v hv)
      rcases scanString_before_quote p q raw after hscan with ⟨p', hrest, hraw⟩ | ⟨hrest, hraw, hun⟩ |
        hbeyond
      · refine Or.inl ⟨p', hrest, by omega, fun w hw => ?_⟩
        cases hw
        omega
      · subst hraw
        refine Or.inr (Or.inl ⟨v, hquote, rfl, hrest, hvle, fun heq => ?_⟩)
        obtain ⟨rfl, hback⟩ := hveq heq
        exact ⟨rfl, hun hback⟩
      · exact Or.inr (Or.inr hbeyond)
    next hquote =>
      have hcons : 34 :: q <:+ c :: (p ++ 34 :: q) := List.suffix_cons_iff.mpr (Or.inr hsuffix)
      split at h
      · obtain ⟨p', hrest, hp'⟩ := hshort rest (suffix_scanNumber _ _ _ hcons h) hlen
        refine Or.inl ⟨p', hrest, hp', fun v hv => ?_⟩
        have := scanNumber_not_fixed _ _ _ h
        rw [hv] at this
        cases this
      · split at h
        · simp only [Option.map_eq_some_iff, Prod.mk.injEq] at h
          obtain ⟨k, hk, rfl, rfl⟩ := h
          have htail := suffix_dropWhile isAlpha (by decide) _ hcons
          obtain ⟨p', hrest, hp'⟩ := hshort _ htail hlen
          refine Or.inl ⟨p', hrest, hp', fun v hv => ?_⟩
          have := keyword_not_fixed _ _ hk
          rw [hv] at this
          cases this
        · cases h

end Barrier

/-- INTERNAL: the tokens of a text with a quote behind it, where reading on behind the quote
leads nowhere. -/
theorem tokens_before_quote (p after : CStr) (ts : List Token)
    (hbreaks : ∀ raw rest, scanString after = some (raw, rest) → tokens rest = none)
    (h : tokens (p ++ 34 :: after) = some ts) :
    ∃ ss us, ts = ss ++ us ∧ tokens after = some us ∧ ∀ v, .string v ∈ ss →
      v.length + 1 ≤ p.length ∧ (v.length + 1 = p.length → p = 34 :: v ∧ Unquoted v) := by
  induction hn : p.length using Nat.strong_induction_on generalizing p ts with
  | _ n ih =>
    subst hn
    cases p with
    | nil =>
      rw [List.nil_append, tokens_quote_cons, lexScan_quote] at h
      simp only [Option.bind_eq_some_iff, Option.map_eq_some_iff] at h
      obtain ⟨scanned, ⟨⟨raw, rest⟩, hscan, v, -, rfl⟩, us, hus, -⟩ := h
      rw [hbreaks raw rest hscan] at hus
      cases hus
    | cons c p =>
      by_cases hblank : isBlank c = true
      · rw [List.cons_append, tokens_blank c _ hblank] at h
        obtain ⟨ss, us, hts, hus, hss⟩ := ih p.length (by simp) p ts h rfl
        refine ⟨ss, us, hts, hus, fun v hv => ?_⟩
        have := (hss v hv).1
        simp only [List.length_cons]
        exact ⟨by omega, fun _ => by omega⟩
      · have hblank : isBlank c = false := by simpa using hblank
        rw [List.cons_append, tokens_cons c _ hblank] at h
        simp only [Option.bind_eq_some_iff, Option.map_eq_some_iff] at h
        obtain ⟨⟨t, rest⟩, hscan, us, hus, rfl⟩ := h
        rcases lexScan_before_quote c p rest t hscan with ⟨p', rfl, hp', ht⟩ |
          ⟨v, rfl, rfl, rfl, hv, heq⟩ | ⟨raw, hbeyond⟩
        · obtain ⟨ss, vs, rfl, hvs, hss⟩ := ih p'.length (by simp; omega) p' us hus rfl
          refine ⟨t :: ss, vs, rfl, hvs, fun v hv => ?_⟩
          simp only [List.length_cons]
          rcases List.mem_cons.mp hv with hhead | htail
          · have := ht v hhead.symm
            exact ⟨by omega, fun _ => by omega⟩
          · have := (hss v htail).1
            exact ⟨by omega, fun _ => by omega⟩
        · refine ⟨[.string v], us, rfl, hus, fun w hw => ?_⟩
          rw [List.mem_singleton] at hw
          cases hw
          simp only [List.length_cons, Nat.add_le_add_iff_right, Nat.add_right_cancel_iff]
          refine ⟨hv, fun hlen => ?_⟩
          obtain ⟨rfl, hun⟩ := heq hlen
          exact ⟨rfl, hun⟩
        · rw [hbreaks raw rest hbeyond] at hus
          cases hus

/-- INTERNAL: **a text keeps to its place** between its quotes, and is as long as one of the
strings that it makes only where it is that string. -/
theorem tokens_slot_strings (s after : CStr) (ts : List Token)
    (hbreaks : ∀ raw rest, scanString after = some (raw, rest) → tokens rest = none)
    (h : tokens (quote s ++ after) = some ts) :
    ∃ ss us, ts = ss ++ us ∧ tokens after = some us ∧ ∀ v, .string v ∈ ss →
      v.length ≤ s.length ∧ (v.length = s.length → v = s ∧ Unquoted s) := by
  have htext : quote s ++ after = (34 :: s) ++ 34 :: after := by simp [quote]
  rw [htext] at h
  obtain ⟨ss, us, hts, hus, hss⟩ := tokens_before_quote (34 :: s) after ts hbreaks h
  refine ⟨ss, us, hts, hus, fun v hv => ?_⟩
  obtain ⟨hle, heq⟩ := hss v hv
  simp only [List.length_cons, Nat.add_le_add_iff_right, Nat.add_right_cancel_iff,
    List.cons.injEq, true_and] at hle heq
  refine ⟨hle, fun hlen => ?_⟩
  obtain ⟨rfl, hun⟩ := heq hlen
  exact ⟨rfl, hun⟩

end Json

end OpenHes.Library
