import OpenHes.Library.JsonPrint
import OpenHes.Library.JsonReads

/-!
# JSON templates

The format strings of a printing program as a list of parts: each is a fixed text, which may
stand behind a number or behind a text between quotes. From the parts follow the tokens of
the whole, which strings it can hold, and whether it is UTF-8.
-/

set_option autoImplicit false

namespace OpenHes.Library

namespace Json

open Binary64

/-- Nothing good comes of reading on, as in a string, behind the quote that the text
follows. -/
def Breaks (after : CStr) : Prop :=
  ∀ q raw rest, scanString (after ++ q) = some (raw, rest) → tokens rest = none

/-- A part of a format: a fixed text with its tokens, behind a text between quotes or behind
a number. -/
inductive Part
  | fixed (after : CStr) (ts : List Token)
  | slot (s : CStr) (after : CStr) (ts : List Token)
  | number (n : ℤ) (after : CStr) (ts : List Token)

namespace Part

/-- What is printed. -/
def text : Part → CStr
  | fixed after _ => after
  | slot s after _ => quote s ++ after
  | number n after _ => fmtD n ++ after

/-- The tokens, where a text between quotes is one string. -/
def tokens : Part → List Token
  | fixed _ ts => ts
  | slot s _ ts => .string (slotValue s) :: ts
  | number n _ ts => .integer n :: ts

/-- The fixed text. -/
def after : Part → CStr
  | fixed after _ | slot _ after _ | number _ after _ => after

/-- The tokens of the fixed text. -/
def afterTokens : Part → List Token
  | fixed _ ts | slot _ _ ts | number _ _ ts => ts

/-- The fixed text is ASCII with the given tokens, strings and punctuation; it ends a number
and what is put between quotes. -/
structure Sound (p : Part) : Prop where
  ascii : ∀ c ∈ p.after, c < 0x80
  tokens : Json.tokens p.after = some p.afterTokens
  isFixed : ∀ t ∈ p.afterTokens, t.isFixed = true
  stops : ∀ n after ts, p = number n after ts → FitsInt64 n ∧ ∀ q, Stops (after ++ q)
  breaks : ∀ s after ts, p = slot s after ts → Breaks after

/-- The texts between quotes. -/
def slots (ps : List Part) : List CStr :=
  ps.filterMap fun p =>
    match p with
    | slot s _ _ => some s
    | _ => none

/-- INTERNAL: the slots of a template are those of its first part and of the rest. -/
theorem slots_cons (p : Part) (ps : List Part) : slots (p :: ps) = slots [p] ++ slots ps := by
  unfold slots
  rw [← List.filterMap_append]
  rfl

/-- INTERNAL: slots are taken part by part. -/
theorem slots_append (ps qs : List Part) : slots (ps ++ qs) = slots ps ++ slots qs :=
  List.filterMap_append

/-! ## Checking the fixed texts -/

/-- The fixed text has the given tokens. -/
def fixedCheck (after : CStr) (ts : List Token) : Bool :=
  after.all (fun c => c < 0x80) && decide (Json.tokens after = some ts) && ts.all Token.isFixed

/-- The text does not go on with a number in front of it. -/
def stopsCheck (after : CStr) : Bool :=
  match after with
  | [] => false
  | c :: _ => !isDigit c && !goesOn after

/-- A byte that is a string's own. -/
def isPlain (c : UInt8) : Bool := 32 ≤ c && c ≠ 34 && c ≠ 92

/-- The text ends what is put between quotes: in a string it would meet a control character,
or a quote with a word behind it that is no value. -/
def breaksCheck (after : CStr) : Bool :=
  match after.dropWhile isPlain with
  | [] => false
  | c :: rest =>
    c < 32 || (c = 34 && rest.takeWhile isAlpha ≠ [] && keyword (rest.takeWhile isAlpha) = none &&
      rest.dropWhile isAlpha ≠ [])

/-- What has to be checked of the fixed text. -/
def check : Part → Bool
  | fixed after ts => fixedCheck after ts
  | slot _ after ts => fixedCheck after ts && breaksCheck after
  | number _ after ts => fixedCheck after ts && stopsCheck after

/-- INTERNAL: a text that stops a numeral does so when more text follows. -/
theorem stops_of_check (after q : CStr) (h : stopsCheck after = true) : Stops (after ++ q) := by
  cases after with
  | nil => cases h
  | cons c rest =>
    simp only [stopsCheck, Bool.and_eq_true, Bool.not_eq_true'] at h
    exact ⟨c, rest ++ q, rfl, h.1, h.2⟩

/-- INTERNAL: what ends in a text ends there when more text follows. -/
theorem takeWhile_append_of_stop (p : UInt8 → Bool) (text q : CStr)
    (h : text.dropWhile p ≠ []) : (text ++ q).takeWhile p = text.takeWhile p := by
  induction text with
  | nil => exact absurd rfl h
  | cons c text ih =>
    by_cases hc : p c = true
    · rw [List.dropWhile_cons_of_pos hc] at h
      rw [List.cons_append, List.takeWhile_cons_of_pos hc, List.takeWhile_cons_of_pos hc, ih h]
    · rw [List.cons_append, List.takeWhile_cons_of_neg hc, List.takeWhile_cons_of_neg hc]

/-- INTERNAL: a letter is no blank, no mark, no quote and no digit. -/
theorem word_byte (c : UInt8) (h : isAlpha c = true) :
    isBlank c = false ∧ punct c = none ∧ c ≠ 34 ∧ (isDigit c || decide (c = 45)) = false := by
  revert c
  apply forall_byte
  decide +kernel

/-- INTERNAL: a text that is checked breaks every string that runs into it. -/
theorem breaks_of_check (after : CStr) (h : breaksCheck after = true) : Breaks after := by
  intro q raw rest hscan
  induction after generalizing raw with
  | nil => cases h
  | cons c after ih =>
    by_cases hplain : isPlain c = true
    · have hc : ¬ c < 32 ∧ c ≠ 34 ∧ c ≠ 92 := by
        simp only [isPlain, Bool.and_eq_true, decide_eq_true_eq] at hplain
        exact ⟨not_lt_of_le_byte c hplain.1.1, hplain.1.2, hplain.2⟩
      rw [List.cons_append, scanString_plain c _ hc.2.1 hc.1 hc.2.2] at hscan
      simp only [Option.map_eq_some_iff, Prod.mk.injEq] at hscan
      obtain ⟨⟨raw', rest'⟩, hscan, -, rfl⟩ := hscan
      refine ih ?_ raw' hscan
      unfold breaksCheck at h ⊢
      rw [List.dropWhile_cons_of_pos hplain] at h
      exact h
    · unfold breaksCheck at h
      rw [List.dropWhile_cons_of_neg hplain] at h
      simp only [Bool.or_eq_true, Bool.and_eq_true, decide_eq_true_eq] at h
      rcases h with hctl | ⟨⟨⟨rfl, hword⟩, hkey⟩, hend⟩
      · have hquote : c ≠ 34 := by
          rintro rfl
          exact absurd hctl (by decide)
        rw [List.cons_append, scanString.eq_def] at hscan
        simp [hquote, hctl] at hscan
      · rw [List.cons_append, scanString_quote] at hscan
        cases hscan
        obtain ⟨d, ds, rfl⟩ : ∃ d ds, after = d :: ds := by
          apply List.exists_cons_of_ne_nil
          rintro rfl
          exact hword rfl
        have hd : isAlpha d = true := by
          by_contra hno
          exact hword (List.takeWhile_cons_of_neg hno)
        obtain ⟨hblank, hpunct, hquote, hnumber⟩ := word_byte d hd
        have htake : (d :: (ds ++ q)).takeWhile isAlpha = (d :: ds).takeWhile isAlpha :=
          takeWhile_append_of_stop isAlpha (d :: ds) q hend
        rw [List.cons_append, tokens_cons d _ hblank]
        unfold lexScan
        rw [hpunct, htake, hkey]
        simp only [hquote, hnumber, hd, if_false, if_true, Bool.false_eq_true, Option.map_none,
          Option.bind_none]

/-- INTERNAL: a part that is checked is sound, if its number fits. -/
theorem sound_of_check (p : Part) (h : p.check = true)
    (hfits : ∀ n after ts, p = number n after ts → FitsInt64 n) : p.Sound := by
  have hfixed : ∀ after ts, fixedCheck after ts = true → (∀ c ∈ after, c < 0x80) ∧
      Json.tokens after = some ts ∧ ∀ t ∈ ts, t.isFixed = true := by
    intro after ts hcheck
    simp only [fixedCheck, Bool.and_eq_true, List.all_eq_true, decide_eq_true_eq] at hcheck
    exact ⟨hcheck.1.1, hcheck.1.2, hcheck.2⟩
  cases p with
  | fixed after ts =>
    obtain ⟨hascii, htokens, hall⟩ := hfixed after ts h
    exact ⟨hascii, htokens, hall, by simp, by simp⟩
  | slot s after ts =>
    simp only [check, Bool.and_eq_true] at h
    obtain ⟨hascii, htokens, hall⟩ := hfixed after ts h.1
    refine ⟨hascii, htokens, hall, by simp, fun s' after' ts' heq => ?_⟩
    cases heq
    exact breaks_of_check after h.2
  | number n after ts =>
    simp only [check, Bool.and_eq_true] at h
    obtain ⟨hascii, htokens, hall⟩ := hfixed after ts h.1
    refine ⟨hascii, htokens, hall, fun n' after' ts' heq => ?_, by simp⟩
    cases heq
    exact ⟨hfits n after ts rfl, fun q => stops_of_check after q h.2⟩

end Part

/-- What the parts print. -/
def render (ps : List Part) : CStr := ps.flatMap Part.text

/-- INTERNAL: a template is printed from its first part on. -/
theorem render_cons (p : Part) (ps : List Part) : render (p :: ps) = p.text ++ render ps := rfl

/-- INTERNAL: a template is printed part by part. -/
theorem render_append (ps qs : List Part) : render (ps ++ qs) = render ps ++ render qs := by
  simp [render]

/-! ## Tokens -/

/-- INTERNAL: a part gives its own tokens in front of the rest. -/
theorem Part.tokens_text (p : Part) (q : CStr) (h : p.Sound)
    (hquoted : ∀ s after ts, p = .slot s after ts → WellQuoted s) :
    Json.tokens (p.text ++ q) = (Json.tokens q).map (p.tokens ++ ·) := by
  have hafter := tokens_append p.after q p.afterTokens h.tokens h.isFixed
  cases p with
  | fixed after ts => exact hafter
  | slot s after ts =>
    show Json.tokens ((quote s ++ after) ++ q) = _
    rw [List.append_assoc, tokens_slot s _ (hquoted s after ts rfl)]
    unfold Part.after Part.afterTokens at hafter
    rw [hafter, Option.map_map]
    rfl
  | number n after ts =>
    obtain ⟨hfits, hstops⟩ := h.stops n after ts rfl
    show Json.tokens ((fmtD n ++ after) ++ q) = _
    rw [List.append_assoc, tokens_fmtD n _ (hstops q) hfits]
    unfold Part.after Part.afterTokens at hafter
    rw [hafter, Option.map_map]
    rfl

/-- INTERNAL: **the tokens of a template** are those of its parts. -/
theorem tokens_render (ps : List Part) (hsound : ∀ p ∈ ps, p.Sound)
    (hquoted : ∀ s ∈ Part.slots ps, WellQuoted s) :
    tokens (render ps) = some (ps.flatMap Part.tokens) := by
  induction ps with
  | nil => rfl
  | cons p ps ih =>
    have hrest : tokens (render ps) = some (ps.flatMap Part.tokens) := by
      apply ih fun r hr => hsound r (by simp [hr])
      intro s hs
      apply hquoted s
      rw [Part.slots_cons]
      exact List.mem_append_right _ hs
    rw [render_cons, p.tokens_text _ (hsound p (by simp)), hrest]
    · rfl
    · rintro s after ts rfl
      apply hquoted
      simp [Part.slots]

/-! ## Strings -/

/-- A string that may come of a text between quotes: the text itself, where it is free of
what JSON escapes, and a shorter one otherwise. -/
def MadeFrom (v s : CStr) : Prop :=
  (Unquoted s ∧ v = s) ∨ (¬ Unquoted s ∧ v.length < s.length)

/-- INTERNAL: what a slot's text gives, whatever is in it, are strings made from it, and the rest
follows. -/
theorem slot_strings (s q : CStr) (ts : List Token)
    (hbreaks : ∀ raw rest, scanString q = some (raw, rest) → tokens rest = none)
    (htokens : tokens (quote s ++ q) = some ts) :
    ∃ ss us, ts = ss ++ us ∧ tokens q = some us ∧ ∀ v, .string v ∈ ss → MadeFrom v s := by
  by_cases hs : Unquoted s
  · rw [tokens_slot s q (hs.wellQuoted s), Option.map_eq_some_iff] at htokens
    obtain ⟨us, hus, rfl⟩ := htokens
    refine ⟨[.string (slotValue s)], us, rfl, hus, fun v hv => Or.inl ⟨hs, ?_⟩⟩
    rw [List.mem_singleton, slotValue_unquoted s hs] at hv
    cases hv
    rfl
  · obtain ⟨ss, us, hts, hus, hss⟩ := tokens_slot_strings s q ts hbreaks htokens
    refine ⟨ss, us, hts, hus, fun v hv => Or.inr ⟨hs, ?_⟩⟩
    obtain ⟨hle, heq⟩ := hss v hv
    exact lt_of_le_of_ne hle fun hlen => hs (heq hlen).2

/-- INTERNAL: what is scanned of a template is scanned of its first part and of the rest. -/
theorem Part.strings_text (p : Part) (q : CStr) (ts : List Token) (h : p.Sound)
    (htokens : Json.tokens (p.text ++ q) = some ts) :
    ∃ ss us, ts = ss ++ us ∧ Json.tokens q = some us ∧ ∀ v, .string v ∈ ss →
      .string v ∈ p.afterTokens ∨ ∃ s after as, p = .slot s after as ∧ MadeFrom v s := by
  have hafter := tokens_append p.after q p.afterTokens h.tokens h.isFixed
  cases p with
  | fixed after as =>
    have htokens : Json.tokens (after ++ q) = some ts := htokens
    unfold Part.after Part.afterTokens at hafter
    rw [hafter, Option.map_eq_some_iff] at htokens
    obtain ⟨us, hus, rfl⟩ := htokens
    exact ⟨as, us, rfl, hus, fun v hv => Or.inl hv⟩
  | slot s after as =>
    have htokens : Json.tokens ((quote s ++ after) ++ q) = some ts := htokens
    rw [List.append_assoc] at htokens
    obtain ⟨ss, us, rfl, hus, hss⟩ :=
      slot_strings s (after ++ q) ts (h.breaks s after as rfl q) htokens
    unfold Part.after Part.afterTokens at hafter
    rw [hafter, Option.map_eq_some_iff] at hus
    obtain ⟨vs, hvs, rfl⟩ := hus
    refine ⟨ss ++ as, vs, by simp, hvs, fun v hv => ?_⟩
    rcases List.mem_append.mp hv with hslot | hfixed
    · exact Or.inr ⟨s, after, as, rfl, hss v hslot⟩
    · exact Or.inl hfixed
  | number n after as =>
    obtain ⟨hfits, hstops⟩ := h.stops n after as rfl
    have htokens : Json.tokens ((fmtD n ++ after) ++ q) = some ts := htokens
    rw [List.append_assoc, tokens_fmtD n _ (hstops q) hfits] at htokens
    unfold Part.after Part.afterTokens at hafter
    rw [hafter, Option.map_map, Option.map_eq_some_iff] at htokens
    obtain ⟨us, hus, rfl⟩ := htokens
    refine ⟨.integer n :: as, us, rfl, hus, fun v hv => Or.inl ?_⟩
    rcases List.mem_cons.mp hv with hnumber | hfixed
    · cases hnumber
    · exact hfixed

/-- INTERNAL: **the strings of a template**, whatever is put between its quotes. -/
theorem strings_render (ps : List Part) (hsound : ∀ p ∈ ps, p.Sound) (ts : List Token)
    (htokens : tokens (render ps) = some ts) (v : CStr) (hv : .string v ∈ ts) :
    (∃ p ∈ ps, .string v ∈ p.afterTokens) ∨ ∃ s ∈ Part.slots ps, MadeFrom v s := by
  induction ps generalizing ts with
  | nil =>
    cases htokens
    simp at hv
  | cons p ps ih =>
    rw [render_cons] at htokens
    obtain ⟨ss, us, rfl, hus, hss⟩ := p.strings_text _ ts (hsound p (by simp)) htokens
    rcases List.mem_append.mp hv with hfirst | hrest
    · rcases hss v hfirst with hfixed | ⟨s, after, as, rfl, hmade⟩
      · exact Or.inl ⟨p, by simp, hfixed⟩
      · exact Or.inr ⟨s, by simp [Part.slots], hmade⟩
    · rcases ih (fun r hr => hsound r (by simp [hr])) us hus hrest with
        ⟨r, hr, hfixed⟩ | ⟨s, hs, hmade⟩
      · exact Or.inl ⟨r, by simp [hr], hfixed⟩
      · refine Or.inr ⟨s, ?_, hmade⟩
        rw [Part.slots_cons]
        exact List.mem_append_right _ hs

/-! ## UTF-8 -/

/-- INTERNAL: an ASCII byte is a character of its own. -/
theorem utf8CheckFirst_ascii (c : UInt8) (h : c < 0x80) : utf8CheckFirst c = 1 := by
  unfold utf8CheckFirst
  rw [if_pos h]

/-- INTERNAL: it does not change what is checked behind it. -/
theorem utf8CheckString_ascii (c : UInt8) (rest : CStr) (h : c < 0x80) :
    utf8CheckString (c :: rest) = utf8CheckString rest := by
  rw [utf8CheckString.eq_def]
  simp [utf8CheckFirst_ascii c h]

/-- INTERNAL: a sequence does not go on with an ASCII byte. -/
theorem utf8CheckFull_ascii (first c : UInt8) (before behind : List UInt8) (h : c < 0x80) :
    utf8CheckFull first (before ++ c :: behind) = false := by
  unfold utf8CheckFull
  have hc : ¬ (0x80 : UInt8) ≤ c := UInt8.not_le.mpr h
  simp [hc]

/-- INTERNAL: **a text is UTF-8** in front of an ASCII byte exactly when both are. -/
theorem utf8CheckString_append (a b : CStr) (c : UInt8) (h : c < 0x80) :
    utf8CheckString (a ++ c :: b) = (utf8CheckString a && utf8CheckString b) := by
  induction hn : a.length using Nat.strong_induction_on generalizing a with
  | _ n ih =>
    subst hn
    match a with
    | [] => rw [List.nil_append, utf8CheckString_ascii c b h]; rfl
    | u :: a =>
      rw [List.cons_append, utf8CheckString.eq_def, utf8CheckString.eq_def (u :: a)]
      dsimp only
      generalize utf8CheckFirst u = count
      match count, a with
      | 1, a => exact ih a.length (by simp) a rfl
      | 0, a => rfl
      | 2, [] =>
        have := utf8CheckFull_ascii u c [] [] h
        simp only [List.nil_append] at this ⊢
        simp [this]
      | 2, d :: a =>
        simp only [List.cons_append]
        rw [ih a.length (by simp only [List.length_cons]; omega) a rfl, Bool.and_assoc]
      | 3, [] =>
        cases b with
        | nil => rfl
        | cons d b =>
          have := utf8CheckFull_ascii u c [] [d] h
          simp only [List.nil_append] at this ⊢
          simp [this]
      | 3, [d] =>
        have := utf8CheckFull_ascii u c [d] [] h
        simp only [List.cons_append, List.nil_append] at this ⊢
        simp [this]
      | 3, d :: e :: a =>
        simp only [List.cons_append]
        rw [ih a.length (by simp only [List.length_cons]; omega) a rfl, Bool.and_assoc]
      | 4, [] =>
        match b with
        | [] => rfl
        | [d] => rfl
        | d :: e :: b =>
          have := utf8CheckFull_ascii u c [] [d, e] h
          simp only [List.nil_append] at this ⊢
          simp [this]
      | 4, [d] =>
        match b with
        | [] => rfl
        | e :: b =>
          have := utf8CheckFull_ascii u c [d] [e] h
          simp only [List.cons_append, List.nil_append] at this ⊢
          simp [this]
      | 4, [d, e] =>
        have := utf8CheckFull_ascii u c [d, e] [] h
        simp only [List.cons_append, List.nil_append] at this ⊢
        simp [this]
      | 4, d :: e :: f :: a =>
        simp only [List.cons_append]
        rw [ih a.length (by simp only [List.length_cons]; omega) a rfl, Bool.and_assoc]
      | (k + 5), a => rfl

/-- INTERNAL: nor does an ASCII text. -/
theorem utf8CheckString_ascii_append (a b : CStr) (h : ∀ c ∈ a, c < 0x80) :
    utf8CheckString (a ++ b) = utf8CheckString b := by
  induction a with
  | nil => rfl
  | cons c a ih =>
    rw [List.cons_append, utf8CheckString_ascii c _ (h c (by simp))]
    exact ih fun d hd => h d (by simp [hd])

/-- INTERNAL: digits are ASCII. -/
theorem ascii_of_digit (c : UInt8) (h : isDigit c = true) : c < 0x80 := by
  unfold isDigit at h
  simp only [Bool.and_eq_true, decide_eq_true_eq] at h
  exact UInt8.lt_of_le_of_lt h.2 (by decide)

/-- INTERNAL: a printed integer is ASCII. -/
theorem fmtD_ascii (n : ℤ) : ∀ c ∈ fmtD n, c < 0x80 := by
  intro c hc
  unfold fmtD at hc
  rcases List.mem_append.mp hc with hsign | hdigit
  · split at hsign
    · rw [List.mem_singleton.mp hsign]
      decide
    · simp at hsign
  · exact ascii_of_digit c (decimal_digits _ c hdigit)

/-- INTERNAL: **a template is UTF-8** exactly when what is put between its quotes is. -/
theorem utf8CheckString_render (ps : List Part) (hsound : ∀ p ∈ ps, p.Sound) :
    utf8CheckString (render ps) = (Part.slots ps).all utf8CheckString := by
  induction ps with
  | nil => rfl
  | cons p ps ih =>
    have hrest := ih fun r hr => hsound r (by simp [hr])
    have hascii := (hsound p (by simp)).ascii
    rw [render_cons]
    cases p with
    | fixed after ts =>
      show utf8CheckString (after ++ render ps) = _
      rw [utf8CheckString_ascii_append after _ hascii, hrest]
      rfl
    | number n after ts =>
      show utf8CheckString ((fmtD n ++ after) ++ render ps) = _
      rw [List.append_assoc, utf8CheckString_ascii_append _ _ (fmtD_ascii n),
        utf8CheckString_ascii_append after _ hascii, hrest]
      rfl
    | slot s after ts =>
      have htext : (Part.slot s after ts).text ++ render ps =
          34 :: (s ++ 34 :: (after ++ render ps)) := by
        simp [Part.text, quote]
      rw [htext, utf8CheckString_ascii 34 _ (by decide), utf8CheckString_append _ _ 34 (by decide),
        utf8CheckString_ascii_append after _ hascii, hrest]
      rfl

/-! ## NUL bytes -/

/-- INTERNAL: a scanned string holds no NUL. -/
theorem scanString_no_nul (text raw rest : CStr) (h : scanString text = some (raw, rest)) :
    text = raw ++ 34 :: rest ∧ ∀ c ∈ raw, c ≠ 0 := by
  fun_induction scanString text generalizing raw rest with
  | case1 => cases h
  | case2 tail =>
    cases h
    exact ⟨rfl, by simp⟩
  | case3 => cases h
  | case4 => cases h
  | case5 e tail hesc _ _ ih =>
    simp only [Option.map_eq_some_iff, Prod.mk.injEq] at h
    obtain ⟨p, hp, rfl, rfl⟩ := h
    obtain ⟨heq, hall⟩ := ih p.1 p.2 hp
    have he : e ≠ 0 := by
      rintro rfl
      unfold isEscape at hesc
      rw [if_neg (by decide)] at hesc
      exact absurd hesc (by decide +kernel)
    refine ⟨by rw [heq]; rfl, ?_⟩
    intro c hc
    rcases List.mem_cons.mp hc with rfl | hc
    · decide
    · rcases List.mem_cons.mp hc with rfl | hc
      · exact he
      · exact hall c hc
  | case6 => cases h
  | case7 c tail hc hctl hback ih =>
    simp only [Option.map_eq_some_iff, Prod.mk.injEq] at h
    obtain ⟨p, hp, rfl, rfl⟩ := h
    obtain ⟨heq, hall⟩ := ih p.1 p.2 hp
    have hne : c ≠ 0 := by
      rintro rfl
      exact hctl (by decide)
    refine ⟨by rw [heq]; rfl, ?_⟩
    intro d hd
    rcases List.mem_cons.mp hd with rfl | hd
    · exact hne
    · exact hall d hd

/-- INTERNAL: nor does what a fixed token takes. -/
theorem lexScan_no_nul (c : UInt8) (text rest : CStr) (t : Token)
    (h : lexScan c text = some (t, rest)) (hfixed : t.isFixed = true) :
    ∃ used, c :: text = used ++ rest ∧ ∀ d ∈ used, d ≠ 0 := by
  obtain ⟨hpunct, rfl⟩ | ⟨-, rfl, raw, v, hscan, -, -⟩ := lexScan_fixed c text rest t h hfixed
  · refine ⟨[c], rfl, ?_⟩
    intro d hd
    rw [List.mem_singleton.mp hd]
    rintro rfl
    cases hpunct
  · obtain ⟨heq, hall⟩ := scanString_no_nul text raw rest hscan
    refine ⟨34 :: (raw ++ [34]), by rw [heq]; simp, ?_⟩
    intro d hd
    simp only [List.mem_cons, List.mem_append, List.not_mem_nil, or_false] at hd
    rcases hd with rfl | hd | rfl
    · decide
    · exact hall d hd
    · decide

/-- INTERNAL: **a piece** of strings and punctuation holds no NUL. -/
theorem tokens_no_nul (p : CStr) (ts : List Token) (h : tokens p = some ts)
    (hfixed : ∀ t ∈ ts, t.isFixed = true) : ∀ c ∈ p, c ≠ 0 := by
  induction p, ts, h using tokens_induction with
  | nil => simp
  | blank c rest ts hblank h ih =>
    intro d hd
    rcases List.mem_cons.mp hd with rfl | hd
    · rintro rfl
      cases hblank
    · exact ih hfixed d hd
  | token c rest t after ts hblank hscan h ih =>
    obtain ⟨used, heq, hused⟩ :=
      lexScan_no_nul c rest after t hscan (hfixed t List.mem_cons_self)
    intro d hd
    rw [heq] at hd
    rcases List.mem_append.mp hd with hd | hd
    · exact hused d hd
    · exact ih (fun u hu => hfixed u (List.mem_cons_of_mem t hu)) d hd

/-- INTERNAL: nor does a printed integer. -/
theorem fmtD_no_nul (n : ℤ) : ∀ c ∈ fmtD n, c ≠ 0 := by
  intro c hc
  unfold fmtD at hc
  rcases List.mem_append.mp hc with hsign | hdigit
  · split at hsign
    · rw [List.mem_singleton.mp hsign]
      decide
    · simp at hsign
  · rintro rfl
    exact absurd (decimal_digits _ 0 hdigit) (by decide)

/-- INTERNAL: **a template** holds no NUL, where the texts between its quotes hold none. -/
theorem render_no_nul (ps : List Part) (hsound : ∀ p ∈ ps, p.Sound)
    (hslots : ∀ s ∈ Part.slots ps, ∀ c ∈ s, c ≠ 0) : ∀ c ∈ render ps, c ≠ 0 := by
  intro c hc
  unfold render at hc
  rw [List.mem_flatMap] at hc
  obtain ⟨p, hp, hc⟩ := hc
  have hafter := tokens_no_nul _ _ (hsound p hp).tokens (hsound p hp).isFixed
  cases p with
  | fixed after ts => exact hafter c hc
  | slot s after ts =>
    have hs : ∀ c ∈ s, c ≠ 0 := by
      apply hslots
      unfold Part.slots
      rw [List.mem_filterMap]
      exact ⟨_, hp, rfl⟩
    unfold Part.text quote at hc
    simp only [List.mem_cons, List.mem_append, List.not_mem_nil, or_false] at hc
    rcases hc with (rfl | hc | rfl) | hc
    · decide
    · exact hs c hc
    · decide
    · exact hafter c hc
  | number n after ts =>
    rcases List.mem_append.mp hc with hc | hc
    · exact fmtD_no_nul n c hc
    · exact hafter c hc

/-- INTERNAL: nor does a text that needs no escapes. -/
theorem Unquoted.ne_zero (s : CStr) (h : Unquoted s) : ∀ c ∈ s, c ≠ 0 := by
  rintro c hc rfl
  exact absurd (h 0 hc).1 (by decide)

/-- INTERNAL: nor does the value of a string token. -/
theorem lexScan_string_no_nul (c : UInt8) (text rest v : CStr)
    (h : lexScan c text = some (.string v, rest)) : ∀ d ∈ v, d ≠ 0 := by
  obtain ⟨hpunct, -⟩ | ⟨-, -, raw, v', -, hvalue, hstring⟩ := lexScan_fixed c text rest _ h rfl
  · exact absurd hpunct (punct_not_string c v)
  · obtain rfl := Token.string.inj hstring
    unfold stringValue at hvalue
    obtain ⟨-, hnone⟩ := Option.filter_eq_some_iff.mp hvalue
    intro d hd hzero
    rw [hzero] at hd
    simp [hd] at hnone

/-- INTERNAL: a string token holds no NUL. -/
theorem tokens_string_no_nul (text : CStr) (ts : List Token) (h : tokens text = some ts)
    (v : CStr) (hv : .string v ∈ ts) : ∀ d ∈ v, d ≠ 0 := by
  induction text, ts, h using tokens_induction with
  | nil => cases hv
  | blank c rest ts hblank h ih => exact ih hv
  | token c rest t after ts hblank hscan h ih =>
    rcases List.mem_cons.mp hv with rfl | hv
    · exact lexScan_string_no_nul c rest after v hscan
    · exact ih hv

/-- INTERNAL: nor does any string of a document that is loaded. -/
theorem loads_no_nul (text : CStr) (value : Json) (h : loads text = some value) (v : CStr)
    (hv : HasString value v) : ∀ d ∈ v, d ≠ 0 := by
  obtain ⟨-, ts, hts, hstrings⟩ := loads_strings text value h
  exact tokens_string_no_nul text ts hts v (hstrings v hv)

/-! ## What is loaded -/

/-- A text that JSON carries as it is. -/
def Plain (s : CStr) : Prop := Unquoted s ∧ utf8CheckString s = true

/-- INTERNAL: **a template that is loaded** is UTF-8 between its quotes, and a string of the
value that is not free of escapes comes of a longer text between the quotes. -/
theorem loaded_render (ps : List Part) (hsound : ∀ p ∈ ps, p.Sound)
    (hfixed : ∀ p ∈ ps, ∀ v, .string v ∈ p.afterTokens → Unquoted v) (value : Json)
    (h : loads (render ps) = some value) :
    (∀ s ∈ Part.slots ps, utf8CheckString s = true) ∧
      ∀ v, HasString value v → ¬ Unquoted v →
        ∃ s ∈ Part.slots ps, ¬ Unquoted s ∧ v.length < s.length := by
  obtain ⟨hutf8, ts, hts, hstrings⟩ := loads_strings _ _ h
  rw [utf8CheckString_render ps hsound, List.all_eq_true] at hutf8
  refine ⟨hutf8, fun v hv hesc => ?_⟩
  rcases strings_render ps hsound ts hts v (hstrings v hv) with ⟨p, hp, hmem⟩ | ⟨s, hs, hmade⟩
  · exact absurd (hfixed p hp v hmem) hesc
  · rcases hmade with ⟨hunq, rfl⟩ | ⟨hunq, hlen⟩
    · exact absurd hunq hesc
    · exact ⟨s, hs, hunq, hlen⟩

end Json

end OpenHes.Library
