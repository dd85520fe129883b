import OpenHes.Library.SeparatedText
import OpenHes.Model.Query
import Mathlib.Data.List.TakeWhile

/-!
# The index form of a path

A segment with an index is a name and decimal digits in brackets. `strtol` takes more for an index
than that: nothing at all, blanks and a sign in front, and numbers that `long` does not hold. The
segments that are translated as documented are told.
-/

set_option autoImplicit false

namespace OpenHes.Analysis

open OpenHes.Library OpenHes.Library.Binary64 OpenHes.Model

/-- A segment that is a name and decimal digits in brackets. -/
structure IndexForm (seg name digits : CStr) : Prop where
  shape : seg = name ++ 91 :: (digits ++ [93])
  plain : ∀ c ∈ name, c ≠ 91
  nonempty : digits ≠ []
  decimal : ∀ c ∈ digits, isDigit c = true

/-- A segment with an index n for which n + 1 is a `long`. -/
structure Indexed (seg name digits : CStr) : Prop extends IndexForm seg name digits where
  element : seg.head? ≠ some 64
  fits : digitsValue 10 digits + 1 < 2 ^ 63

/-- **The translation of a segment as it is documented**: an index is raised by one, everything
else is left as it is. -/
def DocumentedSegment (seg out : CStr) : Prop :=
  (∃ name digits, Indexed seg name digits ∧
    out = name ++ 91 :: (decimal (digitsValue 10 digits + 1) ++ [93])) ∨
  (out = seg ∧ ¬∃ name digits, Indexed seg name digits)

/-- What `strtol` takes for a number, in its parts. -/
structure NumberText (text blanks sign digits : CStr) : Prop where
  shape : text = blanks ++ (sign ++ digits)
  blank : ∀ c ∈ blanks, isSpace c = true
  signed : sign = [] ∨ sign = lit "+" ∨ sign = lit "-"
  nonempty : digits ≠ []
  decimal : ∀ c ∈ digits, isDigit c = true

/-- The segments that are taken for a name with an index though they are none: brackets with
nothing in them; with blanks or a sign before the digits; or with a number that is too large. -/
def LooseIndex (seg : CStr) : Prop :=
  seg.head? ≠ some 64 ∧ ∃ name text, seg = name ++ 91 :: (text ++ [93]) ∧ (∀ c ∈ name, c ≠ 91) ∧
    (text = [] ∨ ∃ blanks sign digits, NumberText text blanks sign digits ∧
      (blanks ≠ [] ∨ sign ≠ [] ∨ 2 ^ 63 ≤ digitsValue 10 digits + 1))

/-! ## strtol -/

/-- INTERNAL: a digit is no blank, sign, bracket or separator. -/
theorem digit_marks (c : UInt8) (h : isDigit c = true) :
    isSpace c = false ∧ c ≠ 45 ∧ c ≠ 43 ∧ c ≠ 91 ∧ isSeparator c = false := by
  revert c
  apply forall_byte
  decide +kernel

/-- INTERNAL: a blank is no separator and no closing bracket. -/
theorem space_facts (c : UInt8) (h : isSpace c = true) : isSeparator c = false ∧ c ≠ 93 := by
  revert c
  apply forall_byte
  decide +kernel

/-- The number of a text in its parts; `strtol` stops at the ends of `long`. -/
def numberOf (sign digits : CStr) : ℤ :=
  max (-2 ^ 63) (min (2 ^ 63 - 1)
    (if sign = lit "-" then -(digitsValue 10 digits : ℤ) else digitsValue 10 digits))

/-- INTERNAL: a plus sign. -/
theorem lit_plus : lit "+" = [43] := rfl

/-- INTERNAL: a minus sign. -/
theorem lit_minus : lit "-" = [45] := rfl

/-- INTERNAL: a sign in front of digits is read. -/
theorem readSign_sign (sign digits rest : CStr) (h : sign = [] ∨ sign = lit "+" ∨ sign = lit "-")
    (hne : digits ≠ []) (hdigits : ∀ c ∈ digits, isDigit c = true) :
    readSign (sign ++ (digits ++ rest)) = (decide (sign = lit "-"), digits ++ rest) := by
  obtain ⟨d, tail, rfl⟩ := List.exists_cons_of_ne_nil hne
  have hd := digit_marks d (hdigits d List.mem_cons_self)
  rcases h with rfl | rfl | rfl
  · rw [List.nil_append, List.cons_append, readSign, if_neg hd.2.1, if_neg hd.2.2.1]
    rfl
  · rfl
  · rfl

/-- INTERNAL: signed digits start with no blank. -/
theorem sign_head (sign digits rest : CStr) (h : sign = [] ∨ sign = lit "+" ∨ sign = lit "-")
    (hne : digits ≠ []) (hdigits : ∀ c ∈ digits, isDigit c = true) :
    ∀ c ∈ (sign ++ (digits ++ rest)).head?, isSpace c = false := by
  obtain ⟨d, tail, rfl⟩ := List.exists_cons_of_ne_nil hne
  have hd := digit_marks d (hdigits d List.mem_cons_self)
  rcases h with rfl | rfl | rfl
  · intro c hc
    rw [← Option.some.inj hc]
    exact hd.1
  · intro c hc
    rw [← Option.some.inj hc]
    rfl
  · intro c hc
    rw [← Option.some.inj hc]
    rfl

/-- INTERNAL: `strtol` reads a number up to what is no digit. -/
theorem strtol_number {text blanks sign digits : CStr} (h : NumberText text blanks sign digits)
    (rest : CStr) (hstop : ∀ c ∈ rest.head?, isDigit c = false) :
    strtol (text ++ rest) = (numberOf sign digits, rest) := by
  have hblank := (takeWhile_of_stop isSpace blanks (sign ++ (digits ++ rest)) h.blank
    (sign_head sign digits rest h.signed h.nonempty h.decimal)).2
  obtain ⟨htake, hdrop⟩ := takeWhile_of_stop isDigit digits rest h.decimal hstop
  have hsign := readSign_sign sign digits rest h.signed h.nonempty h.decimal
  unfold strtol numberOf
  rw [h.shape, List.append_assoc, List.append_assoc, hblank, hsign]
  dsimp only
  rw [htake, hdrop, if_neg h.nonempty]
  simp only [decide_eq_true_eq]

/-- INTERNAL: a sign that is read is one of three. -/
theorem readSign_cases (text : CStr) :
    ∃ sign, text = sign ++ (readSign text).2 ∧ (sign = [] ∨ sign = lit "+" ∨ sign = lit "-") := by
  cases text with
  | nil => exact ⟨[], rfl, Or.inl rfl⟩
  | cons c rest =>
    rw [readSign]
    split
    · next hc => exact ⟨lit "-", hc ▸ rfl, Or.inr (Or.inr rfl)⟩
    · split
      · next hc => exact ⟨lit "+", hc ▸ rfl, Or.inr (Or.inl rfl)⟩
      · exact ⟨[], rfl, Or.inl rfl⟩

/-- INTERNAL: `strtol` finds no number, or it reads one and stops at what is no digit. -/
theorem strtol_cases (text : CStr) :
    strtol text = (0, text) ∨ ∃ number blanks sign digits rest, text = number ++ rest ∧
      NumberText number blanks sign digits ∧ (∀ c ∈ rest.head?, isDigit c = false) := by
  obtain ⟨sign, hsign, hsigned⟩ := readSign_cases (text.dropWhile isSpace)
  by_cases hdigits : (readSign (text.dropWhile isSpace)).2.takeWhile isDigit = []
  · refine Or.inl ?_
    unfold strtol
    dsimp only
    rw [if_pos hdigits]
  · refine Or.inr ⟨_, text.takeWhile isSpace, sign, _,
      (readSign (text.dropWhile isSpace)).2.dropWhile isDigit, ?_, ⟨rfl, ?_, hsigned, hdigits, ?_⟩, ?_⟩
    · rw [List.append_assoc, List.append_assoc, List.takeWhile_append_dropWhile, ← hsign,
        List.takeWhile_append_dropWhile]
    · exact fun c hc => List.mem_takeWhile_imp hc
    · exact fun c hc => List.mem_takeWhile_imp hc
    · intro c hc
      have hhead := List.head?_dropWhile_not isDigit (readSign (text.dropWhile isSpace)).2
      rw [Option.mem_def.mp hc] at hhead
      exact hhead

/-- INTERNAL: the text of a number is not empty. -/
theorem NumberText.ne_nil {text blanks sign digits : CStr}
    (h : NumberText text blanks sign digits) : text ≠ [] := by
  rw [h.shape]
  simp [h.nonempty]

/-- INTERNAL: it holds no separator. -/
theorem NumberText.run {text blanks sign digits : CStr} (h : NumberText text blanks sign digits) :
    ∀ c ∈ text, isSeparator c = false := by
  intro c hc
  rw [h.shape, List.mem_append, List.mem_append] at hc
  rcases hc with hc | hc | hc
  · exact (space_facts c (h.blank c hc)).1
  · rcases h.signed with rfl | rfl | rfl
    · cases hc
    · rw [List.mem_singleton.mp hc]
      rfl
    · rw [List.mem_singleton.mp hc]
      rfl
  · exact (digit_marks c (h.decimal c hc)).2.2.2.2

/-- INTERNAL: a separator is no digit. -/
theorem separator_not_digit (c : UInt8) (h : isSeparator c = true) : isDigit c = false := by
  cases hdigit : isDigit c with
  | false => rfl
  | true =>
    rw [(digit_marks c hdigit).2.2.2.2] at h
    cases h

/-- INTERNAL: a number that `strtol` reads from a segment and what is behind it is one of the
segment. -/
theorem number_in_segment {tail more number rest : CStr} (h : tail ++ more = number ++ rest)
    (hmore : ∀ c ∈ more.head?, isSeparator c = true) (hrun : ∀ c ∈ number, isSeparator c = false) :
    ∃ inner, tail = number ++ inner ∧ rest = inner ++ more := by
  rcases List.append_eq_append_iff.mp h with ⟨beyond, hnumber, hrest⟩ | ⟨inner, htail, hrest⟩
  · cases beyond with
    | nil => exact ⟨[], by rw [hnumber, List.append_nil, List.append_nil], hrest.symm⟩
    | cons c beyond =>
      have hsep := hmore c (by rw [hrest]; rfl)
      rw [hrun c (by rw [hnumber]; simp)] at hsep
      cases hsep
  · exact ⟨inner, htail, hrest⟩

/-- INTERNAL: **`strtol` stays inside of the segment**: separators are no part of a number. -/
theorem strtol_append (tail more : CStr) (hmore : ∀ c ∈ more.head?, isSeparator c = true) :
    strtol (tail ++ more) = ((strtol tail).1, (strtol tail).2 ++ more) := by
  rcases strtol_cases tail with hnone | ⟨number, blanks, sign, digits, rest, rfl, hnumber, hrest⟩
  · rcases strtol_cases (tail ++ more) with
      hnone' | ⟨number, blanks, sign, digits, rest, htext, hnumber, hrest⟩
    · rw [hnone, hnone']
    · obtain ⟨inner, rfl, rfl⟩ := number_in_segment htext hmore hnumber.run
      have hinner : ∀ c ∈ inner.head?, isDigit c = false := by
        intro c hc
        cases inner with
        | nil => cases hc
        | cons d inner => exact hrest c hc
      rw [strtol_number hnumber inner hinner] at hnone
      exact absurd (List.self_eq_append_left.mp (Prod.mk.inj hnone).2) hnumber.ne_nil
  · have hstop : ∀ c ∈ (rest ++ more).head?, isDigit c = false := by
      intro c hc
      cases rest with
      | nil => exact separator_not_digit c (hmore c hc)
      | cons d rest => exact hrest c hc
    rw [strtol_number hnumber rest hrest, List.append_assoc, strtol_number hnumber (rest ++ more) hstop]

/-! ## A segment -/

/-- What is written for a segment; nothing where its index is the greatest `long`. -/
def checkedSegment (seg : CStr) : Option CStr :=
  if seg.head? = some 64 then some seg
  else
    match splitAtByte 91 seg with
    | (_, none) => some seg
    | (name, some tail) =>
      if (strtol tail).2 = [93] then
        if FitsInt64 ((strtol tail).1 + 1) then some (name ++ 91 :: (fmtD ((strtol tail).1 + 1) ++ [93]))
        else none
      else some seg

/-- INTERNAL: an attribute is kept. -/
theorem checkedSegment_attribute (seg : CStr) (h : seg.head? = some 64) :
    checkedSegment seg = some seg := by
  rw [checkedSegment, if_pos h]

/-- INTERNAL: so is a segment without brackets. -/
theorem checkedSegment_plain (seg : CStr) (h : ∀ c ∈ seg, c ≠ 91) :
    checkedSegment seg = some seg := by
  rw [checkedSegment, splitAtByte_none 91 seg h]
  split <;> rfl

/-- INTERNAL: a number in brackets is raised by one, if a `long` holds it; anything else is kept. -/
theorem checkedSegment_bracket (name tail : CStr) (hno : ∀ c ∈ name, c ≠ 91)
    (hhead : (name ++ 91 :: tail).head? ≠ some 64) :
    checkedSegment (name ++ 91 :: tail) =
      if (strtol tail).2 = [93] then
        if FitsInt64 ((strtol tail).1 + 1) then
          some (name ++ 91 :: (fmtD ((strtol tail).1 + 1) ++ [93]))
        else none
      else some (name ++ 91 :: tail) := by
  rw [checkedSegment, if_neg hhead, splitAtByte_some 91 name tail hno]

/-- INTERNAL: where `strtol` stops at the closing bracket. -/
theorem strtol_close_iff (tail : CStr) :
    (strtol tail).2 = [93] ↔ ∃ text, tail = text ++ [93] ∧
      (text = [] ∨ ∃ blanks sign digits, NumberText text blanks sign digits) := by
  constructor
  · intro h
    rcases strtol_cases tail with hnone | ⟨number, blanks, sign, digits, rest, rfl, hnumber, hrest⟩
    · rw [hnone] at h
      exact ⟨[], h, Or.inl rfl⟩
    · rw [strtol_number hnumber rest hrest] at h
      exact ⟨number, congrArg (number ++ ·) h, Or.inr ⟨blanks, sign, digits, hnumber⟩⟩
  · rintro ⟨text, rfl, rfl | ⟨blanks, sign, digits, hnumber⟩⟩
    · rfl
    · rw [strtol_number hnumber [93] (fun c hc => Option.some.inj hc ▸ rfl)]

/-- Decimal digits whose number and the one behind it a `long` holds. -/
def IndexText (text : CStr) : Prop :=
  text ≠ [] ∧ (∀ c ∈ text, isDigit c = true) ∧ digitsValue 10 text + 1 < 2 ^ 63

/-- INTERNAL: a text has one first bracket. -/
theorem bracket_unique {name tail name' tail' : CStr} (hno : ∀ c ∈ name, c ≠ 91)
    (hno' : ∀ c ∈ name', c ≠ 91) (h : name ++ 91 :: tail = name' ++ 91 :: tail') :
    name = name' ∧ tail = tail' := by
  have hsplit := splitAtByte_some 91 name tail hno
  rw [h, splitAtByte_some 91 name' tail' hno'] at hsplit
  cases hsplit
  exact ⟨rfl, rfl⟩

/-- INTERNAL: brackets hold an index if their text is one. -/
theorem indexed_bracket_iff {name text : CStr} (hno : ∀ c ∈ name, c ≠ 91)
    (hhead : (name ++ 91 :: (text ++ [93])).head? ≠ some 64) :
    (∃ name' digits, Indexed (name ++ 91 :: (text ++ [93])) name' digits) ↔ IndexText text := by
  constructor
  · rintro ⟨name', digits, h⟩
    obtain ⟨rfl, htail⟩ := bracket_unique hno h.plain h.shape
    rw [List.append_cancel_right htail]
    exact ⟨h.nonempty, h.decimal, h.fits⟩
  · rintro ⟨hne, hdigits, hfits⟩
    exact ⟨name, text, ⟨rfl, hno, hne, hdigits⟩, hhead, hfits⟩

/-- INTERNAL: the number of decimal digits has no other parts. -/
theorem numberText_digits {text blanks sign digits : CStr}
    (h : NumberText text blanks sign digits) (hdigits : ∀ c ∈ text, isDigit c = true) :
    blanks = [] ∧ sign = [] ∧ digits = text := by
  have hblanks : blanks = [] := by
    cases blanks with
    | nil => rfl
    | cons c blanks =>
      have hspace := h.blank c List.mem_cons_self
      rw [(digit_marks c (hdigits c (by rw [h.shape]; simp))).1] at hspace
      cases hspace
  have hsign : sign = [] := by
    rcases h.signed with hsign | rfl | rfl
    · exact hsign
    · have := hdigits 43 (by rw [h.shape]; simp [lit_plus])
      cases this
    · have := hdigits 45 (by rw [h.shape]; simp [lit_minus])
      cases this
  subst hblanks hsign
  exact ⟨rfl, rfl, h.shape.symm⟩

/-- INTERNAL: what `strtol` takes for a number is loose, or it is an index. -/
theorem loose_number_iff {text blanks sign digits : CStr} (h : NumberText text blanks sign digits) :
    (blanks ≠ [] ∨ sign ≠ [] ∨ 2 ^ 63 ≤ digitsValue 10 digits + 1) ↔ ¬IndexText text := by
  constructor
  · rintro hloose ⟨-, hdigits, hfits⟩
    obtain ⟨hblanks, hsign, rfl⟩ := numberText_digits h hdigits
    rcases hloose with hloose | hloose | hloose
    · exact hloose hblanks
    · exact hloose hsign
    · omega
  · intro hindex
    by_contra hstrict
    push Not at hstrict
    obtain ⟨rfl, rfl, hfits⟩ := hstrict
    obtain rfl : text = digits := h.shape
    exact hindex ⟨h.nonempty, h.decimal, hfits⟩

/-- INTERNAL: a number in brackets, or nothing, is a loose index if it is none. -/
theorem looseIndex_bracket_iff {name text : CStr} (hno : ∀ c ∈ name, c ≠ 91)
    (hhead : (name ++ 91 :: (text ++ [93])).head? ≠ some 64)
    (htext : text = [] ∨ ∃ blanks sign digits, NumberText text blanks sign digits) :
    LooseIndex (name ++ 91 :: (text ++ [93])) ↔ ¬IndexText text := by
  constructor
  · rintro ⟨-, name', text', hshape, hno', hloose⟩
    obtain ⟨-, htail⟩ := bracket_unique hno hno' hshape
    rw [List.append_cancel_right htail]
    rcases hloose with rfl | ⟨blanks, sign, digits, hnumber, hloose⟩
    · exact fun h => h.1 rfl
    · exact (loose_number_iff hnumber).mp hloose
  · intro hindex
    refine ⟨hhead, name, text, rfl, hno, ?_⟩
    rcases htext with hnil | ⟨blanks, sign, digits, hnumber⟩
    · exact Or.inl hnil
    · exact Or.inr ⟨blanks, sign, digits, hnumber, (loose_number_iff hnumber).mpr hindex⟩

/-- INTERNAL: `strtol` reads back what `%ld` prints. -/
theorem strtol_fmtD (n : ℤ) (h : FitsInt64 n) : strtol (fmtD n ++ [93]) = (n, [93]) := by
  obtain ⟨hlo, hhi⟩ := h
  have hnumber : NumberText (fmtD n) [] (if n < 0 then lit "-" else []) (decimal n.natAbs) := by
    refine ⟨rfl, fun c hc => absurd hc List.not_mem_nil, ?_, decimal_ne_nil _, decimal_digits _⟩
    split
    · exact Or.inr (Or.inr rfl)
    · exact Or.inl rfl
  rw [strtol_number hnumber [93] (fun c hc => Option.some.inj hc ▸ rfl), numberOf,
    digitsValue_decimal]
  by_cases hneg : n < 0
  · rw [if_pos hneg, if_pos rfl]
    refine Prod.ext ?_ rfl
    dsimp only
    omega
  · rw [if_neg hneg, if_neg (by decide)]
    refine Prod.ext ?_ rfl
    dsimp only
    omega

/-- INTERNAL: an index is read up to the closing bracket. -/
theorem strtol_indexText {text : CStr} (h : IndexText text) :
    strtol (text ++ [93]) = ((digitsValue 10 text : ℤ), [93]) := by
  obtain ⟨hne, hdigits, hfits⟩ := h
  have hnumber : NumberText text [] [] text :=
    ⟨rfl, fun c hc => absurd hc List.not_mem_nil, Or.inl rfl, hne, hdigits⟩
  rw [strtol_number hnumber [93] (fun c hc => Option.some.inj hc ▸ rfl), numberOf,
    if_neg (by decide)]
  refine Prod.ext ?_ rfl
  dsimp only
  omega

/-- INTERNAL: **an index is raised by one**. -/
theorem checkedSegment_index {name text : CStr} (hno : ∀ c ∈ name, c ≠ 91)
    (hhead : (name ++ 91 :: (text ++ [93])).head? ≠ some 64) (h : IndexText text) :
    checkedSegment (name ++ 91 :: (text ++ [93])) =
      some (name ++ 91 :: (decimal (digitsValue 10 text + 1) ++ [93])) := by
  have hfits : FitsInt64 ((digitsValue 10 text : ℤ) + 1) := by
    have := h.2.2
    constructor <;> omega
  have hprint : fmtD ((digitsValue 10 text : ℤ) + 1) = decimal (digitsValue 10 text + 1) :=
    fmtD_natural _
  rw [checkedSegment_bracket name _ hno hhead, strtol_indexText h, if_pos rfl, if_pos hfits, hprint]

/-- INTERNAL: a decimal index is raised by one. -/
theorem checkedSegment_decimal {name : CStr} (hno : ∀ c ∈ name, c ≠ 91) {i : ℕ}
    (hhead : (name ++ 91 :: (decimal i ++ [93])).head? ≠ some 64) (hi : i + 1 < 2 ^ 63) :
    checkedSegment (name ++ 91 :: (decimal i ++ [93])) =
      some (name ++ 91 :: (decimal (i + 1) ++ [93])) := by
  have hindex : IndexText (decimal i) :=
    ⟨decimal_ne_nil i, decimal_digits i, (digitsValue_decimal i).symm ▸ hi⟩
  have hchecked := checkedSegment_index hno hhead hindex
  rwa [digitsValue_decimal] at hchecked

/-- INTERNAL: an index that is raised is never written as it was. -/
theorem raised_index_ne {text : CStr}
    (hfits : FitsInt64 ((strtol (text ++ [93])).1 + 1)) :
    fmtD ((strtol (text ++ [93])).1 + 1) ≠ text := by
  intro heq
  have hread := strtol_fmtD _ hfits
  rw [heq] at hread
  have := congrArg Prod.fst hread
  dsimp only at this
  omega

/-- INTERNAL: **a segment is written as documented** exactly when it is no loose index. -/
theorem checkedSegment_documented_iff (seg : CStr) :
    (∃ out, checkedSegment seg = some out ∧ DocumentedSegment seg out) ↔ ¬LooseIndex seg := by
  by_cases hattr : seg.head? = some 64
  · have hno : ¬∃ name digits, Indexed seg name digits := fun ⟨_, _, h⟩ => h.element hattr
    exact iff_of_true ⟨seg, checkedSegment_attribute seg hattr, Or.inr ⟨rfl, hno⟩⟩
      fun h => h.1 hattr
  by_cases hbracket : (91 : UInt8) ∈ seg
  · obtain ⟨name, tail, rfl, hmem⟩ := List.eq_append_cons_of_mem hbracket
    have hno : ∀ c ∈ name, c ≠ 91 := fun c hc heq => hmem (heq ▸ hc)
    have hchecked := checkedSegment_bracket name tail hno hattr
    by_cases hclose : (strtol tail).2 = [93]
    · obtain ⟨text, rfl, htext⟩ := (strtol_close_iff tail).mp hclose
      rw [looseIndex_bracket_iff hno hattr htext, not_not]
      rw [if_pos hclose] at hchecked
      constructor
      · rintro ⟨out, hout, hdocumented⟩
        by_contra hindex
        rcases hdocumented with ⟨name', digits, hindexed, -⟩ | ⟨rfl, -⟩
        · exact hindex ((indexed_bracket_iff hno hattr).mp ⟨name', digits, hindexed⟩)
        · rw [hchecked] at hout
          by_cases hfits : FitsInt64 ((strtol (text ++ [93])).1 + 1)
          · rw [if_pos hfits] at hout
            have htail := (bracket_unique hno hno (Option.some.inj hout)).2
            exact raised_index_ne hfits (List.append_cancel_right htail)
          · rw [if_neg hfits] at hout
            cases hout
      · intro hindex
        exact ⟨_, checkedSegment_index hno hattr hindex, Or.inl ⟨name, text, ⟨⟨rfl, hno, hindex.1, hindex.2.1⟩, hattr,
          hindex.2.2⟩, rfl⟩⟩
    · rw [if_neg hclose] at hchecked
      refine iff_of_true ⟨_, hchecked, Or.inr ⟨rfl, ?_⟩⟩ ?_
      · rintro ⟨name', digits, h⟩
        obtain ⟨-, rfl⟩ := bracket_unique hno h.plain h.shape
        exact hclose (by rw [strtol_indexText ⟨h.nonempty, h.decimal, h.fits⟩])
      · rintro ⟨-, name', text, hshape, hno', hloose⟩
        obtain ⟨-, rfl⟩ := bracket_unique hno hno' hshape
        refine hclose ((strtol_close_iff _).mpr ⟨text, rfl, ?_⟩)
        rcases hloose with hnil | ⟨blanks, sign, digits, hnumber, -⟩
        · exact Or.inl hnil
        · exact Or.inr ⟨blanks, sign, digits, hnumber⟩
  · have hplain : ∀ c ∈ seg, c ≠ 91 := fun c hc heq => hbracket (heq ▸ hc)
    have hshape : ∀ name tail : CStr, seg ≠ name ++ 91 :: tail := by
      rintro name tail rfl
      exact hbracket (by simp)
    refine iff_of_true ⟨seg, checkedSegment_plain seg hplain, Or.inr ⟨rfl, ?_⟩⟩ ?_
    · rintro ⟨name, digits, h⟩
      exact hshape _ _ h.shape
    · rintro ⟨-, name, text, h, -⟩
      exact hshape _ _ h

/-! ## The pure translation -/

/-- INTERNAL: what is written for a segment is its pure translation. -/
theorem translateSegment_of_checked {seg out : CStr} (h : checkedSegment seg = some out) :
    translateSegment seg = out := by
  unfold translateSegment
  by_cases hattr : seg.head? = some 64
  · rw [checkedSegment_attribute seg hattr] at h
    rw [if_pos hattr, Option.some.inj h]
  rw [if_neg hattr]
  by_cases htext : seg = lit "text()"
  · rw [htext, checkedSegment_plain (lit "text()") (no_byte (by decide))] at h
    rw [if_pos htext, htext, Option.some.inj h]
  rw [if_neg htext]
  rcases splitAtByte_cases 91 seg with ⟨hsplit, hno⟩ | ⟨name, tail, hsplit, hno, rfl⟩
  · rw [checkedSegment_plain seg fun c hc heq => hno (heq ▸ hc)] at h
    rw [hsplit]
    exact Option.some.inj h
  · rw [checkedSegment_bracket name tail (fun c hc heq => hno (heq ▸ hc)) hattr] at h
    rw [hsplit, show lit "]" = [93] from rfl]
    dsimp only
    by_cases hclose : (strtol tail).2 = [93]
    · rw [if_pos hclose] at h
      by_cases hfits : FitsInt64 ((strtol tail).1 + 1)
      · rw [if_pos hfits] at h
        rw [if_pos hclose, ← Option.some.inj h]
        rfl
      · rw [if_neg hfits] at h
        cases h
    · rw [if_neg hclose] at h
      rw [if_neg hclose, Option.some.inj h]

end OpenHes.Analysis
