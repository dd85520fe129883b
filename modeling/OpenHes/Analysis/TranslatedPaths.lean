import OpenHes.Analysis.IndexForm
import OpenHes.Library.Segments
import OpenHes.Model.PathTranslation
import Mathlib.Data.List.Forall2

/-!
# Translated paths

The loop of the translation writes the text of one segment after the other into the buffer. What
it returns is told by the segments alone, whatever the allocator gives, and with it the paths that
are translated as documented.
-/

set_option autoImplicit false

namespace OpenHes.Analysis

open OpenHes.Library OpenHes.Library.Binary64 OpenHes.Model

/-- The translation of a path: its segments, translated, with a slash between each two. -/
def DocumentedTranslation (path : CStr) (absolute : Bool) (out : CStr) : Prop :=
  ∃ outs, List.Forall₂ DocumentedSegment (segments isSeparator path) outs ∧
    out = (if absolute then lit "/" else []) ++ List.intercalate (lit "/") outs

/-- **A path is translated as documented**: whatever the allocator gives, a text that is returned
is the documented one, and if it gives everything, there is one. -/
structure TranslatedAsDocumented (path : CStr) (absolute : Bool) : Prop where
  text : ∀ grants out, translatePathRun grants path absolute = .ok out →
    DocumentedTranslation path absolute out
  defined : ∀ grants, translatePathRun grants path absolute ≠ .error .overflow
  granted : ∃ out, translatePathRun (fun _ => true) path absolute = .ok out

/-! ## What is written -/

/-- What a part of the translation leaves behind `out`: NULL where the allocator has refused
something, no defined end where there is no text, or the text in the buffer. -/
inductive Writes (grants : ℕ → Bool) (out : GrowBuffer) :
    Option CStr → Except TranslateError GrowBuffer → Prop
  | refused (text : Option CStr) (n : ℕ) (no : grants n = false) :
    Writes grants out text (.error .null)
  | overflow : Writes grants out none (.error .overflow)
  | written (s : CStr) (out' : GrowBuffer) (bytes : out'.bytes = out.bytes ++ s) :
    Writes grants out (some s) (.ok out')

/-- Two texts, one behind the other. -/
def bothTexts (first second : Option CStr) : Option CStr :=
  first.bind fun s => second.map fun t => s ++ t

/-- INTERNAL: **one part after the other**. -/
theorem Writes.bind {grants : ℕ → Bool} {out : GrowBuffer} {first second : Option CStr}
    {r : Except TranslateError GrowBuffer}
    {next : GrowBuffer → Except TranslateError GrowBuffer} (hfirst : Writes grants out first r)
    (hnext : ∀ out', Writes grants out' second (next out')) :
    Writes grants out (bothTexts first second) (r >>= next) := by
  cases hfirst with
  | refused _ n no => exact .refused _ n no
  | overflow => exact .overflow
  | written s out' bytes =>
    have h := hnext out'
    change Writes grants out (second.map fun t => s ++ t) (next out')
    generalize next out' = r' at h
    cases h with
    | refused _ n no => exact .refused _ n no
    | overflow => exact .overflow
    | written t out'' bytes' =>
      exact .written (s ++ t) out'' (by rw [bytes', bytes, List.append_assoc])

/-- INTERNAL: an append that finds room writes its text. -/
theorem appendN_writes (grants : ℕ → Bool) (out : GrowBuffer) (s : CStr) :
    Writes grants out (some s) (appendN grants out s) := by
  unfold appendN
  split
  · by_cases hgrant : grants ((out.cap + s.length + 1) * 2) = true
    · rw [if_pos hgrant]
      exact .written s _ rfl
    · rw [if_neg hgrant]
      exact .refused _ _ (eq_false_of_ne_true hgrant)
  · exact .written s _ rfl

/-- INTERNAL: what follows a number is no longer than the text. -/
theorem strtol_rest_length (text : CStr) : (strtol text).2.length ≤ text.length := by
  rcases strtol_cases text with hnone | ⟨number, blanks, sign, digits, rest, rfl, hnumber, hrest⟩
  · rw [hnone]
  · rw [strtol_number hnumber rest hrest, List.length_append]
    exact Nat.le_add_left _ _

/-- INTERNAL: the test on the end pointer asks whether the bracket is the last of the segment. -/
theorem endp_test_iff (name tail more : CStr) :
    (((strtol tail).2 ++ more).head? = some 93 ∧
      (name ++ 91 :: tail ++ more).length - ((strtol tail).2 ++ more).length =
        (name ++ 91 :: tail).length - 1) ↔ (strtol tail).2 = [93] := by
  have hle := strtol_rest_length tail
  simp only [List.length_append, List.length_cons]
  cases hend : (strtol tail).2 with
  | nil =>
    rw [List.length_nil]
    refine iff_of_false (fun h => ?_) (List.cons_ne_nil _ _).symm
    omega
  | cons c rest =>
    rw [hend, List.length_cons] at hle
    rw [List.cons_append, List.head?_cons, Option.some_inj, List.length_cons, List.cons.injEq]
    refine and_congr_right fun _ => ?_
    rw [← List.length_eq_zero_iff]
    omega

/-- INTERNAL: **a segment is written** as its text says. -/
theorem appendSegment_writes (grants : ℕ → Bool) (out : GrowBuffer) (seg more : CStr)
    (hne : seg ≠ []) (hmore : ∀ c ∈ more.head?, isSeparator c = true) :
    Writes grants out (checkedSegment seg) (appendSegment grants out (seg ++ more) seg.length) := by
  have hhead : (seg ++ more).head? = seg.head? := List.head?_append_of_ne_nil seg hne
  have htake : (seg ++ more).take seg.length = seg := List.take_left
  unfold appendSegment
  rw [hhead, htake]
  by_cases hattr : seg.head? = some 64
  · rw [if_pos hattr, checkedSegment_attribute seg hattr]
    obtain ⟨c, rest, rfl⟩ := List.exists_cons_of_ne_nil hne
    obtain rfl : c = 64 := Option.some.inj hattr
    have hrest : (64 :: rest ++ more).tail.take ((64 :: rest).length - 1) = rest := List.take_left
    rw [hrest]
    exact (appendN_writes grants out (lit "@")).bind fun out' => appendN_writes grants out' rest
  rw [if_neg hattr]
  by_cases htext : seg.length = 6 ∧ (seg ++ more).take 6 = lit "text()"
  · obtain ⟨hsix, hseg⟩ := htext
    rw [if_pos ⟨hsix, hseg⟩]
    rw [← hsix, htake] at hseg
    rw [hseg, checkedSegment_plain (lit "text()") (no_byte (by decide))]
    exact appendN_writes grants out (lit "text()")
  rw [if_neg htext]
  rcases splitAtByte_cases 91 seg with ⟨hsplit, hno⟩ | ⟨name, tail, hsplit, hno, rfl⟩
  · rw [hsplit, checkedSegment_plain seg fun c hc heq => hno (heq ▸ hc)]
    exact appendN_writes grants out seg
  · have hname : (name ++ 91 :: tail ++ more).take name.length = name := by
      rw [List.append_assoc, List.take_left]
    have hdrop : (name ++ 91 :: tail ++ more).drop (name.length + 1) = tail ++ more := by
      rw [List.append_assoc, ← List.drop_drop, List.drop_left]
      rfl
    rw [hsplit, checkedSegment_bracket name tail (fun c hc heq => hno (heq ▸ hc)) hattr]
    dsimp only
    rw [hname, hdrop, strtol_append tail more hmore]
    dsimp only
    by_cases hclose : (strtol tail).2 = [93]
    · rw [if_pos ((endp_test_iff name tail more).mpr hclose), if_pos hclose]
      by_cases hfits : FitsInt64 ((strtol tail).1 + 1)
      · have hroom : ¬32 ≤ (lit "[" ++ fmtD ((strtol tail).1 + 1) ++ lit "]").length := by
          have := fmtD_length _ hfits
          have hbrackets : (lit "[").length = 1 ∧ (lit "]").length = 1 := ⟨rfl, rfl⟩
          rw [List.length_append, List.length_append]
          omega
        rw [if_pos hfits]
        change Writes grants out
          (bothTexts (some name) (some (91 :: (fmtD ((strtol tail).1 + 1) ++ [93])))) _
        refine (appendN_writes grants out name).bind fun out' => ?_
        rw [if_pos hfits, if_neg hroom]
        exact appendN_writes grants out' _
      · rw [if_neg hfits]
        change Writes grants out (bothTexts (some name) none) _
        refine (appendN_writes grants out name).bind fun out' => ?_
        rw [if_neg hfits]
        exact .overflow
    · rw [if_neg (fun h => hclose ((endp_test_iff name tail more).mp h)), if_neg hclose]
      exact appendN_writes grants out _

/-- What is written for segments; a slash stands before each but the first of a path. -/
def bodyText : List CStr → Bool → Option CStr
  | [], _ => some []
  | seg :: segs, first =>
    bothTexts (some (if first then [] else lit "/"))
      (bothTexts (checkedSegment seg) (bodyText segs false))

/-- INTERNAL: **the loop writes** what the segments of the path say. -/
theorem appendSegments_writes (grants : ℕ → Bool) (p : CStr) (first : Bool) (out : GrowBuffer) :
    Writes grants out (bodyText (segments isSeparator p) first) (appendSegments grants p first out) := by
  induction hn : p.length using Nat.strong_induction_on generalizing p first out with
  | _ n ih =>
    rw [← segments_dropWhile isSeparator p, appendSegments]
    dsimp only
    by_cases hend : p.dropWhile isSeparator = []
    · rw [dif_pos hend, hend, segments_nil]
      exact .written [] out (List.append_nil _).symm
    · rw [dif_neg hend]
      have hlen := segment_pos p hend
      have hle := (List.dropWhile_sublist isSeparator (l := p)).length_le
      generalize p.dropWhile isSeparator = segStart at hend hlen hle
      have hstart := List.takeWhile_append_dropWhile (p := fun c => !isSeparator c) (l := segStart)
      have hrun : ∀ c ∈ segStart.takeWhile (fun c => !isSeparator c), isSeparator c = false := by
        intro c hc
        simpa using List.mem_takeWhile_imp hc
      have hstop : ∀ c ∈ (segStart.dropWhile fun c => !isSeparator c).head?,
          isSeparator c = true := by
        intro c hc
        have hhead := List.head?_dropWhile_not (fun c => !isSeparator c) segStart
        rw [Option.mem_def.mp hc] at hhead
        simpa using hhead
      generalize segStart.takeWhile (fun c => !isSeparator c) = seg at *
      generalize segStart.dropWhile (fun c => !isSeparator c) = more at *
      subst hstart
      have hne : seg ≠ [] := List.ne_nil_of_length_pos hlen
      rw [List.length_append] at hle
      rw [segments_run_append isSeparator seg more hne hrun hstop, List.drop_left, bodyText]
      have hrest : ∀ out' : GrowBuffer, Writes grants out'
          (bothTexts (checkedSegment seg) (bodyText (segments isSeparator more) false))
          (appendSegment grants out' (seg ++ more) seg.length >>=
            appendSegments grants more false) := fun out' =>
        (appendSegment_writes grants out' seg more hne hstop).bind fun out'' =>
          ih more.length (by omega) more false out'' rfl
      cases first with
      | true => exact Writes.bind (.written [] out (List.append_nil _).symm) hrest
      | false => exact (appendN_writes grants out (lit "/")).bind hrest

/-- INTERNAL: **what `_translate_path` returns**. -/
theorem translatePathRun_cases (grants : ℕ → Bool) (path : CStr) (absolute : Bool) :
    (translatePathRun grants path absolute = .error .null ∧ ∃ n, grants n = false) ∨
      (translatePathRun grants path absolute = .error .overflow ∧
        bodyText (segments isSeparator path) true = none) ∨
      ∃ text, bodyText (segments isSeparator path) true = some text ∧
        translatePathRun grants path absolute =
          .ok ((if absolute then lit "/" else []) ++ text) := by
  by_cases hgrant : grants 128 = true
  · have hstart : ∀ start : GrowBuffer, start.bytes = [] →
        Writes grants start (some (if absolute then lit "/" else []))
          (if absolute then appendN grants start (lit "/") else .ok start) := by
      intro start hempty
      cases absolute with
      | true => exact appendN_writes grants start (lit "/")
      | false => exact .written [] start (List.append_nil _).symm
    have hwrites := (hstart ⟨[], 128, by decide⟩ rfl).bind (appendSegments_writes grants path true)
    have hrun : translatePathRun grants path absolute =
        (((if absolute then appendN grants ⟨[], 128, by decide⟩ (lit "/")
          else .ok ⟨[], 128, by decide⟩) >>= appendSegments grants path true) >>=
            fun out => .ok out.bytes) := by
      rw [translatePathRun, if_pos hgrant]
      cases absolute with
      | true => rw [if_pos rfl, if_pos rfl, bind_assoc]
      | false => rfl
    rw [hrun]
    generalize ((if absolute then appendN grants ⟨[], 128, by decide⟩ (lit "/")
      else .ok ⟨[], 128, by decide⟩) >>= appendSegments grants path true) = r at hwrites
    cases hbody : bodyText (segments isSeparator path) true with
    | none =>
      rw [hbody] at hwrites
      cases hwrites with
      | refused _ n no => exact Or.inl ⟨rfl, n, no⟩
      | overflow => exact Or.inr (Or.inl ⟨rfl, rfl⟩)
    | some text =>
      rw [hbody] at hwrites
      generalize htext : bothTexts (some (if absolute then lit "/" else [])) (some text) = both
        at hwrites
      cases hwrites with
      | refused _ n no => exact Or.inl ⟨rfl, n, no⟩
      | overflow => cases htext
      | written s out' bytes =>
        refine Or.inr (Or.inr ⟨text, rfl, ?_⟩)
        rw [← Option.some.inj htext] at bytes
        exact congrArg Except.ok bytes
  · refine Or.inl ⟨?_, 128, eq_false_of_ne_true hgrant⟩
    rw [translatePathRun, if_neg hgrant]

/-! ## The segments of the result -/

/-- INTERNAL: a joined list is its first part and a separator in front of each other. -/
theorem intercalate_cons_flatMap (out : CStr) (outs : List CStr) :
    List.intercalate (lit "/") (out :: outs) = out ++ outs.flatMap fun o => lit "/" ++ o := by
  induction outs generalizing out with
  | nil => simp [List.intercalate]
  | cons next outs ih =>
    have hnext := ih next
    simp only [List.intercalate, List.intersperse_cons_cons, List.flatten_cons, List.flatMap_cons]
      at hnext ⊢
    rw [hnext, List.append_assoc]

/-- INTERNAL: two texts are there if both are. -/
theorem bothTexts_eq_some (first second : Option CStr) (text : CStr) :
    bothTexts first second = some text ↔
      ∃ s t, first = some s ∧ second = some t ∧ text = s ++ t := by
  unfold bothTexts
  constructor
  · intro h
    obtain ⟨s, hs, h⟩ := Option.bind_eq_some_iff.mp h
    obtain ⟨t, ht, h⟩ := Option.map_eq_some_iff.mp h
    exact ⟨s, t, hs, ht, h.symm⟩
  · rintro ⟨s, t, rfl, rfl, rfl⟩
    rfl

/-- INTERNAL: the text behind the first segment has a separator in front of each. -/
theorem bodyText_rest (segs : List CStr) (text : CStr) :
    bodyText segs false = some text ↔
      ∃ outs, List.Forall₂ (fun seg out => checkedSegment seg = some out) segs outs ∧
        text = outs.flatMap fun o => lit "/" ++ o := by
  induction segs generalizing text with
  | nil =>
    constructor
    · intro h
      exact ⟨[], .nil, (Option.some.inj h).symm⟩
    · rintro ⟨outs, houts, rfl⟩
      cases houts
      rfl
  | cons seg segs ih =>
    rw [bodyText, bothTexts_eq_some]
    constructor
    · rintro ⟨sep, t, hsep, ht, rfl⟩
      rw [← Option.some.inj hsep]
      obtain ⟨out, rest, hout, hrest, rfl⟩ := (bothTexts_eq_some _ _ _).mp ht
      obtain ⟨outs, houts, rfl⟩ := (ih rest).mp hrest
      exact ⟨out :: outs, .cons hout houts, (List.append_assoc _ _ _).symm⟩
    · rintro ⟨outs, houts, rfl⟩
      cases houts with
      | @cons _ out _ outs hout houts =>
        exact ⟨_, _, rfl, (bothTexts_eq_some _ _ _).mpr
          ⟨out, _, hout, (ih _).mpr ⟨outs, houts, rfl⟩, rfl⟩, List.append_assoc _ _ _⟩

/-- INTERNAL: **the text behind the first slash** is made of what is written for each segment. -/
theorem bodyText_eq_some (segs : List CStr) (text : CStr) :
    bodyText segs true = some text ↔
      ∃ outs, List.Forall₂ (fun seg out => checkedSegment seg = some out) segs outs ∧
        text = List.intercalate (lit "/") outs := by
  cases segs with
  | nil =>
    constructor
    · intro h
      exact ⟨[], .nil, (Option.some.inj h).symm⟩
    · rintro ⟨outs, houts, rfl⟩
      cases houts
      rfl
  | cons seg segs =>
    rw [bodyText, bothTexts_eq_some]
    constructor
    · rintro ⟨sep, t, hsep, ht, rfl⟩
      rw [← Option.some.inj hsep]
      obtain ⟨out, rest, hout, hrest, rfl⟩ := (bothTexts_eq_some _ _ _).mp ht
      obtain ⟨outs, houts, rfl⟩ := (bodyText_rest segs rest).mp hrest
      exact ⟨out :: outs, .cons hout houts, (intercalate_cons_flatMap out outs).symm⟩
    · rintro ⟨outs, houts, rfl⟩
      cases houts with
      | @cons _ out _ outs hout houts =>
        exact ⟨_, _, rfl, (bothTexts_eq_some _ _ _).mpr
          ⟨out, _, hout, (bodyText_rest segs _).mpr ⟨outs, houts, rfl⟩, rfl⟩,
          intercalate_cons_flatMap out outs⟩

/-- INTERNAL: two relations between the members of lists, told of each member. -/
theorem exists_forall₂_and {α β : Type} (P Q : α → β → Prop) (as : List α) :
    (∃ bs, List.Forall₂ P as bs ∧ List.Forall₂ Q as bs) ↔ ∀ a ∈ as, ∃ b, P a b ∧ Q a b := by
  induction as with
  | nil => exact iff_of_true ⟨[], .nil, .nil⟩ fun a ha => absurd ha List.not_mem_nil
  | cons a as ih =>
    rw [List.forall_mem_cons, ← ih]
    constructor
    · rintro ⟨bs, hP, hQ⟩
      cases hP with
      | cons hab hP =>
        cases hQ with
        | cons hab' hQ => exact ⟨⟨_, hab, hab'⟩, _, hP, hQ⟩
    · rintro ⟨⟨b, hab, hab'⟩, bs, hP, hQ⟩
      exact ⟨b :: bs, .cons hab hP, .cons hab' hQ⟩

/-- INTERNAL: a byte that separates nothing is no slash. -/
theorem separator_slash (c : UInt8) (h : isSeparator c = false) : c ≠ 47 := by
  rintro rfl
  cases h

/-- INTERNAL: a translated segment without separators holds no slash. -/
theorem checkedSegment_run {seg out : CStr} (h : ∀ c ∈ seg, isSeparator c = false)
    (hout : checkedSegment seg = some out) : ∀ c ∈ out, c ≠ 47 := by
  have hseg : ∀ c ∈ seg, c ≠ 47 := fun c hc => separator_slash c (h c hc)
  by_cases hattr : seg.head? = some 64
  · rw [checkedSegment_attribute seg hattr] at hout
    exact Option.some.inj hout ▸ hseg
  rcases splitAtByte_cases 91 seg with ⟨-, hno⟩ | ⟨name, tail, -, hno, rfl⟩
  · rw [checkedSegment_plain seg fun c hc heq => hno (heq ▸ hc)] at hout
    exact Option.some.inj hout ▸ hseg
  · rw [checkedSegment_bracket name tail (fun c hc heq => hno (heq ▸ hc)) hattr] at hout
    by_cases hclose : (strtol tail).2 = [93]
    · rw [if_pos hclose] at hout
      by_cases hfits : FitsInt64 ((strtol tail).1 + 1)
      · rw [if_pos hfits] at hout
        intro c hc
        rw [← Option.some.inj hout] at hc
        simp only [List.mem_append, List.mem_cons, List.not_mem_nil, or_false] at hc
        rcases hc with hc | rfl | hc | rfl
        · exact hseg c (List.mem_append_left _ hc)
        · decide
        · rintro rfl
          exact not_mem_fmtD 47 (by decide) rfl _ hc
        · decide
      · rw [if_neg hfits] at hout
        cases hout
    · rw [if_neg hclose] at hout
      exact Option.some.inj hout ▸ hseg

/-- INTERNAL: neither does what the comment says of it. -/
theorem documentedSegment_run {seg out : CStr} (h : ∀ c ∈ seg, isSeparator c = false)
    (hout : DocumentedSegment seg out) : ∀ c ∈ out, c ≠ 47 := by
  have hseg : ∀ c ∈ seg, c ≠ 47 := fun c hc => separator_slash c (h c hc)
  rcases hout with ⟨name, digits, hindexed, rfl⟩ | ⟨rfl, -⟩
  · intro c hc
    simp only [List.mem_append, List.mem_cons, List.not_mem_nil, or_false] at hc
    rcases hc with hc | rfl | hc | rfl
    · exact hseg c (hindexed.shape ▸ List.mem_append_left _ hc)
    · decide
    · exact separator_slash c (digit_marks c (decimal_digits _ c hc)).2.2.2.2
    · decide
  · exact hseg

/-- INTERNAL: texts without a slash are told from what the slashes between them make of them. -/
theorem intercalate_slash_injective {outs outs' : List CStr} (hlength : outs.length = outs'.length)
    (hrun : ∀ out ∈ outs, ∀ c ∈ out, c ≠ 47) (hrun' : ∀ out ∈ outs', ∀ c ∈ out, c ≠ 47)
    (h : List.intercalate (lit "/") outs = List.intercalate (lit "/") outs') : outs = outs' := by
  have hsplit : ∀ os : List CStr, os ≠ [] → (∀ out ∈ os, ∀ c ∈ out, c ≠ 47) →
      (List.intercalate (lit "/") os).splitOnP (· = 47) = os := by
    intro os hne hos
    exact Xml.splitOnP_intercalate (fun c => decide (c = 47)) 47 rfl os hne fun out hout c hc =>
      decide_eq_false (hos out hout c hc)
  by_cases hempty : outs = []
  · rw [hempty, List.length_nil] at hlength
    rw [hempty, List.length_eq_zero_iff.mp hlength.symm]
  · have hempty' : outs' ≠ [] := by
      rintro rfl
      exact hempty (List.length_eq_zero_iff.mp hlength)
    rw [← hsplit outs hempty hrun, h, hsplit outs' hempty' hrun']

/-- INTERNAL: so it is for all segments of a path. -/
theorem forall₂_run {R : CStr → CStr → Prop} {segs outs : List CStr} (h : List.Forall₂ R segs outs)
    (hR : ∀ seg ∈ segs, ∀ out, R seg out → ∀ c ∈ out, c ≠ 47) :
    ∀ out ∈ outs, ∀ c ∈ out, c ≠ 47 := by
  induction h with
  | nil => exact fun out hout => absurd hout List.not_mem_nil
  | cons hab _ ih =>
    rw [List.forall_mem_cons] at hR ⊢
    exact ⟨hR.1 _ hab, ih hR.2⟩

/-! ## The pure translation -/

/-- INTERNAL: segments that are translated within the room are the pure ones. -/
theorem map_translateSegment_of_checked {segs outs : List CStr}
    (h : List.Forall₂ (fun seg out => checkedSegment seg = some out) segs outs) :
    segs.map translateSegment = outs := by
  induction h with
  | nil => rfl
  | cons hout _ ih => rw [List.map_cons, translateSegment_of_checked hout, ih]

/-- INTERNAL: **what runs is the pure translation**, wherever it is defined. -/
theorem translatePath_of_run {grants : ℕ → Bool} {path out : CStr} {absolute : Bool}
    (h : translatePathRun grants path absolute = .ok out) : translatePath path absolute = out := by
  rcases translatePathRun_cases grants path absolute with
    ⟨hnull, -⟩ | ⟨hoverflow, -⟩ | ⟨text, htext, hran⟩
  · rw [h] at hnull
    cases hnull
  · rw [h] at hoverflow
    cases hoverflow
  · obtain ⟨outs, houts, rfl⟩ := (bodyText_eq_some _ text).mp htext
    rw [h] at hran
    rw [Except.ok.inj hran, ← map_translateSegment_of_checked houts]
    rfl

/-! ## The documented translation -/

/-- INTERNAL: a path that is translated as documented has no loose index. -/
theorem strict_of_documented {path : CStr} {absolute : Bool}
    (h : TranslatedAsDocumented path absolute) : ∀ seg ∈ segments isSeparator path, ¬LooseIndex seg := by
  have hrun : ∀ seg ∈ segments isSeparator path, ∀ c ∈ seg, isSeparator c = false :=
    mem_segments_run isSeparator path
  obtain ⟨out, hout⟩ := h.granted
  obtain ⟨outs, houts, rfl⟩ := h.text _ out hout
  rcases translatePathRun_cases (fun _ => true) path absolute with
    ⟨-, n, hrefused⟩ | ⟨hoverflow, -⟩ | ⟨text, htext, hran⟩
  · cases hrefused
  · rw [hout] at hoverflow
    cases hoverflow
  · rw [hran] at hout
    have htext' := List.append_cancel_left (Except.ok.inj hout)
    obtain ⟨written, hwritten, rfl⟩ := (bodyText_eq_some _ text).mp htext
    obtain rfl : written = outs := intercalate_slash_injective
      (hwritten.length_eq.symm.trans houts.length_eq)
      (forall₂_run hwritten fun seg hseg out hout => checkedSegment_run (hrun seg hseg) hout)
      (forall₂_run houts fun seg hseg out hout => documentedSegment_run (hrun seg hseg) hout)
      htext'
    intro seg hseg
    rw [← checkedSegment_documented_iff]
    exact (exists_forall₂_and _ _ _).mp ⟨written, hwritten, houts⟩ seg hseg

/-- INTERNAL: without a loose index a path is translated as documented. -/
theorem documented_of_strict {path : CStr} (absolute : Bool)
    (h : ∀ seg ∈ segments isSeparator path, ¬LooseIndex seg) :
    TranslatedAsDocumented path absolute := by
  obtain ⟨outs, hwritten, houts⟩ := (exists_forall₂_and
    (fun seg out => checkedSegment seg = some out) DocumentedSegment _).mpr fun seg hseg =>
      (checkedSegment_documented_iff seg).mpr (h seg hseg)
  have hbody := (bodyText_eq_some _ _).mpr ⟨outs, hwritten, rfl⟩
  have hruns : ∀ grants, (translatePathRun grants path absolute = .error .null ∧
      ∃ n, grants n = false) ∨ translatePathRun grants path absolute =
        .ok ((if absolute then lit "/" else []) ++ List.intercalate (lit "/") outs) := by
    intro grants
    rcases translatePathRun_cases grants path absolute with hnull | ⟨-, hnone⟩ | ⟨text, htext, hran⟩
    · exact Or.inl hnull
    · rw [hbody] at hnone
      cases hnone
    · rw [hbody] at htext
      rw [← Option.some.inj htext] at hran
      exact Or.inr hran
  constructor
  · intro grants out hout
    rcases hruns grants with ⟨hnull, -⟩ | hran
    · rw [hnull] at hout
      cases hout
    · rw [hran] at hout
      exact ⟨outs, houts, (Except.ok.inj hout).symm⟩
  · intro grants hoverflow
    rcases hruns grants with ⟨hnull, -⟩ | hran
    · rw [hnull] at hoverflow
      cases hoverflow
    · rw [hran] at hoverflow
      cases hoverflow
  · rcases hruns fun _ => true with ⟨-, n, hrefused⟩ | hran
    · cases hrefused
    · exact ⟨_, hran⟩

/-- **Paths are translated as documented** exactly when no segment has a loose index; and whatever
the allocator gives, a text that comes out is that of the pure translation.
SRCLINE: hes_query.c:72-200 -/
theorem path_translated_iff (path : CStr) (absolute : Bool) :
    (TranslatedAsDocumented path absolute ↔
        ∀ seg ∈ segments isSeparator path, ¬LooseIndex seg) ∧
      ∀ grants out, translatePathRun grants path absolute = .ok out →
        out = translatePath path absolute :=
  ⟨⟨strict_of_documented, documented_of_strict absolute⟩,
    fun _ _ h => (translatePath_of_run h).symm⟩

/-- INTERNAL: brackets with nothing in them ask for the first element, and the greatest `long`
overflows. -/
theorem empty_brackets_are_an_index :
    translatePathRun (fun _ => true) (lit "a[]") true = .ok (lit "/a[1]") ∧
      translatePathRun (fun _ => true) (lit "a[9223372036854775807]") true = .error .overflow ∧
      ¬∀ (path : CStr) (absolute : Bool), TranslatedAsDocumented path absolute := by
  have hloose : LooseIndex (lit "a[]") :=
    ⟨by decide, lit "a", [], rfl, no_byte (by decide), Or.inl rfl⟩
  refine ⟨?_, ?_, fun h => ?_⟩
  · have hbody : bodyText (segments isSeparator (lit "a[]")) true = some (lit "a[1]") := by
      decide +kernel
    rcases translatePathRun_cases (fun _ => true) (lit "a[]") true with
      ⟨-, n, hrefused⟩ | ⟨-, hnone⟩ | ⟨text, htext, hran⟩
    · cases hrefused
    · rw [hbody] at hnone
      cases hnone
    · rw [hbody] at htext
      rw [hran, ← Option.some.inj htext]
      rfl
  · have hbody : bodyText (segments isSeparator (lit "a[9223372036854775807]")) true = none := by
      decide +kernel
    rcases translatePathRun_cases (fun _ => true) (lit "a[9223372036854775807]") true with
      ⟨-, n, hrefused⟩ | ⟨hran, -⟩ | ⟨text, htext, -⟩
    · cases hrefused
    · exact hran
    · rw [hbody] at htext
      cases htext
  · exact strict_of_documented (h (lit "a[]") true) (lit "a[]") (by decide +kernel) hloose

end OpenHes.Analysis
