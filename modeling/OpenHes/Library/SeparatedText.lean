import OpenHes.Library.Binary64
import Mathlib.Data.List.Basic

/-!
# Texts of pieces between separators

A scan that goes from separator to separator sees the pieces of a text, and no piece behind a
separator at the end. Pieces without the separator are joined and found again, and a number
that is read from a text is not read past a byte that no number contains.
-/

set_option autoImplicit false

namespace OpenHes.Library

/-! ## Pieces -/

/-- The pieces of a text; a separator at the end has none behind it. -/
def pieces (sep : UInt8) : CStr → List CStr
  | [] => []
  | c :: rest =>
    if c = sep then [] :: pieces sep rest
    else
      match pieces sep rest with
      | [] => [[c]]
      | piece :: more => (c :: piece) :: more

/-- Pieces with the separator between them. -/
def joined (sep : UInt8) (ps : List CStr) : CStr := [sep].intercalate ps

variable {sep : UInt8}

/-- INTERNAL: an empty text has no pieces. -/
@[simp] theorem pieces_nil : pieces sep [] = [] := rfl

/-- INTERNAL: no pieces make an empty text. -/
@[simp] theorem joined_nil : joined sep [] = [] := rfl

/-- INTERNAL: one piece is the text. -/
@[simp] theorem joined_singleton (piece : CStr) : joined sep [piece] = piece := by
  simp [joined, List.intercalate]

/-- INTERNAL: a separator stands between two pieces. -/
@[simp] theorem joined_cons_cons (piece next : CStr) (more : List CStr) :
    joined sep (piece :: next :: more) = piece ++ sep :: joined sep (next :: more) := by
  simp [joined, List.intercalate]

/-- INTERNAL: each further piece comes with a separator in front. -/
theorem joined_cons (piece : CStr) (more : List CStr) :
    joined sep (piece :: more) = piece ++ more.flatMap (sep :: ·) := by
  induction more generalizing piece with
  | nil => simp
  | cons next more ih => rw [joined_cons_cons, ih, List.flatMap_cons, List.cons_append]

/-- INTERNAL: the first piece ends at the first separator. -/
theorem pieces_append_sep (piece rest : CStr) (h : sep ∉ piece) :
    pieces sep (piece ++ sep :: rest) = piece :: pieces sep rest := by
  induction piece with
  | nil => simp [pieces]
  | cons c piece ih =>
    rw [List.mem_cons, not_or] at h
    rw [List.cons_append, pieces, if_neg (Ne.symm h.1), ih h.2]

/-- INTERNAL: a text without a separator is one piece. -/
theorem pieces_of_not_mem (piece : CStr) (hne : piece ≠ []) (h : sep ∉ piece) :
    pieces sep piece = [piece] := by
  induction piece with
  | nil => exact absurd rfl hne
  | cons c piece ih =>
    rw [List.mem_cons, not_or] at h
    rw [pieces, if_neg (Ne.symm h.1)]
    by_cases hnil : piece = []
    · rw [hnil, pieces]
    · rw [ih hnil h.2]

/-- INTERNAL: `splitAtByte` takes a text apart at its first separator. -/
theorem splitAtByte_cases (sep : UInt8) (text : CStr) :
    (splitAtByte sep text = (text, none) ∧ sep ∉ text) ∨
      ∃ piece rest, splitAtByte sep text = (piece, some rest) ∧ sep ∉ piece ∧
        text = piece ++ sep :: rest := by
  by_cases h : sep ∈ text
  · obtain ⟨piece, rest, rfl, hnot⟩ := List.eq_append_cons_of_mem h
    exact Or.inr ⟨piece, rest, splitAtByte_some sep piece rest fun c hc hcs => hnot (hcs ▸ hc),
      hnot, rfl⟩
  · exact Or.inl ⟨splitAtByte_none sep text fun c hc hcs => h (hcs ▸ hc), h⟩

/-- INTERNAL: **induction on the pieces**: the empty text, a last piece, and a piece with a
separator behind it. -/
theorem pieces_induction (sep : UInt8) {motive : CStr → Prop} (nil : motive [])
    (last : ∀ piece, piece ≠ [] → sep ∉ piece → motive piece)
    (cons : ∀ piece rest, sep ∉ piece → motive rest → motive (piece ++ sep :: rest))
    (text : CStr) : motive text := by
  induction hn : text.length using Nat.strong_induction_on generalizing text with
  | _ n ih =>
    by_cases hnil : text = []
    · exact hnil ▸ nil
    · rcases splitAtByte_cases sep text with ⟨-, hnot⟩ | ⟨piece, rest, -, hnot, rfl⟩
      · exact last text hnil hnot
      · apply cons piece rest hnot
        apply ih rest.length _ rest rfl
        rw [← hn, List.length_append, List.length_cons]
        omega

/-- INTERNAL: a piece holds no separator. -/
theorem mem_pieces_not_mem (text piece : CStr) (h : piece ∈ pieces sep text) : sep ∉ piece := by
  induction text using pieces_induction sep with
  | nil => exact absurd h List.not_mem_nil
  | last text hne hnot =>
    rw [pieces_of_not_mem text hne hnot, List.mem_singleton] at h
    exact h ▸ hnot
  | cons first rest hnot ih =>
    rw [pieces_append_sep first rest hnot] at h
    rcases List.mem_cons.mp h with rfl | hrest
    · exact hnot
    · exact ih hrest

/-- INTERNAL: a piece is shorter than the text when something is around it. -/
theorem length_of_mem_pieces (text piece : CStr) (h : piece ∈ pieces sep text) :
    piece.length ≤ text.length ∧ (sep ∈ text → piece.length < text.length) := by
  induction text using pieces_induction sep with
  | nil => exact absurd h List.not_mem_nil
  | last text hne hnot =>
    rw [pieces_of_not_mem text hne hnot, List.mem_singleton] at h
    exact ⟨h ▸ Nat.le_refl _, fun hmem => absurd hmem hnot⟩
  | cons first rest hnot ih =>
    rw [pieces_append_sep first rest hnot] at h
    rw [List.length_append, List.length_cons]
    rcases List.mem_cons.mp h with rfl | hrest
    · omega
    · have := (ih hrest).1
      omega

/-- INTERNAL: the text cut at every separator has the same pieces, and perhaps an empty one
behind them. -/
theorem splitOn_eq_pieces (sep : UInt8) (text : CStr) :
    text.splitOn sep = pieces sep text ∨ text.splitOn sep = pieces sep text ++ [[]] := by
  induction text using pieces_induction sep with
  | nil => exact Or.inr (by simp)
  | last text hne hnot =>
    left
    rw [pieces_of_not_mem text hne hnot, List.splitOn_eq_singleton hnot]
  | cons first rest hnot ih =>
    rw [pieces_append_sep first rest hnot, List.splitOn_append_cons_self_of_not_mem hnot]
    rcases ih with ih | ih
    · exact Or.inl (by rw [ih])
    · exact Or.inr (by rw [ih, List.cons_append])

/-- INTERNAL: empty pieces make no difference to a filter that refuses them. -/
theorem filter_splitOn (p : CStr → Bool) (hp : p [] = false) (text : CStr) :
    (text.splitOn sep).filter p = (pieces sep text).filter p := by
  rcases splitOn_eq_pieces sep text with h | h
  · rw [h]
  · rw [h, List.filter_append]
    simp [hp]

/-- INTERNAL: nor to a search that refuses them. -/
theorem find?_splitOn (p : CStr → Bool) (hp : p [] = false) (text : CStr) :
    (text.splitOn sep).find? p = (pieces sep text).find? p := by
  rcases splitOn_eq_pieces sep text with h | h
  · rw [h]
  · rw [h, List.find?_append]
    simp [hp]

/-- INTERNAL: pieces that were joined are found again. -/
theorem pieces_joined (ps : List CStr) (hne : ∀ piece ∈ ps, piece ≠ [])
    (h : ∀ piece ∈ ps, sep ∉ piece) : pieces sep (joined sep ps) = ps := by
  induction ps with
  | nil => rfl
  | cons piece more ih =>
    cases more with
    | nil =>
      rw [joined_singleton, pieces_of_not_mem piece (hne piece (by simp)) (h piece (by simp))]
    | cons next more =>
      rw [joined_cons_cons, pieces_append_sep _ _ (h piece (by simp)),
        ih (fun q hq => hne q (by simp [hq])) fun q hq => h q (by simp [hq])]

/-- INTERNAL: joined pieces tell the pieces, where the first is not empty. -/
theorem joined_inj (ps qs : List CStr) (hp : ∀ piece ∈ ps, sep ∉ piece)
    (hq : ∀ piece ∈ qs, sep ∉ piece) (hphead : ps.head? ≠ some []) (hqhead : qs.head? ≠ some [])
    (h : joined sep ps = joined sep qs) : ps = qs := by
  have hempty : ∀ ps : List CStr, ps.head? ≠ some [] → joined sep ps = [] → ps = [] := by
    intro ps hhead hnil
    cases ps with
    | nil => rfl
    | cons piece more =>
      rw [joined_cons, List.append_eq_nil_iff] at hnil
      exact absurd (by rw [hnil.1]; rfl) hhead
  by_cases hpnil : ps = []
  · subst hpnil
    exact (hempty qs hqhead h.symm).symm
  · by_cases hqnil : qs = []
    · subst hqnil
      exact hempty ps hphead h
    · rw [← List.splitOn_intercalate sep hp hpnil, ← List.splitOn_intercalate sep hq hqnil]
      exact congrArg (List.splitOn sep) h

/-- INTERNAL: a joined text is cut as its pieces are. -/
theorem splitOn_joined (ps : List CStr) (hne : ps ≠ []) :
    (joined sep ps).splitOn sep = ps.flatMap fun piece => piece.splitOn sep := by
  induction ps with
  | nil => exact absurd rfl hne
  | cons piece more ih =>
    cases more with
    | nil => simp
    | cons next more =>
      rw [joined_cons_cons, List.splitOn_append_cons_self, ih (by simp)]
      rfl

/-! ## Numbers before a separator -/

namespace Binary64

/-- The text before the first ';'. -/
def cut (s : CStr) : CStr := s.takeWhile fun c => c ≠ 59

/-- INTERNAL: cutting a text and taking from it go together. -/
theorem takeWhile_cut (p : UInt8 → Bool) (hp : p 59 = false) (s : CStr) :
    (cut s).takeWhile p = s.takeWhile p ∧ (cut s).dropWhile p = cut (s.dropWhile p) := by
  induction s with
  | nil => exact ⟨rfl, rfl⟩
  | cons c s ih =>
    by_cases hc : c = 59
    · subst hc
      simp [cut, hp]
    · have hcut : cut (c :: s) = c :: cut s := by simp [cut, hc]
      cases hpc : p c with
      | true => simp [hcut, hpc, ih]
      | false => simp [hcut, hpc]

/-- INTERNAL: a sign is read the same in front of the cut. -/
theorem readSign_cut (s : CStr) : readSign (cut s) = ((readSign s).1, cut (readSign s).2) := by
  cases s with
  | nil => rfl
  | cons c s =>
    by_cases hc : c = 59
    · subst hc
      rfl
    · have hcut : cut (c :: s) = c :: cut s := by simp [cut, hc]
      rw [hcut]
      unfold readSign
      by_cases h45 : c = 45
      · simp [h45]
      · by_cases h43 : c = 43
        · simp [h43]
        · simp [h45, h43, hcut]

/-- INTERNAL: so is a word. -/
theorem dropPrefix_cut (p : CStr) (hp : (59 : UInt8) ∉ p) (s : CStr) :
    dropPrefix p (cut s) = (dropPrefix p s).map cut := by
  induction p generalizing s with
  | nil => simp [dropPrefix]
  | cons d p ih =>
    rw [List.mem_cons, not_or] at hp
    cases s with
    | nil => rfl
    | cons c s =>
      by_cases hc : c = 59
      · subst hc
        have hd : lower 59 ≠ d := hp.1
        have hcut : cut (59 :: s) = [] := by simp [cut]
        simp [dropPrefix, hcut, hd]
      · have hcut : cut (c :: s) = c :: cut s := by simp [cut, hc]
        have := ih hp.2 s
        unfold dropPrefix at this ⊢
        rw [hcut]
        simp only [List.length_cons, List.take_succ_cons, List.map_cons, List.cons.injEq,
          List.drop_succ_cons]
        by_cases hd : lower c = d
        · simp only [hd, true_and]
          exact this
        · simp [hd]

/-- INTERNAL: nothing is left in front of a leading stop. -/
theorem cut_stop (s : CStr) : cut (59 :: s) = [] := by simp [cut]

/-- INTERNAL: any other byte stays in front. -/
theorem cut_cons (c : UInt8) (s : CStr) (h : c ≠ 59) : cut (c :: s) = c :: cut s := by
  simp [cut, h]

/-- INTERNAL: digits are read the same in front of the cut. -/
theorem readDigits_cut (isDig : UInt8 → Bool) (hp : isDig 59 = false) (s : CStr) :
    readDigits isDig (cut s) =
      (readDigits isDig s).map fun (ds, frac, rest) => (ds, frac, cut rest) := by
  obtain ⟨htake, hdrop⟩ := takeWhile_cut isDig hp s
  unfold readDigits
  rw [htake, hdrop]
  generalize s.takeWhile isDig = whole
  generalize s.dropWhile isDig = rest
  cases rest with
  | nil => cases whole <;> simp [cut]
  | cons c t =>
    by_cases hc : c = 59
    · subst hc
      rw [cut_stop]
      cases whole <;> simp [cut_stop]
    · obtain ⟨htake', hdrop'⟩ := takeWhile_cut isDig hp t
      rw [cut_cons c t hc]
      simp only [htake', hdrop']
      by_cases hpoint : c = 46
      · simp only [hpoint, if_true]
        split <;> simp
      · simp only [hpoint, if_false]
        split <;> simp [cut_cons c t hc]

/-- INTERNAL: so is an exponent. -/
theorem readExponent_cut (letter : UInt8) (hl : letter ≠ 59) (s : CStr) :
    readExponent letter (cut s) = readExponent letter s := by
  cases s with
  | nil => rfl
  | cons c s =>
    by_cases hc : c = 59
    · subst hc
      have hlower : lower 59 ≠ letter := Ne.symm hl
      simp [cut_stop, readExponent, hlower]
    · rw [cut_cons c s hc]
      unfold readExponent
      simp only [readSign_cut, (takeWhile_cut isDigit (by decide) _).1]

/-- INTERNAL: so is a number without its sign. -/
theorem readUnsigned_cut (neg : Bool) (s : CStr) :
    readUnsigned neg (cut s) = readUnsigned neg s := by
  have hhead : ∀ p : CStr, (59 : UInt8) ∉ p →
      dropPrefix p (cut s) = (dropPrefix p s).map cut := fun p hp => dropPrefix_cut p hp s
  have hhex : (dropPrefix (lit "0x") (cut s)).bind (readDigits fun c => (hexValue c).isSome) =
      ((dropPrefix (lit "0x") s).bind (readDigits fun c => (hexValue c).isSome)).map
        fun (ds, frac, rest) => (ds, frac, cut rest) := by
    rw [hhead (lit "0x") (by decide)]
    cases dropPrefix (lit "0x") s with
    | none => rfl
    | some rest => exact readDigits_cut _ (by decide) rest
  unfold readUnsigned
  rw [hhex, hhead (lit "inf") (by decide), hhead (lit "nan") (by decide),
    Option.isSome_map, Option.isSome_map, readDigits_cut isDigit (by decide)]
  cases (dropPrefix (lit "0x") s).bind (readDigits fun c => (hexValue c).isSome) with
  | some found => simp only [Option.map_some, readExponent_cut 112 (by decide)]
  | none =>
    cases readDigits isDigit s with
    | some found => simp only [Option.map_none, Option.map_some, readExponent_cut 101 (by decide)]
    | none => rfl

/-- INTERNAL: **a number is not read past a ';'.** -/
theorem atof_cut (s : CStr) : atof (cut s) = atof s := by
  unfold atof
  rw [(takeWhile_cut isSpace (by decide) s).2, readSign_cut]
  exact readUnsigned_cut _ _

/-- INTERNAL: a number ends at a stop. -/
theorem atof_append_stop (s rest : CStr) (h : (59 : UInt8) ∉ s) :
    atof (s ++ 59 :: rest) = atof s := by
  have hne : ∀ c ∈ s, decide (c ≠ 59) = true := fun c hc =>
    decide_eq_true fun h59 => h (h59 ▸ hc)
  have hcut : cut (s ++ 59 :: rest) = s :=
    (takeWhile_of_stop (fun c => c ≠ 59) s (59 :: rest) hne (by simp)).1
  rw [← atof_cut, hcut]

end Binary64

end OpenHes.Library
