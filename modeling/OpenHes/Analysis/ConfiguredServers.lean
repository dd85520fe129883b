import OpenHes.Library.SeparatedText
import OpenHes.Library.TrimmedText
import OpenHes.Model.SyncWorker

/-!
# The servers of the sync thread

`next_csv` goes over a list of servers from comma to comma, passes over blanks in its own way at
the front of a field and at its end, and takes a field without text for the end of the list when
a tab comes first in it. What it reads is told piece by piece, and which lists are read as they
were configured.
-/

set_option autoImplicit false

namespace OpenHes.Analysis

open OpenHes.Library OpenHes.Model

/-! ## The fields of a list -/

/-- A space or a tab. -/
def isBlank (c : UInt8) : Bool := c = 32 || c = 9

/-- A space, a tab or a comma. -/
def isBlankOrComma (c : UInt8) : Bool := isBlank c || c = 44

/-- The texts among some pieces, without the blanks around them. -/
def fieldTexts (ps : List CStr) : List CStr := (ps.map (trimmed isBlank)).filter (· ≠ [])

/-- **The fields of a configured list**: without the blanks around them, and without those that
have no text. -/
def configuredFields (list : CStr) : List CStr := fieldTexts (pieces 44 list)

/-- Is a tab the first thing in a field but for spaces? -/
def TabFirst (field : CStr) : Prop := (field.dropWhile fun c => c = 32).head? = some 9

instance (field : CStr) : Decidable (TabFirst field) := inferInstanceAs (Decidable (_ = _))

/-- The pieces that are read as they are: no text is longer than the buffer's, and a field in
which a tab comes first has no text, and none behind it has. -/
structure PiecesReadable (room : ℕ) (ps : List CStr) : Prop where
  short : ∀ field ∈ ps, (trimmed isBlank field).length ≤ room
  tabs : ∀ field ∈ ps, TabFirst field → trimmed isBlank field = []
  last : ps.Pairwise fun field later => TabFirst field → trimmed isBlank later = []

/-- **The lists that are read as configured**: nothing but blanks and commas lies beyond the
first 255 bytes, and the pieces of these are read as they are. -/
structure ServersReadable (list : CStr) : Prop where
  kept : ∀ c ∈ list.drop 255, isBlankOrComma c = true
  fields : PiecesReadable 127 (pieces 44 (list.take 255))

/-! ## What is read -/

/-- What `next_csv` makes of the pieces of a list, one after the other. -/
def readPieces (room : ℕ) : List CStr → List CStr
  | [] => []
  | piece :: more =>
    let text := piece.dropWhile fun c => c = 32
    if text = [] then readPieces room more
    else
      let out := (text.take room).rdropWhile isBlank
      if out = [] then [] else out :: readPieces room more

/-- INTERNAL: a field of spaces is skipped. -/
theorem nextCsv_spaces (cap : ℕ) (piece rest : CStr) (h : ∀ c ∈ piece, c = 32) :
    nextCsv cap (piece ++ 44 :: rest) = nextCsv cap rest := by
  have hdrop : ((piece ++ 44 :: rest).dropWhile fun c => c = 32 || c = 44) =
      rest.dropWhile fun c => c = 32 || c = 44 := by
    rw [List.dropWhile_append, List.dropWhile_eq_nil_iff.mpr fun c hc => by simp [h c hc],
      List.isEmpty_nil, if_pos rfl, List.dropWhile_cons_of_pos (by decide)]
  unfold nextCsv
  rw [hdrop]

/-- INTERNAL: **one call** on a piece that has more than spaces, at the front of a list. -/
theorem nextCsv_piece (cap : ℕ) (piece tail : CStr) (hcomma : (44 : UInt8) ∉ piece)
    (htail : ∀ c ∈ tail.head?, c = 44) (hne : (piece.dropWhile fun c => c = 32) ≠ []) :
    nextCsv cap (piece ++ tail) =
      if ((piece.dropWhile fun c => c = 32).take (cap - 1)).rdropWhile isBlank = [] then none
      else some (((piece.dropWhile fun c => c = 32).take (cap - 1)).rdropWhile isBlank,
        tail.drop 1) := by
  have hsame : (piece.dropWhile fun c => c = 32 || c = 44) = piece.dropWhile fun c => c = 32 := by
    clear hne
    induction piece with
    | nil => rfl
    | cons c piece ih =>
      rw [List.mem_cons, not_or] at hcomma
      have hc : ¬c = 44 := fun h => hcomma.1 h.symm
      by_cases hspace : c = 32
      · simp only [List.dropWhile_cons, hspace, decide_true, Bool.true_or, if_true]
        exact ih hcomma.2
      · simp only [List.dropWhile_cons, hspace, hc, decide_false, Bool.or_self,
          Bool.false_eq_true, if_false]
  have hdrop : ((piece ++ tail).dropWhile fun c => c = 32 || c = 44) =
      (piece.dropWhile fun c => c = 32) ++ tail := by
    rw [List.dropWhile_append, hsame, if_neg]
    rw [List.isEmpty_iff]
    exact hne
  have hnocomma : ∀ c ∈ piece.dropWhile fun c => c = 32, decide (c ≠ 44) = true := by
    intro c hc
    have hmem := (List.dropWhile_sublist _).mem hc
    exact decide_eq_true fun h => hcomma (h ▸ hmem)
  have hstop : ∀ c ∈ tail.head?, decide (c ≠ 44) = false := by
    intro c hc
    rw [htail c hc]
    decide
  generalize (piece.dropWhile fun c => c = 32) = text at hne hdrop hnocomma
  have htake := (takeWhile_of_stop _ text tail hnocomma hstop).1
  have hrest : (text ++ tail).drop (text.length + 1) = tail.drop 1 :=
    List.drop_length_add_append 1
  unfold nextCsv
  simp only [hdrop, htake, hrest]
  rw [if_neg (List.append_ne_nil_of_left_ne_nil hne tail)]
  rfl

/-- INTERNAL: the fields are the first that is read and those of the rest. -/
theorem csvFields_succ (cap fuel : ℕ) (list : CStr) :
    csvFields cap (fuel + 1) list =
      (nextCsv cap list).elim (some []) fun read => (csvFields cap fuel read.2).map (read.1 :: ·) := by
  rw [csvFields]
  cases nextCsv cap list with
  | none => rfl
  | some read => rfl

/-- INTERNAL: the pieces from one on that has more than spaces. -/
theorem readPieces_text (room : ℕ) (piece : CStr) (more : List CStr)
    (hne : (piece.dropWhile fun c => c = 32) ≠ []) :
    readPieces room (piece :: more) =
      if ((piece.dropWhile fun c => c = 32).take room).rdropWhile isBlank = [] then []
      else ((piece.dropWhile fun c => c = 32).take room).rdropWhile isBlank ::
        readPieces room more := if_neg hne

/-- INTERNAL: a piece of spaces is not read. -/
theorem readPieces_spaces (room : ℕ) (piece : CStr) (more : List CStr)
    (h : (piece.dropWhile fun c => c = 32) = []) :
    readPieces room (piece :: more) = readPieces room more := if_pos h

/-- INTERNAL: a turn of the loop on a piece that has more than spaces. -/
theorem csvFields_piece (cap fuel : ℕ) (piece tail : CStr) (more : List CStr)
    (hcomma : (44 : UInt8) ∉ piece) (htail : ∀ c ∈ tail.head?, c = 44)
    (hne : (piece.dropWhile fun c => c = 32) ≠ [])
    (hmore : csvFields cap fuel (tail.drop 1) = some (readPieces (cap - 1) more)) :
    csvFields cap (fuel + 1) (piece ++ tail) = some (readPieces (cap - 1) (piece :: more)) := by
  rw [csvFields_succ, nextCsv_piece cap piece tail hcomma htail hne,
    readPieces_text (cap - 1) piece more hne]
  by_cases hout : ((piece.dropWhile fun c => c = 32).take (cap - 1)).rdropWhile isBlank = []
  · rw [if_pos hout, if_pos hout, Option.elim_none]
  · rw [if_neg hout, if_neg hout, Option.elim_some, hmore, Option.map_some]

/-- INTERNAL: **the fields that the loop reads**: it ends, since each turn takes at least one
byte off the list. -/
theorem csvFields_eq (cap fuel : ℕ) (list : CStr) (hfuel : list.length < fuel) :
    csvFields cap fuel list = some (readPieces (cap - 1) (pieces 44 list)) := by
  obtain ⟨fuel, rfl⟩ : ∃ f, fuel = f + 1 := ⟨fuel - 1, by omega⟩
  induction list using pieces_induction 44 generalizing fuel with
  | nil => rfl
  | last piece hne hcomma =>
    rw [pieces_of_not_mem piece hne hcomma]
    by_cases hspaces : (piece.dropWhile fun c => c = 32) = []
    · have hread : nextCsv cap piece = none := by
        have hdrop : (piece.dropWhile fun c => c = 32 || c = 44) = [] := by
          rw [List.dropWhile_eq_nil_iff] at hspaces ⊢
          exact fun c hc => by rw [hspaces c hc, Bool.true_or]
        unfold nextCsv
        rw [hdrop]
        exact if_pos rfl
      rw [csvFields_succ, hread, readPieces_spaces _ _ _ hspaces]
      rfl
    · have hpos : 0 < piece.length := List.length_pos_of_ne_nil hne
      obtain ⟨fuel, rfl⟩ : ∃ f, fuel = f + 1 := ⟨fuel - 1, by omega⟩
      have hturn := csvFields_piece cap (fuel + 1) piece [] [] hcomma (fun c hc => by cases hc)
        hspaces rfl
      rwa [List.append_nil] at hturn
  | cons piece rest hcomma ih =>
    rw [pieces_append_sep piece rest hcomma]
    rw [List.length_append, List.length_cons] at hfuel
    by_cases hspaces : (piece.dropWhile fun c => c = 32) = []
    · have hall : ∀ c ∈ piece, c = 32 := fun c hc =>
        of_decide_eq_true (List.dropWhile_eq_nil_iff.mp hspaces c hc)
      rw [csvFields_succ, nextCsv_spaces cap piece rest hall, ← csvFields_succ,
        readPieces_spaces _ _ _ hspaces]
      exact ih fuel (by omega)
    · have hpos : 0 < piece.length := by
        apply List.length_pos_of_ne_nil
        rintro rfl
        exact hspaces rfl
      obtain ⟨fuel, rfl⟩ : ∃ f, fuel = f + 1 := ⟨fuel - 1, by omega⟩
      exact csvFields_piece cap (fuel + 1) piece (44 :: rest) (pieces 44 rest) hcomma
        (fun c hc => (Option.some.inj hc).symm) hspaces (ih fuel (by omega))

/-! ## When it is what was configured -/

/-- INTERNAL: a space is a blank. -/
theorem isBlank_of_space (c : UInt8) (h : decide (c = 32) = true) : isBlank c = true := by
  unfold isBlank
  rw [h, Bool.true_or]

/-- INTERNAL: spaces in front make no difference to a trimmed piece. -/
theorem trimmed_spaces (piece : CStr) :
    trimmed isBlank (piece.dropWhile fun c => c = 32) = trimmed isBlank piece :=
  trimmed_dropWhile isBlank _ isBlank_of_space piece

/-- INTERNAL: no pieces have no texts. -/
@[simp] theorem fieldTexts_nil : fieldTexts [] = [] := rfl

/-- INTERNAL: a blank piece has no text. -/
theorem fieldTexts_blank (piece : CStr) (more : List CStr) (h : trimmed isBlank piece = []) :
    fieldTexts (piece :: more) = fieldTexts more := by
  simp [fieldTexts, h]

/-- INTERNAL: any other has its trimmed text. -/
theorem fieldTexts_text (piece : CStr) (more : List CStr) (h : trimmed isBlank piece ≠ []) :
    fieldTexts (piece :: more) = trimmed isBlank piece :: fieldTexts more := by
  simp [fieldTexts, h]

/-- INTERNAL: there are no texts if every piece is blank. -/
theorem fieldTexts_eq_nil (ps : List CStr) :
    fieldTexts ps = [] ↔ ∀ field ∈ ps, trimmed isBlank field = [] := by
  simp [fieldTexts, List.filter_eq_nil_iff]

/-- INTERNAL: the conditions on a list of pieces, from its first one. -/
theorem piecesReadable_cons (room : ℕ) (piece : CStr) (more : List CStr) :
    PiecesReadable room (piece :: more) ↔
      (trimmed isBlank piece).length ≤ room ∧
        (TabFirst piece → trimmed isBlank piece = [] ∧ fieldTexts more = []) ∧
        PiecesReadable room more := by
  rw [fieldTexts_eq_nil]
  constructor
  · rintro ⟨hshort, htabs, hlast⟩
    rw [List.forall_mem_cons] at hshort htabs
    rw [List.pairwise_cons] at hlast
    exact ⟨hshort.1, fun htab => ⟨htabs.1 htab, fun later hmem => hlast.1 later hmem htab⟩,
      hshort.2, htabs.2, hlast.2⟩
  · rintro ⟨hshort, htab, hmore⟩
    exact ⟨List.forall_mem_cons.mpr ⟨hshort, hmore.short⟩,
      List.forall_mem_cons.mpr ⟨fun h => (htab h).1, hmore.tabs⟩,
      List.pairwise_cons.mpr ⟨fun later hmem h => (htab h).2 later hmem, hmore.last⟩⟩

/-- INTERNAL: pieces without text are read as they are. -/
theorem piecesReadable_of_blank (room : ℕ) (ps : List CStr) (h : fieldTexts ps = []) :
    PiecesReadable room ps := by
  rw [fieldTexts_eq_nil] at h
  refine ⟨fun field hmem => by simp [h field hmem], fun field hmem _ => h field hmem, ?_⟩
  exact List.pairwise_of_forall_mem_list fun _ _ later hmem _ => h later hmem

/-- INTERNAL: a text starts with no blank. -/
theorem head_of_mem_fieldTexts (ps : List CStr) (field : CStr) (h : field ∈ fieldTexts ps) (c : UInt8)
    (hc : field.head? = some c) : isBlank c = false := by
  obtain ⟨piece, -, rfl⟩ := List.mem_map.mp (List.mem_of_mem_filter h)
  exact head_trimmed isBlank piece c hc

/-- INTERNAL: **a piece in which a tab comes first** is read as configured where it ends the
loop and nothing is left; a text that the loop makes of it would begin with the tab. -/
theorem readPieces_tab (room : ℕ) (hroom : 0 < room) (piece text : CStr) (more : List CStr)
    (htext : (piece.dropWhile fun c => c = 32) = 9 :: text) :
    readPieces room (piece :: more) = fieldTexts (piece :: more) ↔
      trimmed isBlank piece = [] ∧ fieldTexts more = [] := by
  have htrim : trimmed isBlank (9 :: text) = trimmed isBlank piece := by
    rw [← htext]
    exact trimmed_spaces piece
  have hboth : trimmed isBlank piece = [] ∧ fieldTexts more = [] ↔
      fieldTexts (piece :: more) = [] := by
    rw [fieldTexts_eq_nil, fieldTexts_eq_nil, List.forall_mem_cons]
  rw [readPieces_text room piece more (by rw [htext]; exact List.cons_ne_nil _ _), htext, hboth]
  by_cases hout : ((9 :: text).take room).rdropWhile isBlank = []
  · rw [if_pos hout]
    exact eq_comm
  · rw [if_neg hout]
    constructor
    · intro h
      obtain ⟨room, rfl⟩ : ∃ n, room = n + 1 := ⟨room - 1, by omega⟩
      have hhead : (((9 :: text).take (room + 1)).rdropWhile isBlank).head? = some 9 := by
        obtain ⟨rest, hrest⟩ := List.rdropWhile_prefix isBlank ((9 :: text).take (room + 1))
        rw [← List.head?_append_of_ne_nil _ hout, hrest]
        rfl
      have hblank := head_of_mem_fieldTexts (piece :: more) _ (h ▸ List.mem_cons_self) 9 hhead
      exact absurd hblank (by decide)
    · intro h
      have hblank := (hboth.mpr h).1
      rw [← htrim, trimmed_eq_nil] at hblank
      refine absurd ?_ hout
      rw [List.rdropWhile_eq_nil_iff]
      exact fun c hc => hblank c (List.mem_of_mem_take hc)

/-- INTERNAL: **a piece that starts with its text** is read as configured where the text fits. -/
theorem readPieces_letter (room : ℕ) (hroom : 0 < room) (piece text : CStr) (c : UInt8)
    (more : List CStr) (htext : (piece.dropWhile fun c => c = 32) = c :: text)
    (hc : isBlank c = false) :
    readPieces room (piece :: more) = fieldTexts (piece :: more) ↔
      (trimmed isBlank piece).length ≤ room ∧ readPieces room more = fieldTexts more := by
  have htrim : trimmed isBlank piece = (c :: text).rdropWhile isBlank := by
    rw [← trimmed_spaces, htext, trimmed_cons isBlank c text hc]
  have hne : (c :: text).rdropWhile isBlank ≠ [] := by
    rw [ne_eq, List.rdropWhile_eq_nil_iff]
    intro h
    have := h c List.mem_cons_self
    exact absurd hc (by rw [this]; decide)
  have hout : ((c :: text).take room).rdropWhile isBlank ≠ [] := by
    obtain ⟨room, rfl⟩ : ∃ n, room = n + 1 := ⟨room - 1, by omega⟩
    rw [ne_eq, List.rdropWhile_eq_nil_iff]
    intro h
    have := h c List.mem_cons_self
    exact absurd hc (by rw [this]; decide)
  rw [readPieces_text room piece more (by rw [htext]; exact List.cons_ne_nil _ _), htext,
    if_neg hout, fieldTexts_text piece more (htrim ▸ hne), htrim, List.cons.injEq,
    rdropWhile_take]

/-- INTERNAL: **the pieces are read as configured** exactly under the conditions. A piece is
passed over, starts with a tab, or starts with its text. -/
theorem readPieces_eq_iff (room : ℕ) (hroom : 0 < room) (ps : List CStr) :
    readPieces room ps = fieldTexts ps ↔ PiecesReadable room ps := by
  induction ps with
  | nil => exact ⟨fun _ => piecesReadable_of_blank room [] rfl, fun _ => rfl⟩
  | cons piece more ih =>
    rw [piecesReadable_cons]
    cases htext : piece.dropWhile fun c => c = 32 with
    | nil =>
      have hblank : trimmed isBlank piece = [] := by rw [← trimmed_spaces, htext]; rfl
      have hnotab : ¬TabFirst piece := by
        unfold TabFirst
        rw [htext, List.head?_nil]
        exact (Option.some_ne_none 9).symm
      rw [readPieces_spaces room piece more htext, fieldTexts_blank piece more hblank, hblank, ih]
      exact ⟨fun h => ⟨Nat.zero_le _, fun htab => absurd htab hnotab, h⟩, fun h => h.2.2⟩
    | cons c text =>
      by_cases htab : c = 9
      · rw [htab] at htext
        have htabFirst : TabFirst piece := by
          unfold TabFirst
          rw [htext]
          rfl
        rw [readPieces_tab room hroom piece text more htext]
        constructor
        · intro h
          exact ⟨by rw [h.1]; exact Nat.zero_le _, fun _ => h,
            piecesReadable_of_blank room more h.2⟩
        · exact fun h => h.2.1 htabFirst
      · have hspace : ¬c = 32 := by
          have := List.head?_dropWhile_not (fun c : UInt8 => decide (c = 32)) piece
          rw [htext] at this
          simpa using this
        have hletter : isBlank c = false := by
          unfold isBlank
          rw [decide_eq_false hspace, decide_eq_false htab, Bool.or_self]
        have hnotab : ¬TabFirst piece := by
          unfold TabFirst
          rw [htext, List.head?_cons, Option.some.injEq]
          exact htab
        rw [readPieces_letter room hroom piece text c more htext hletter, ih]
        exact ⟨fun h => ⟨h.1, fun htab => absurd htab hnotab, h.2⟩, fun h => ⟨h.1, h.2.2⟩⟩

/-! ## What the buffer holds -/

/-- INTERNAL: the fields of a list are that of its first piece and those of the rest. -/
theorem configuredFields_piece (piece rest : CStr) (h : (44 : UInt8) ∉ piece) :
    configuredFields (piece ++ 44 :: rest) = fieldTexts [piece] ++ configuredFields rest := by
  unfold configuredFields fieldTexts
  rw [pieces_append_sep piece rest h, ← List.filter_append, ← List.map_append]
  rfl

/-- INTERNAL: the last piece has its own. -/
theorem configuredFields_last (piece : CStr) (h : (44 : UInt8) ∉ piece) :
    configuredFields piece = fieldTexts [piece] := by
  by_cases hnil : piece = []
  · rw [hnil]
    rfl
  · unfold configuredFields
    rw [pieces_of_not_mem piece hnil h]

/-- INTERNAL: a blank or a comma behind a list adds no field. -/
theorem configuredFields_concat (list : CStr) (c : UInt8) (hc : isBlankOrComma c = true) :
    configuredFields (list ++ [c]) = configuredFields list := by
  have hlast : ∀ piece : CStr, (44 : UInt8) ∉ piece →
      configuredFields (piece ++ [c]) = configuredFields piece := by
    intro piece hcomma
    by_cases hsep : c = 44
    · rw [hsep, configuredFields_piece piece [] hcomma, configuredFields_last piece hcomma]
      exact List.append_nil _
    · have hblank : isBlank c = true := by
        unfold isBlankOrComma at hc
        rwa [decide_eq_false hsep, Bool.or_false] at hc
      have hnot : (44 : UInt8) ∉ piece ++ [c] := by
        rw [List.mem_append, List.mem_singleton, not_or]
        exact ⟨hcomma, fun h => hsep h.symm⟩
      rw [configuredFields_last _ hnot, configuredFields_last _ hcomma]
      unfold fieldTexts
      rw [List.map_singleton, List.map_singleton, trimmed_append_blank isBlank piece c hblank]
  induction list using pieces_induction 44 with
  | nil => exact hlast [] List.not_mem_nil
  | last piece _ hcomma => exact hlast piece hcomma
  | cons piece rest hcomma ih =>
    rw [List.append_assoc, List.cons_append, configuredFields_piece _ _ hcomma,
      configuredFields_piece _ _ hcomma, ih]

/-- INTERNAL: blanks and commas behind a list add no field. -/
theorem configuredFields_append (list tail : CStr) (h : ∀ c ∈ tail, isBlankOrComma c = true) :
    configuredFields (list ++ tail) = configuredFields list := by
  induction tail using List.reverseRecOn with
  | nil => rw [List.append_nil]
  | append_singleton tail c ih =>
    rw [← List.append_assoc, configuredFields_concat _ c (h c (by simp)),
      ih fun d hd => h d (by simp [hd])]

/-- The letters of a text: what is neither a blank nor a comma. -/
def letters (text : CStr) : ℕ := text.countP fun c => !isBlankOrComma c

/-- INTERNAL: letters are counted piece by piece. -/
theorem letters_append (text rest : CStr) : letters (text ++ rest) = letters text + letters rest :=
  List.countP_append

/-- INTERNAL: blanks are no letters. -/
theorem letters_of_blank (text : CStr) (h : ∀ c ∈ text, isBlank c = true) : letters text = 0 := by
  unfold letters
  rw [List.countP_eq_zero]
  intro c hc
  simp [isBlankOrComma, h c hc]

/-- INTERNAL: less text has no more letters. -/
theorem letters_le_of_sublist (text rest : CStr) (h : text.Sublist rest) :
    letters text ≤ letters rest := h.countP_le

/-- INTERNAL: **no letter is lost** in the fields of some pieces. -/
theorem letters_fieldTexts_singleton (piece : CStr) :
    letters (fieldTexts [piece]).flatten = letters piece := by
  have hfront : ∀ c ∈ piece.takeWhile isBlank, isBlank c = true :=
    fun c hc => List.mem_takeWhile_imp hc
  have hend : ∀ c ∈ (piece.dropWhile isBlank).rtakeWhile isBlank, isBlank c = true :=
    fun c hc => List.mem_rtakeWhile_imp hc
  have htrim : letters (trimmed isBlank piece) = letters piece := by
    calc letters (trimmed isBlank piece)
        = letters (trimmed isBlank piece) +
            letters ((piece.dropWhile isBlank).rtakeWhile isBlank) := by
          rw [letters_of_blank _ hend, Nat.add_zero]
      _ = letters (piece.dropWhile isBlank) := by
          unfold trimmed
          rw [← letters_append, List.rdropWhile_append_rtakeWhile]
      _ = letters (piece.takeWhile isBlank) + letters (piece.dropWhile isBlank) := by
          rw [letters_of_blank _ hfront, Nat.zero_add]
      _ = letters piece := by rw [← letters_append, List.takeWhile_append_dropWhile]
  by_cases hblank : trimmed isBlank piece = []
  · rw [fieldTexts_blank piece [] hblank, ← htrim, hblank]
    rfl
  · rw [fieldTexts_text piece [] hblank, fieldTexts_nil, List.flatten_singleton, htrim]

/-- INTERNAL: the texts are taken piece by piece. -/
theorem fieldTexts_cons (piece : CStr) (more : List CStr) :
    fieldTexts (piece :: more) = fieldTexts [piece] ++ fieldTexts more := by
  by_cases h : trimmed isBlank piece = []
  · rw [fieldTexts_blank piece more h, fieldTexts_blank piece [] h, fieldTexts_nil,
      List.nil_append]
  · rw [fieldTexts_text piece more h, fieldTexts_text piece [] h, fieldTexts_nil]
    rfl

/-- INTERNAL: the fields hold all letters of the list. -/
theorem letters_configuredFields (list : CStr) :
    letters (configuredFields list).flatten = letters list := by
  induction list using pieces_induction 44 with
  | nil => rfl
  | last piece _ hcomma => rw [configuredFields_last piece hcomma, letters_fieldTexts_singleton]
  | cons piece rest hcomma ih =>
    have hcount : letters (piece ++ 44 :: rest) = letters piece + letters rest := by
      rw [letters_append]
      exact congrArg _ (List.countP_cons_of_neg (by decide))
    rw [configuredFields_piece piece rest hcomma, List.flatten_append, letters_append, hcount,
      letters_fieldTexts_singleton, ih]

/-- INTERNAL: the loop reads no letter that is not there. -/
theorem letters_readPieces (room : ℕ) (ps : List CStr) :
    letters (readPieces room ps).flatten ≤ letters (fieldTexts ps).flatten := by
  induction ps with
  | nil => exact Nat.le_refl _
  | cons piece more ih =>
    rw [fieldTexts_cons, List.flatten_append, letters_append, letters_fieldTexts_singleton]
    by_cases hspaces : (piece.dropWhile fun c => c = 32) = []
    · rw [readPieces_spaces room piece more hspaces]
      omega
    · rw [readPieces_text room piece more hspaces]
      by_cases hout : ((piece.dropWhile fun c => c = 32).take room).rdropWhile isBlank = []
      · rw [if_pos hout]
        exact Nat.zero_le _
      · have hsub : (((piece.dropWhile fun c => c = 32).take room).rdropWhile isBlank).Sublist
            piece :=
          (List.rdropWhile_prefix isBlank _).sublist.trans
            ((List.take_sublist room _).trans (List.dropWhile_sublist _))
        have hless := letters_le_of_sublist _ _ hsub
        rw [if_neg hout, List.flatten_cons, letters_append]
        omega

/-! ## The servers that are asked -/

/-- **The servers are those of the configuration**: the loop of `next_csv` over the stored list
comes to its end and has read the configured fields, and `refresh_time` asks some of the first
of them, whatever the servers answer. -/
def AsksAsConfigured (cfg : TimeSyncSetup) : Prop :=
  let servers := (timeSyncStartWorker cfg).servers
  csvFields 128 (servers.length + 1) servers = some (configuredFields (configuredServers cfg)) ∧
    ∀ query, ∃ asked, askedServers query 0 (servers.length + 1) servers = some asked ∧
      asked <+: configuredFields (configuredServers cfg)

/-- INTERNAL: `refresh_time` goes over the same fields and stops at an answer. -/
theorem askedServers_prefix (query : ℕ → CStr → Option SntpResult) (calls fuel : ℕ) (list : CStr)
    (fields : List CStr) (h : csvFields 128 fuel list = some fields) :
    ∃ asked, askedServers query calls fuel list = some asked ∧ asked <+: fields := by
  induction fuel generalizing calls list fields with
  | zero => cases h
  | succ fuel ih =>
    rw [csvFields_succ] at h
    rw [askedServers]
    cases hread : nextCsv 128 list with
    | none => exact ⟨[], rfl, List.nil_prefix⟩
    | some read =>
      rw [hread, Option.elim_some, Option.map_eq_some_iff] at h
      obtain ⟨more, hmore, rfl⟩ := h
      obtain ⟨asked, hasked, hprefix⟩ := ih (calls + 1) read.2 more hmore
      cases hanswer : query calls read.1 with
      | some r => exact ⟨[read.1], by simp [hanswer], by simp⟩
      | none =>
        refine ⟨read.1 :: asked, ?_, List.prefix_cons_inj read.1 |>.mpr hprefix⟩
        simp [hanswer, hasked]

/-- **The servers that are asked.** For every configuration the servers of `refresh_time` are
those of its list, none shortened, split or lost, exactly when nothing but blanks and commas lies
beyond the first 255 characters of the list, no name has more than 127, and a field that begins
with a tab has no name and is behind all those that have one.
SRCLINE: time_sync.c:92-155 -/
theorem servers_as_configured (cfg : TimeSyncSetup) :
    AsksAsConfigured cfg ↔ ServersReadable (configuredServers cfg) := by
  generalize hlist : configuredServers cfg = list
  have hservers : (timeSyncStartWorker cfg).servers = list.take 255 := by
    rw [← hlist]
    rfl
  have hread := csvFields_eq 128 ((list.take 255).length + 1) (list.take 255) (Nat.lt_succ_self _)
  have hfields := readPieces_eq_iff 127 (by decide) (pieces 44 (list.take 255))
  have hsplit : list.take 255 ++ list.drop 255 = list := List.take_append_drop 255 list
  unfold AsksAsConfigured
  rw [hlist, hservers]
  dsimp only
  rw [hread, Option.some.injEq]
  constructor
  · rintro ⟨hconfigured, -⟩
    -- Letters beyond the buffer would be missing from what is read.
    have hkept : ∀ c ∈ list.drop 255, isBlankOrComma c = true := by
      have hcut := letters_readPieces 127 (pieces 44 (list.take 255))
      have hall := letters_configuredFields list
      have hstored : letters (fieldTexts (pieces 44 (list.take 255))).flatten =
          letters (list.take 255) := letters_configuredFields (list.take 255)
      have hsum := letters_append (list.take 255) (list.drop 255)
      rw [hsplit] at hsum
      rw [hconfigured] at hcut
      have hnone : letters (list.drop 255) = 0 := by omega
      intro c hc
      simpa using List.countP_eq_zero.mp hnone c hc
    refine ⟨hkept, hfields.mp ?_⟩
    have hsame := configuredFields_append (list.take 255) (list.drop 255) hkept
    rw [hsplit] at hsame
    exact hconfigured.trans hsame
  · rintro ⟨hkept, hreadable⟩
    have hsame := configuredFields_append (list.take 255) (list.drop 255) hkept
    rw [hsplit] at hsame
    have hconfigured : readPieces (128 - 1) (pieces 44 (list.take 255)) = configuredFields list :=
      (hfields.mpr hreadable).trans hsame.symm
    refine ⟨hconfigured, fun query => ?_⟩
    exact askedServers_prefix query 0 _ _ _ (hread.trans (congrArg some hconfigured))

/-- A list with a field that has only a tab. -/
def tabbedServers : TimeSyncSetup := { ntpServers := some (lit "a.example,\t,b.example") }

/-- A field of a tab ends the list, and the server behind it is not asked. -/
theorem servers_lost_behind_a_tab :
    csvFields 128 ((timeSyncStartWorker tabbedServers).servers.length + 1)
        (timeSyncStartWorker tabbedServers).servers = some [lit "a.example"] ∧
      configuredFields (configuredServers tabbedServers) = [lit "a.example", lit "b.example"] ∧
      ¬AsksAsConfigured tabbedServers := by
  have hread : csvFields 128 ((timeSyncStartWorker tabbedServers).servers.length + 1)
      (timeSyncStartWorker tabbedServers).servers = some [lit "a.example"] := by decide +kernel
  have hconfigured : configuredFields (configuredServers tabbedServers) =
      [lit "a.example", lit "b.example"] := by decide +kernel
  refine ⟨hread, hconfigured, fun h => ?_⟩
  have hsame := h.1
  rw [hread, hconfigured] at hsame
  exact absurd hsame (by decide +kernel)

end OpenHes.Analysis
