import OpenHes.Library.SeparatedText
import OpenHes.Model.Dispatch
import Mathlib.Data.List.Induction

/-!
# Which data a 'da' list asks for, and which records an answer keeps

The scan of `requested` finds the items between the commas of the list, without the blanks
around them, and an empty one when the list ends in a comma or a blank. `trim_payload` keeps
the records that have such names. Here stands when that is what was asked for.
-/

set_option autoImplicit false

namespace OpenHes.Analysis

open OpenHes.Library OpenHes.Model

/-! ## The items of a list -/

/-- A text without the blanks around it. -/
def trimBlanks (text : CStr) : CStr :=
  (text.dropWhile fun c => c = 32).rdropWhile fun c => c = 32

/-- What stands between the commas of a text, without the blanks around it. -/
def commaItems (text : CStr) : List CStr := (text.splitOn 44).map trimBlanks

/-- The list up to the first '&'. -/
def listPart (list : CStr) : CStr := list.takeWhile fun c => c ≠ 38

/-- The items of a 'da' list. -/
def listItems (list : CStr) : List CStr := commaItems (listPart list)

/-- Does the list end in a comma or a blank? -/
def EndsInSeparator (list : CStr) : Prop := ∃ c ∈ (listPart list).getLast?, c = 44 ∨ c = 32

instance (list : CStr) : Decidable (EndsInSeparator list) :=
  inferInstanceAs (Decidable (∃ c ∈ (listPart list).getLast?, c = 44 ∨ c = 32))

/-- INTERNAL: a blank in front is trimmed. -/
theorem trimBlanks_cons (text : CStr) : trimBlanks (32 :: text) = trimBlanks text := by
  simp [trimBlanks]

/-- INTERNAL: a comma ends an item. -/
theorem commaItems_comma (text : CStr) : commaItems (44 :: text) = [] :: commaItems text := by
  have hsplit : (44 :: text).splitOn (44 : UInt8) = [] :: text.splitOn 44 :=
    List.splitOn_append_cons_self [] text
  unfold commaItems
  rw [hsplit, List.map_cons]
  rfl

/-- INTERNAL: a blank in front belongs to no item. -/
theorem commaItems_blank (text : CStr) : commaItems (32 :: text) = commaItems text := by
  unfold commaItems
  rw [List.splitOn_cons_eq_if_modifyHead, if_neg (by decide)]
  obtain ⟨first, more, hfirst⟩ := List.exists_cons_of_ne_nil (List.splitOn_ne_nil 44 text)
  rw [hfirst, List.modifyHead_cons, List.map_cons, List.map_cons, trimBlanks_cons]

/-- INTERNAL: separators in front of a list give it no item but empty ones. -/
theorem mem_commaItems_separators (seps text name : CStr) (hname : name ≠ [])
    (h : ∀ c ∈ seps, c = 44 ∨ c = 32) :
    name ∈ commaItems (seps ++ text) ↔ name ∈ commaItems text := by
  induction seps with
  | nil => rfl
  | cons c seps ih =>
    have hrest := ih fun d hd => h d (by simp [hd])
    rcases h c (by simp) with rfl | rfl
    · rw [List.cons_append, commaItems_comma, List.mem_cons, hrest, or_iff_right hname]
    · rw [List.cons_append, commaItems_blank, hrest]

/-- What the scan takes for an item: no separator at its ends, no comma and no '&' in it. -/
structure IsItem (token : CStr) : Prop where
  head : ∀ c ∈ token.head?, c ≠ 32
  last : (token.rdropWhile fun c => c = 32) = token
  inside : ∀ c ∈ token, c ≠ 44 ∧ c ≠ 38

/-- INTERNAL: blanks behind an item are trimmed. -/
theorem IsItem.trimBlanks_append {token : CStr} (h : IsItem token) (blanks : CStr)
    (hblanks : ∀ c ∈ blanks, c = 32) : trimBlanks (token ++ blanks) = token := by
  have hright : ((token ++ blanks).rdropWhile fun c => c = 32) = token := by
    induction blanks using List.reverseRecOn with
    | nil => rw [List.append_nil, h.last]
    | append_singleton blanks c ih =>
      have hc : c = 32 := hblanks c (by simp)
      rw [← List.append_assoc, List.rdropWhile_concat_pos _ _ _ (by simp [hc])]
      exact ih fun d hd => hblanks d (by simp [hd])
  unfold trimBlanks
  cases token with
  | nil =>
    have hnil : ([] ++ blanks).dropWhile (fun c => decide (c = 32)) = [] := by
      rw [List.nil_append, List.dropWhile_eq_nil_iff]
      intro c hc
      simp [hblanks c hc]
    rw [hnil]
    rfl
  | cons c token =>
    have hc : c ≠ 32 := h.head c rfl
    have hleft : (c :: token ++ blanks).dropWhile (fun c => decide (c = 32)) =
        c :: token ++ blanks := by simp [hc]
    rw [hleft]
    exact hright

/-- INTERNAL: an item with blanks behind it holds no comma. -/
theorem IsItem.not_mem_comma {token : CStr} (h : IsItem token) (blanks : CStr)
    (hblanks : ∀ c ∈ blanks, c = 32) : (44 : UInt8) ∉ token ++ blanks := by
  rw [List.mem_append]
  rintro (hmem | hmem)
  · exact (h.inside 44 hmem).1 rfl
  · exact absurd (hblanks 44 hmem) (by decide)

/-- INTERNAL: **the first item** of a list, with the blanks behind it. -/
theorem IsItem.commaItems_append {token : CStr} (h : IsItem token) (blanks rest : CStr)
    (hblanks : ∀ c ∈ blanks, c = 32) (hrest : rest = [] ∨ rest.head? = some 44) (name : CStr)
    (hname : name ≠ []) :
    name ∈ commaItems (token ++ (blanks ++ rest)) ↔
      name = token ∨ name ∈ commaItems (blanks ++ rest) := by
  have hnot := h.not_mem_comma blanks hblanks
  have htrim := h.trimBlanks_append blanks hblanks
  have hseps : ∀ c ∈ blanks, c = 44 ∨ c = 32 := fun c hc => Or.inr (hblanks c hc)
  rw [mem_commaItems_separators blanks rest name hname hseps, ← List.append_assoc]
  rcases hrest with rfl | hhead
  · rw [List.append_nil]
    unfold commaItems
    rw [List.splitOn_eq_singleton hnot, List.map_singleton, htrim]
    simp [hname, trimBlanks]
  · obtain ⟨rest, rfl⟩ : ∃ t, rest = 44 :: t := by
      cases rest with
      | nil => cases hhead
      | cons c t => exact ⟨t, by rw [Option.some.inj hhead]⟩
    rw [commaItems_comma]
    unfold commaItems
    rw [List.splitOn_append_cons_self_of_not_mem hnot, List.map_cons, htrim]
    simp [hname]

/-! ## The scan -/

/-- INTERNAL: a front without an ampersand belongs to the list. -/
theorem listPart_append (front rest : CStr) (h : ∀ c ∈ front, c ≠ 38) :
    listPart (front ++ rest) = front ++ listPart rest := by
  unfold listPart
  rw [List.takeWhile_append_of_pos]
  intro c hc
  simp [h c hc]

/-- INTERNAL: the list ends at its end, or at an ampersand. -/
theorem listPart_stop (list : CStr) (h : list = [] ∨ list.head? = some 38) :
    listPart list = [] := by
  cases list with
  | nil => rfl
  | cons c list =>
    have hc : c = 38 := by simpa using h
    simp [listPart, hc]

/-- INTERNAL: there the scan finds nothing more. -/
theorem requestedScan_stop (name list : CStr) (fuel : ℕ)
    (h : list = [] ∨ list.head? = some 38) : requestedScan name fuel list = false := by
  cases fuel with
  | zero => rfl
  | succ fuel =>
    rw [requestedScan, if_pos]
    simpa using h

/-- What one turn of the scan finds in a list: separators, an item, and the rest. -/
structure ScanTurn (list seps token rest : CStr) : Prop where
  split : list = seps ++ (token ++ rest)
  separators : ∀ c ∈ seps, c = 44 ∨ c = 32
  item : IsItem token
  behind : ∃ blanks more, rest = blanks ++ more ∧ (∀ c ∈ blanks, c = 32) ∧
    (more = [] ∨ more.head? = some 44 ∨ more.head? = some 38)
  stop : token = [] → seps ≠ [] ∧ (rest = [] ∨ rest.head? = some 38)

/-- INTERNAL: what follows the separators starts with none. -/
theorem head_dropWhile_separators (list : CStr) :
    ∀ c ∈ (list.dropWhile fun c => c = 44 || c = 32).head?, c ≠ 44 ∧ c ≠ 32 := by
  intro c hc
  have hnot := List.head?_dropWhile_not (fun c => c = 44 || c = 32) list
  rw [hc] at hnot
  simpa using hnot

/-- INTERNAL: what follows a token is the end, or one of the two bytes that end it. -/
theorem head_dropWhile_inside (q : CStr) :
    (q.dropWhile fun c => c ≠ 44 && c ≠ 38) = [] ∨
      (q.dropWhile fun c => c ≠ 44 && c ≠ 38).head? = some 44 ∨
        (q.dropWhile fun c => c ≠ 44 && c ≠ 38).head? = some 38 := by
  have hnot := List.head?_dropWhile_not (fun c => c ≠ 44 && c ≠ 38) q
  cases hmore : q.dropWhile fun c => c ≠ 44 && c ≠ 38 with
  | nil => exact Or.inl rfl
  | cons c more =>
    rw [hmore] at hnot
    right
    simp only [List.head?_cons, Option.some.injEq]
    simp only [List.head?_cons, ne_eq, decide_not, Bool.and_eq_false_imp, Bool.not_eq_true',
      decide_eq_false_iff_not, Bool.not_eq_false', decide_eq_true_eq] at hnot
    by_cases h44 : c = 44
    · exact Or.inl h44
    · exact Or.inr (hnot h44)

/-- INTERNAL: **an item**, the blanks behind it, and what stops it, in a text that begins with no
separator. -/
theorem item_split (q : CStr) (hq : ∀ c ∈ q.head?, c ≠ 44 ∧ c ≠ 32) :
    ∃ token blanks more, (q.takeWhile fun c => c ≠ 44 && c ≠ 38).rdropWhile (fun c => c = 32) =
        token ∧ q = token ++ (blanks ++ more) ∧ IsItem token ∧ (∀ c ∈ blanks, c = 32) ∧
      (more = [] ∨ more.head? = some 44 ∨ more.head? = some 38) ∧
      (token = [] → blanks ++ more = [] ∨ (blanks ++ more).head? = some 38) := by
  have hmore := head_dropWhile_inside q
  have hword : ∀ c ∈ q.takeWhile fun c => c ≠ 44 && c ≠ 38, c ≠ 44 ∧ c ≠ 38 := by
    intro c hc
    simpa using List.mem_takeWhile_imp hc
  have hsplit := (List.takeWhile_append_dropWhile (p := fun c => c ≠ 44 && c ≠ 38) (l := q)).symm
  generalize q.takeWhile (fun c => c ≠ 44 && c ≠ 38) = word at hword hsplit
  generalize q.dropWhile (fun c => c ≠ 44 && c ≠ 38) = more at hmore hsplit
  have hparts := (List.rdropWhile_append_rtakeWhile (p := fun c : UInt8 => c = 32) (l := word)).symm
  have hblanks : ∀ c ∈ word.rtakeWhile fun c => c = 32, c = 32 := by
    intro c hc
    simpa using List.mem_rtakeWhile_imp hc
  have hsublist := List.rdropWhile_prefix (fun c : UInt8 => c = 32) word
  have hlast := List.rdropWhile_idempotent (fun c : UInt8 => c = 32) word
  generalize word.rtakeWhile (fun c => c = 32) = blanks at hparts hblanks
  generalize word.rdropWhile (fun c => c = 32) = token at hparts hsublist hlast
  have hwhole : q = token ++ (blanks ++ more) := by
    rw [← List.append_assoc, ← hparts]
    exact hsplit
  refine ⟨token, blanks, more, rfl, hwhole, ?_, hblanks, hmore, fun hnil => ?_⟩
  · refine ⟨fun c hc => ?_, hlast, fun c hc => hword c (hsublist.subset hc)⟩
    apply (hq c _).2
    rw [hwhole, List.head?_append, hc]
    rfl
  · rw [hnil, List.nil_append] at hwhole
    have hno : blanks = [] := by
      cases blanks with
      | nil => rfl
      | cons c blanks =>
        have hc : c ∈ q.head? := by rw [hwhole]; rfl
        exact absurd (hblanks c List.mem_cons_self) (hq c hc).2
    rw [hno, List.nil_append] at hwhole ⊢
    rcases hmore with hnone | h44 | h38
    · exact Or.inl hnone
    · exact absurd rfl (hq 44 (hwhole ▸ h44)).1
    · exact Or.inr h38

/-- INTERNAL: **one turn of the scan.** -/
theorem requestedScan_turn (list : CStr) (hlist : ¬(list = [] ∨ list.head? = some 38)) :
    ∃ seps token rest, ScanTurn list seps token rest ∧ ∀ name fuel,
      requestedScan name (fuel + 1) list =
        (decide (token = name) || requestedScan name fuel rest) := by
  have hlistSplit := List.takeWhile_append_dropWhile (p := fun c => c = 44 || c = 32) (l := list)
  obtain ⟨token, blanks, more, htoken, hsplit, hitem, hblanks, hmore, hend⟩ :=
    item_split _ (head_dropWhile_separators list)
  refine ⟨list.takeWhile fun c => c = 44 || c = 32, token, blanks ++ more, ?_, ?_⟩
  · constructor
    · rw [← hsplit, hlistSplit]
    · intro c hc
      simpa using List.mem_takeWhile_imp hc
    · exact hitem
    · exact ⟨blanks, more, rfl, hblanks, hmore⟩
    · refine fun hnil => ⟨fun hseps => hlist ?_, hend hnil⟩
      rw [← hlistSplit, hseps, List.nil_append, hsplit, hnil]
      exact hend hnil
  · intro name fuel
    rw [requestedScan, if_neg (by simpa using hlist)]
    simp only [htoken]
    rw [hsplit, List.drop_left]
    by_cases hname : token = name <;> simp [hname]

/-- INTERNAL: a turn cuts the list into its separators, its token and the rest. -/
theorem ScanTurn.listPart_eq {list seps token rest : CStr} (h : ScanTurn list seps token rest) :
    listPart list = seps ++ (token ++ listPart rest) := by
  rw [h.split, listPart_append seps, listPart_append token]
  · exact fun c hc => (h.item.inside c hc).2
  · intro c hc
    rcases h.separators c hc with rfl | rfl <;> decide

/-- INTERNAL: the rest is blanks, and the end or a comma. -/
theorem ScanTurn.listPart_rest {list seps token rest : CStr} (h : ScanTurn list seps token rest) :
    ∃ blanks more, listPart rest = blanks ++ more ∧ (∀ c ∈ blanks, c = 32) ∧
      (more = [] ∨ more.head? = some 44) := by
  obtain ⟨blanks, more, rfl, hblanks, hmore⟩ := h.behind
  refine ⟨blanks, listPart more, ?_, hblanks, ?_⟩
  · rw [listPart_append]
    intro c hc
    rw [hblanks c hc]
    decide
  · rcases hmore with hnil | h44 | h38
    · exact Or.inl (listPart_stop more (Or.inl hnil))
    · right
      cases more with
      | nil => cases h44
      | cons c more =>
        have hc : c = 44 := Option.some.inj h44
        simp [listPart, hc]
    · exact Or.inl (listPart_stop more (Or.inr h38))

/-- INTERNAL: the list ends in a separator when what is behind its first item does. -/
theorem ScanTurn.endsInSeparator_iff {list seps token rest : CStr}
    (h : ScanTurn list seps token rest) (hne : token ≠ []) :
    EndsInSeparator list ↔ EndsInSeparator rest := by
  unfold EndsInSeparator
  rw [h.listPart_eq, ← List.append_assoc, List.getLast?_append]
  cases hlast : (listPart rest).getLast? with
  | some c => simp
  | none =>
    have htoken : (seps ++ token).getLast? = some (token.getLast hne) := by
      rw [List.getLast?_append_of_ne_nil _ hne, List.getLast?_eq_some_getLast hne]
    have hin := h.item.inside _ (List.getLast_mem hne)
    have hblank : token.getLast hne ≠ 32 := by
      have := List.rdropWhile_eq_self_iff.mp h.item.last hne
      simpa using this
    simp [htoken, hin.1, hblank]

/-- INTERNAL: a turn that finds no item has come to the end of a list that ends in a
separator. -/
theorem ScanTurn.ends_of_nil {list seps token rest : CStr} (h : ScanTurn list seps token rest)
    (htoken : token = []) : EndsInSeparator list := by
  obtain ⟨hseps, hend⟩ := h.stop htoken
  unfold EndsInSeparator
  rw [h.listPart_eq, listPart_stop rest hend, htoken, List.append_nil, List.append_nil,
    List.getLast?_eq_some_getLast hseps]
  exact ⟨_, rfl, h.separators _ (List.getLast_mem hseps)⟩

/-- INTERNAL: the items of a list are the first one and those behind it. -/
theorem ScanTurn.mem_listItems {list seps token rest : CStr} (h : ScanTurn list seps token rest)
    (name : CStr) (hname : name ≠ []) :
    name ∈ listItems list ↔ name = token ∨ name ∈ listItems rest := by
  obtain ⟨blanks, more, hmore, hblanks, hhead⟩ := h.listPart_rest
  unfold listItems
  rw [h.listPart_eq, mem_commaItems_separators seps _ name hname h.separators, hmore,
    h.item.commaItems_append blanks more hblanks hhead name hname]

/-- INTERNAL: **the scan** of a list, by what it asks for. -/
theorem requestedScan_iff (name list : CStr) (fuel : ℕ) (hfuel : list.length < fuel) :
    requestedScan name fuel list = true ↔
      (name ≠ [] ∧ name ∈ listItems list) ∨ (name = [] ∧ EndsInSeparator list) := by
  induction fuel generalizing list with
  | zero => omega
  | succ fuel ih =>
    by_cases hstop : list = [] ∨ list.head? = some 38
    · rw [requestedScan_stop name list _ hstop]
      unfold listItems EndsInSeparator
      rw [listPart_stop list hstop]
      simp [commaItems, trimBlanks]
    · obtain ⟨seps, token, rest, hturn, hscan⟩ := requestedScan_turn list hstop
      rw [hscan name fuel, Bool.or_eq_true, decide_eq_true_eq]
      have hrest : requestedScan name fuel rest = true ↔
          (name ≠ [] ∧ name ∈ listItems rest) ∨ (name = [] ∧ token ≠ [] ∧ EndsInSeparator rest) := by
        by_cases htoken : token = []
        · obtain ⟨-, hend⟩ := hturn.stop htoken
          rw [requestedScan_stop name rest _ hend]
          unfold listItems
          rw [listPart_stop rest hend]
          simp [commaItems, trimBlanks, htoken]
        · rw [ih rest]
          · simp [htoken]
          · have hlen := congrArg List.length hturn.split
            have hpos := List.length_pos_of_ne_nil htoken
            simp only [List.length_append] at hlen
            omega
      rw [hrest]
      by_cases hname : name = []
      · subst hname
        by_cases htoken : token = []
        · simp [htoken, hturn.ends_of_nil htoken]
        · simp [htoken, hturn.endsInSeparator_iff htoken]
      · simp only [hname, hturn.mem_listItems name hname, ne_eq, not_false_eq_true, true_and,
          false_and, or_false]
        rw [eq_comm]

/-- INTERNAL: **what a list asks for**: its items that are not empty, and the empty name when
it ends in a separator. -/
theorem requested_iff (list name : CStr) :
    requested list name = true ↔
      (name ≠ [] ∧ name ∈ listItems list) ∨ (name = [] ∧ EndsInSeparator list) :=
  requestedScan_iff name list _ (Nat.lt_succ_self _)

end OpenHes.Analysis
