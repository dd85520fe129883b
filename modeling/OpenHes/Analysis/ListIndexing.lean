import OpenHes.Analysis.TranslatedPaths
import OpenHes.Library.NodeSets
import OpenHes.Model.QueryHandles

/-!
# Lists and their indexes

A list holds the nodes of a path in document order; an index of the path's last segment counts the
children of each parent on its own. The paths for which both address the same elements are told.
-/

set_option autoImplicit false

namespace OpenHes.Analysis

open OpenHes.Library OpenHes.Library.Binary64 OpenHes.Library.Xml OpenHes.Model

/-- What `_translate_path` writes for the segments of a path. -/
def Translated (path : CStr) (outs : List CStr) : Prop :=
  List.Forall₂ (fun seg out => checkedSegment seg = some out) (segments isSeparator path) outs

section

variable {ι : Type} [LinearOrder ι] [Fintype ι] {tree : NodeTree ι}

/-- A path whose last segment is an element name: the text before it, which is a location path or
nothing, and the name. -/
structure ElementPath (engine : NodeEngine tree) (earlier name : CStr) : Prop where
  before : earlier = [] ∨ ∃ front sep, earlier = front ++ [sep] ∧ isSeparator sep = true
  name : engine.IsName name
  steps : ∀ outs, Translated earlier outs → engine.IsPath outs

/-- An index in the compact form. -/
def withIndex (path : CStr) (i : ℕ) : CStr := path ++ 91 :: (decimal i ++ [93])

/-- **A list is indexed as the path is**: entry i of the list is the element of the path with index
i, and behind the list there is none. The index is one that can be raised in `long`. -/
def IndexedAlike (engine : NodeEngine tree) (earlier name : CStr) : Prop :=
  ∃ list, hesQueryElemHandles ⟨engine.eval⟩ (earlier ++ name) = some list ∧
    ∀ i, i + 1 < 2 ^ 63 →
      hesQueryElem ⟨engine.eval⟩ (earlier ++ withIndex name i) = some list[i]?

end

/-! ## The translation of the last segment -/

/-- INTERNAL: the last members of two related lists are related. -/
theorem forall₂_concat {α β : Type} {R : α → β → Prop} {as : List α} {a : α} {bs : List β} :
    List.Forall₂ R (as ++ [a]) bs ↔
      ∃ front b, List.Forall₂ R as front ∧ R a b ∧ bs = front ++ [b] := by
  induction as generalizing bs with
  | nil =>
    rw [List.nil_append, List.forall₂_cons_left_iff]
    constructor
    · rintro ⟨b, rest, hb, hrest, rfl⟩
      cases hrest
      exact ⟨[], b, .nil, hb, rfl⟩
    · rintro ⟨front, b, hfront, hb, rfl⟩
      cases hfront
      exact ⟨b, [], hb, .nil, rfl⟩
  | cons c as ih =>
    rw [List.cons_append, List.forall₂_cons_left_iff]
    constructor
    · rintro ⟨d, rest, hd, hrest, rfl⟩
      obtain ⟨front, b, hfront, hb, rfl⟩ := ih.mp hrest
      exact ⟨d :: front, b, .cons hd hfront, hb, rfl⟩
    · rintro ⟨front, b, hfront, hb, rfl⟩
      cases hfront with
      | @cons _ d _ rest hd hrest => exact ⟨d, _, hd, ih.mpr ⟨rest, b, hrest, hb, rfl⟩, rfl⟩

/-- INTERNAL: a path is translated in one way. -/
theorem translated_unique {path : CStr} {outs outs' : List CStr} (h : Translated path outs)
    (h' : Translated path outs') : outs = outs' :=
  List.right_unique_forall₂' (fun _ _ _ hout hout' => Option.some.inj (hout.symm.trans hout')) h h'

/-- INTERNAL: a run without separators behind the text before it is one more segment. -/
theorem segments_last {earlier last : CStr}
    (hbefore : earlier = [] ∨ ∃ front sep, earlier = front ++ [sep] ∧ isSeparator sep = true)
    (hne : last ≠ []) (hrun : ∀ c ∈ last, isSeparator c = false) :
    segments isSeparator (earlier ++ last) = segments isSeparator earlier ++ [last] := by
  rcases hbefore with rfl | ⟨front, sep, rfl, hsep⟩
  · rw [List.nil_append, segments_of_run isSeparator last hne hrun, segments_nil]
    rfl
  · rw [List.append_assoc, List.singleton_append, segments_append_cons isSeparator front last sep hsep,
      segments_append_cons isSeparator front [] sep hsep, segments_of_run isSeparator last hne hrun,
      segments_nil, List.append_nil]

/-- INTERNAL: a segment behind a translated path is translated behind it. -/
theorem translated_last {earlier last out : CStr} {outs : List CStr}
    (hbefore : earlier = [] ∨ ∃ front sep, earlier = front ++ [sep] ∧ isSeparator sep = true)
    (hne : last ≠ []) (hrun : ∀ c ∈ last, isSeparator c = false)
    (hout : checkedSegment last = some out) :
    Translated (earlier ++ last) outs ↔ ∃ front, Translated earlier front ∧ outs = front ++ [out] := by
  unfold Translated
  rw [segments_last hbefore hne hrun, forall₂_concat]
  constructor
  · rintro ⟨front, b, hfront, hb, rfl⟩
    rw [hout] at hb
    exact ⟨front, hfront, by rw [Option.some.inj hb]⟩
  · rintro ⟨front, hfront, rfl⟩
    exact ⟨front, out, hfront, hout, rfl⟩

/-- INTERNAL: a path has nodes if it is translated, and then those of the translation. -/
theorem evalRootNodes_eq_some {ι : Type} (ctx : HandleCtx ι) (path : CStr) (list : List ι) :
    evalRootNodes ctx path = some list ↔
      ∃ outs, Translated path outs ∧ list = ctx.eval (pathText outs) := by
  unfold evalRootNodes
  rcases translatePathRun_cases (fun _ => true) path true with
    ⟨-, n, hrefused⟩ | ⟨hoverflow, hnone⟩ | ⟨text, htext, hran⟩
  · cases hrefused
  · rw [hoverflow]
    refine iff_of_false (fun h => by cases h) ?_
    rintro ⟨outs, houts, -⟩
    rw [(bodyText_eq_some _ _).mpr ⟨outs, houts, rfl⟩] at hnone
    cases hnone
  · rw [hran]
    obtain ⟨outs, houts, rfl⟩ := (bodyText_eq_some _ text).mp htext
    constructor
    · intro h
      exact ⟨outs, houts, (Option.some.inj h).symm⟩
    · rintro ⟨outs', houts', rfl⟩
      rw [translated_unique houts houts']
      rfl

/-! ## Names and positions -/

section

variable {ι : Type} [LinearOrder ι] [Fintype ι] {tree : NodeTree ι} (engine : NodeEngine tree)

/-- INTERNAL: a name is a segment without brackets, and no attribute. -/
theorem name_facts {name : CStr} (h : engine.IsName name) :
    name ≠ [] ∧ (∀ c ∈ name, isSeparator c = false) ∧ (∀ c ∈ name, c ≠ 91) ∧
      ∀ tail, (name ++ tail).head? ≠ some 64 := by
  obtain ⟨hne, hbytes⟩ := engine.name_bytes name h
  have hmarks : ∀ c ∈ name, c ≠ 46 ∧ c ≠ 47 ∧ c ≠ 64 ∧ c ≠ 91 := by
    intro c hc
    have hnot := hbytes c hc
    simp only [List.mem_cons, not_or] at hnot
    exact ⟨hnot.1, hnot.2.1, hnot.2.2.1, hnot.2.2.2.1⟩
  refine ⟨hne, fun c hc => ?_, fun c hc => (hmarks c hc).2.2.2, fun tail => ?_⟩
  · unfold isSeparator
    rw [decide_eq_false (hmarks c hc).1, decide_eq_false (hmarks c hc).2.1]
    rfl
  · obtain ⟨c, rest, rfl⟩ := List.exists_cons_of_ne_nil hne
    intro hhead
    exact (hmarks c List.mem_cons_self).2.2.1 (Option.some.inj hhead)

/-- INTERNAL: so is a name with an index, but for its brackets. -/
theorem withIndex_facts {name : CStr} (h : engine.IsName name) (i : ℕ) :
    withIndex name i ≠ [] ∧ ∀ c ∈ withIndex name i, isSeparator c = false := by
  obtain ⟨hne, hrun, -⟩ := name_facts engine h
  refine ⟨List.append_ne_nil_of_left_ne_nil hne _, fun c hc => ?_⟩
  unfold withIndex at hc
  simp only [List.mem_append, List.mem_cons, List.not_mem_nil, or_false] at hc
  rcases hc with hc | rfl | hc | rfl
  · exact hrun c hc
  · rfl
  · exact (digit_marks c (decimal_digits i c hc)).2.2.2.2
  · rfl

/-- INTERNAL: it is translated to the position behind the index. -/
theorem checkedSegment_withIndex {name : CStr} (h : engine.IsName name) (i : ℕ)
    (hi : i + 1 < 2 ^ 63) : checkedSegment (withIndex name i) = some (positionStep name i) := by
  obtain ⟨-, -, hno, hhead⟩ := name_facts engine h
  exact checkedSegment_decimal hno (hhead _) hi

/-- INTERNAL: a name is kept. -/
theorem checkedSegment_name {name : CStr} (h : engine.IsName name) :
    checkedSegment name = some name :=
  checkedSegment_plain name (name_facts engine h).2.2.1

/-- INTERNAL: **paths of the documented form are location paths**. -/
theorem isPath_of_documented {path : CStr} {outs : List CStr} (houts : Translated path outs)
    (h : ∀ seg ∈ segments isSeparator path, engine.IsName seg ∨
      ∃ name digits, Indexed seg name digits ∧ engine.IsName name) : engine.IsPath outs := by
  unfold Translated at houts
  generalize segments isSeparator path = segs at houts h
  induction segs using List.reverseRecOn generalizing outs with
  | nil =>
    cases houts
    exact engine.nil
  | append_singleton segs seg ih =>
    obtain ⟨front, out, hfront, hout, rfl⟩ := forall₂_concat.mp houts
    have hpath := ih hfront fun other hother => h other (List.mem_append_left _ hother)
    rcases h seg (List.mem_append_right _ List.mem_cons_self) with hname | ⟨name, digits, hindexed, hname⟩
    · rw [checkedSegment_name engine hname] at hout
      exact Option.some.inj hout ▸ engine.name_step front seg hpath hname
    · have hindex : IndexText digits := ⟨hindexed.nonempty, hindexed.decimal, hindexed.fits⟩
      have hchecked := checkedSegment_index hindexed.plain (hindexed.shape ▸ hindexed.element) hindex
      rw [← hindexed.shape, hout] at hchecked
      exact Option.some.inj hchecked ▸ engine.position_step front name _ hpath hname

/-! ## The list and the elements -/

variable {engine}

/-- INTERNAL: the handles of a path are the nodes of its name behind what is in front. -/
theorem handles_eq_some {earlier name : CStr} (h : ElementPath engine earlier name) (list : List ι) :
    hesQueryElemHandles ⟨engine.eval⟩ (earlier ++ name) = some list ↔
      ∃ outs, Translated earlier outs ∧ list = engine.eval (pathText (outs ++ [name])) := by
  obtain ⟨hne, hrun, -⟩ := name_facts engine h.name
  rw [hesQueryElemHandles, evalRootNodes_eq_some]
  simp only [translated_last h.before hne hrun (checkedSegment_name engine h.name)]
  constructor
  · rintro ⟨_, ⟨outs, houts, rfl⟩, hlist⟩
    exact ⟨outs, houts, hlist⟩
  · rintro ⟨outs, houts, hlist⟩
    exact ⟨_, ⟨outs, houts, rfl⟩, hlist⟩

/-- INTERNAL: its element at an index is the first node at that position. -/
theorem elem_eq {earlier name : CStr} (h : ElementPath engine earlier name) {outs : List CStr}
    (houts : Translated earlier outs) (i : ℕ) (hi : i + 1 < 2 ^ 63) :
    hesQueryElem ⟨engine.eval⟩ (earlier ++ withIndex name i) =
      some (engine.eval (pathText (outs ++ [positionStep name i]))).head? := by
  obtain ⟨hne, hrun⟩ := withIndex_facts engine h.name i
  have hall := (evalRootNodes_eq_some ⟨engine.eval⟩ (earlier ++ withIndex name i) _).mpr
    ⟨_, (translated_last h.before hne hrun (checkedSegment_withIndex engine h.name i hi)).mpr
      ⟨outs, houts, rfl⟩, rfl⟩
  rw [hesQueryElem, hall]
  rfl

/-- INTERNAL: where the list and the elements agree, one parent has them all. -/
theorem oneParent_of_indexedAlike {earlier name : CStr} (h : ElementPath engine earlier name)
    (halike : IndexedAlike engine earlier name) :
    ∃ outs, Translated earlier outs ∧ engine.OneParent outs name := by
  obtain ⟨list, hlist, hentries⟩ := halike
  obtain ⟨outs, houts, rfl⟩ := (handles_eq_some h list).mp hlist
  refine ⟨outs, houts, engine.oneParent_of_last_position (h.steps outs houts) h.name fun i hi => ?_⟩
  have hsmall := engine.eval_length (pathText (outs ++ [name]))
  have hentry := hentries i (by omega)
  rw [elem_eq h houts i (by omega), List.getElem?_eq_getElem (by omega)] at hentry
  intro hempty
  rw [hempty] at hentry
  cases hentry

/-- **Lists are indexed as the path language indexes** exactly when the translation of the earlier
segments is defined and of the nodes that these select at most one has children of the name.
SRCLINE: hes_query.c:322-367, hes_query.c:490-513, hes_query.c:596-607 -/
theorem list_indexed_iff {earlier name : CStr} (h : ElementPath engine earlier name) :
    IndexedAlike engine earlier name ↔
      ∃ outs, Translated earlier outs ∧ engine.OneParent outs name := by
  refine ⟨oneParent_of_indexedAlike h, ?_⟩
  rintro ⟨outs, houts, hone⟩
  refine ⟨_, (handles_eq_some h _).mpr ⟨outs, houts, rfl⟩, fun i hi => ?_⟩
  rw [elem_eq h houts i hi, engine.position_of_oneParent (h.steps outs houts) h.name hone i]

end

/-! ## Two parents -/

/-- The names of the nodes of a document with two lamps that have one part each. -/
def lampName (n : Fin 6) : CStr :=
  if n = 1 then lit "file" else if n = 2 ∨ n = 3 then lit "lamp"
  else if n = 4 ∨ n = 5 then lit "part" else []

/-- The children of its nodes. -/
def lampChildren (n : Fin 6) : List (Fin 6) :=
  if n = 0 then [1] else if n = 1 then [2, 3] else if n = 2 then [4] else if n = 3 then [5] else []

/-- The document. -/
def lampTree : NodeTree (Fin 6) where
  root := 0
  children := lampChildren
  test name n := name = lampName n
  sorted := by decide
  apart := by decide
  few := by decide

/-- INTERNAL: a text that ends in a dot ends in a separator. -/
theorem lamp_before (front : CStr) :
    front ++ [46] = [] ∨ ∃ front' sep, front ++ [46] = front' ++ [sep] ∧ isSeparator sep = true :=
  Or.inr ⟨front, 46, rfl, rfl⟩

/-- INTERNAL: 'part' is a plain name. -/
theorem part_plain : Plain (lit "part") := by decide

/-- INTERNAL: the segments of the first lamp's path. -/
theorem segments_first_lamp :
    segments isSeparator (lit "file.lamp[0].") = [lit "file", lit "lamp[0]"] := by decide +kernel

/-- INTERNAL: the segments of the lamps' path. -/
theorem segments_lamps : segments isSeparator (lit "file.lamp.") = [lit "file", lit "lamp"] := by
  decide +kernel

/-- INTERNAL: the parts of the first lamp. -/
theorem first_lamp_path : ElementPath lampTree.pathEngine (lit "file.lamp[0].") (lit "part") := by
  refine ⟨lamp_before (lit "file.lamp[0]"), part_plain, fun outs houts => ?_⟩
  refine isPath_of_documented lampTree.pathEngine houts ?_
  rw [segments_first_lamp, List.forall_mem_cons, List.forall_mem_singleton]
  have hfile : Plain (lit "file") := by decide
  have hlamp : Plain (lit "lamp") := by decide
  have hindexed : Indexed (lit "lamp[0]") (lit "lamp") (lit "0") :=
    ⟨⟨rfl, no_byte (by decide), by decide, List.all_eq_true.mp (by decide)⟩, by decide, by decide⟩
  exact ⟨Or.inl hfile, Or.inr ⟨lit "lamp", lit "0", hindexed, hlamp⟩⟩

/-- INTERNAL: the parts of all lamps. -/
theorem lamps_path : ElementPath lampTree.pathEngine (lit "file.lamp.") (lit "part") := by
  refine ⟨lamp_before (lit "file.lamp"), part_plain, fun outs houts => ?_⟩
  refine isPath_of_documented lampTree.pathEngine houts ?_
  rw [segments_lamps, List.forall_mem_cons, List.forall_mem_singleton]
  have hfile : Plain (lit "file") := by decide
  have hlamp : Plain (lit "lamp") := by decide
  exact ⟨Or.inl hfile, Or.inl hlamp⟩

/-- INTERNAL: the contexts of a path are the nodes that it leads to. -/
theorem mem_lamp_contexts (steps : List Step) (hplain : ∀ s ∈ steps, Plain s.name) (n : Fin 6) :
    n ∈ lampTree.pathEngine.contexts (steps.map Step.text) ↔ n ∈ lampTree.pathNodes steps :=
  lampTree.mem_contexts steps hplain n

/-- INTERNAL: the parts of the first lamp. -/
theorem list_indexed_first_lamp :
    IndexedAlike lampTree.pathEngine (lit "file.lamp[0].") (lit "part") := by
  refine (list_indexed_iff first_lamp_path).mpr ⟨[lit "file", lit "lamp[1]"], ?_, ?_⟩
  · unfold Translated
    rw [segments_first_lamp]
    exact .cons (by decide +kernel) (.cons (by decide +kernel) .nil)
  · have hcontexts := mem_lamp_contexts [⟨lit "file", none⟩, ⟨lit "lamp", some 0⟩] (by decide)
    have hnodes : lampTree.pathNodes [⟨lit "file", none⟩, ⟨lit "lamp", some 0⟩] = [2] := by
      decide +kernel
    have hsteps : [⟨lit "file", none⟩, ⟨lit "lamp", some 0⟩].map Step.text =
        [lit "file", lit "lamp[1]"] := by decide +kernel
    rw [hsteps, hnodes] at hcontexts
    intro m hm n hn _ _
    rw [List.mem_singleton.mp ((hcontexts m).mp hm), List.mem_singleton.mp ((hcontexts n).mp hn)]

/-- INTERNAL: the lamps' path is kept by the translation. -/
theorem lamps_translated : Translated (lit "file.lamp.") [lit "file", lit "lamp"] := by
  unfold Translated
  rw [segments_lamps]
  exact .cons (by decide +kernel) (.cons (by decide +kernel) .nil)

/-- INTERNAL: the lamps are the nodes 2 and 3. -/
theorem mem_lamps (n : Fin 6) :
    n ∈ lampTree.pathEngine.contexts [lit "file", lit "lamp"] ↔ n = 2 ∨ n = 3 := by
  have hcontexts := mem_lamp_contexts [⟨lit "file", none⟩, ⟨lit "lamp", none⟩] (by decide) n
  have hnodes : lampTree.pathNodes [⟨lit "file", none⟩, ⟨lit "lamp", none⟩] = [2, 3] := by
    decide +kernel
  rw [hnodes, List.mem_cons, List.mem_singleton] at hcontexts
  exact hcontexts

/-- INTERNAL: each of them has a part. -/
theorem lamp_parts :
    lampTree.childrenNamed (lit "part") 2 = [4] ∧ lampTree.childrenNamed (lit "part") 3 = [5] := by
  decide +kernel

/-- INTERNAL: the list of the parts of all lamps has two entries, but no lamp has a second part. -/
theorem second_part_unreachable :
    (∃ list, hesQueryElemHandles ⟨lampTree.pathEngine.eval⟩ (lit "file.lamp.part") = some list ∧
      4 ∈ list ∧ 5 ∈ list) ∧
    hesQueryElem ⟨lampTree.pathEngine.eval⟩ (lit "file.lamp.part[1]") = some none ∧
      ¬∀ (tree : NodeTree (Fin 6)) (engine : NodeEngine tree) (earlier name : CStr),
        ElementPath engine earlier name → IndexedAlike engine earlier name := by
  have hpath := lamps_path.steps _ lamps_translated
  refine ⟨⟨_, (handles_eq_some lamps_path _).mpr ⟨_, lamps_translated, rfl⟩, ?_, ?_⟩, ?_, fun h => ?_⟩
  · refine (lampTree.pathEngine.child _ _ 4 hpath part_plain).mpr ⟨2, (mem_lamps 2).mpr (Or.inl rfl), ?_⟩
    rw [lamp_parts.1]
    exact List.mem_cons_self
  · refine (lampTree.pathEngine.child _ _ 5 hpath part_plain).mpr ⟨3, (mem_lamps 3).mpr (Or.inr rfl), ?_⟩
    rw [lamp_parts.2]
    exact List.mem_cons_self
  · have hnone : lampTree.pathEngine.eval
        (pathText ([lit "file", lit "lamp"] ++ [positionStep (lit "part") 1])) = [] := by
      rw [List.eq_nil_iff_forall_not_mem]
      intro c hc
      obtain ⟨n, hn, hc⟩ := (lampTree.pathEngine.position _ _ 1 c hpath part_plain).mp hc
      rcases (mem_lamps n).mp hn with rfl | rfl
      · rw [lamp_parts.1] at hc
        cases hc
      · rw [lamp_parts.2] at hc
        cases hc
    have helem := elem_eq lamps_path lamps_translated 1 (by omega)
    rw [hnone] at helem
    exact helem
  · obtain ⟨outs, houts, hone⟩ := oneParent_of_indexedAlike lamps_path (h _ _ _ _ lamps_path)
    rw [translated_unique houts lamps_translated] at hone
    have hsame := hone 2 ((mem_lamps 2).mpr (Or.inl rfl)) 3 ((mem_lamps 3).mpr (Or.inr rfl))
      (by rw [lamp_parts.1]; exact List.cons_ne_nil _ _)
      (by rw [lamp_parts.2]; exact List.cons_ne_nil _ _)
    revert hsame
    decide

end OpenHes.Analysis
