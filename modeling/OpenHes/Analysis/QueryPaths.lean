import OpenHes.Analysis.IndexForm

/-!
# Compact paths

A path in the compact form, with indexes that count from zero, becomes the location path with
the same steps, and the query that is made of it selects what that path selects. A name alone
selects the children of the name, and a descendant query the elements of its name.
-/

set_option autoImplicit false

namespace OpenHes.Analysis

open OpenHes.Library OpenHes.Library.Binary64 OpenHes.Library.Xml OpenHes.Model

/-- A step in the compact form; positions count from zero. -/
def dottedStep (s : Step) : CStr :=
  match s.index with
  | none => s.name
  | some i => s.name ++ 91 :: (decimal i ++ lit "]")

/-- The segments of a path in the compact form. -/
def dottedSegments (p : LocationPath) : List CStr :=
  p.steps.map dottedStep ++ (p.attr.map fun a => 64 :: a).toList

/-- A path in the compact form. -/
def dotted (p : LocationPath) : CStr := List.intercalate (lit ".") (dottedSegments p)

/-- A path that the loaders build: its names are plain, its indexes are counts of children. -/
structure IsBuilt (p : LocationPath) : Prop extends p.IsPlain where
  counted : ∀ s ∈ p.steps, ∀ i ∈ s.index, i < 2 ^ 31

/-- INTERNAL: a dotted step starts with a letter and holds no separator. -/
theorem dottedStep_bytes (s : Step) (h : Plain s.name) :
    (∃ c rest, dottedStep s = c :: rest ∧ isLetter c = true) ∧
      ∀ c ∈ dottedStep s, isSeparator c = false := by
  obtain ⟨name, index⟩ := s
  have hname : ∀ c ∈ name, isSeparator c = false := by
    intro c hc
    have hletter := letter_facts c (h.2 c hc)
    simp [isSeparator, hletter.1, hletter.2.1]
  obtain ⟨c, rest, rfl⟩ := List.exists_cons_of_ne_nil h.1
  cases index with
  | none => exact ⟨⟨c, rest, rfl, h.2 c (by simp)⟩, hname⟩
  | some i =>
    refine ⟨⟨c, _, rfl, h.2 c (by simp)⟩, ?_⟩
    intro d hd
    have hcases : d ∈ c :: rest ∨ d = 91 ∨ d ∈ decimal i ∨ d ∈ lit "]" := by
      simpa [dottedStep, or_assoc] using hd
    rcases hcases with hd | rfl | hd | hd
    · exact hname d hd
    · rfl
    · have hdigit := digit_not_mark d (decimal_digits i d hd)
      simp [isSeparator, hdigit.1, hdigit.2.1]
    · obtain rfl : d = 93 := by simpa [lit] using hd
      rfl

/-- INTERNAL: **an index is carried over**, from zero to one based. -/
theorem translateSegment_dottedStep (s : Step) (h : Plain s.name)
    (hidx : ∀ i ∈ s.index, i < 2 ^ 31) : translateSegment (dottedStep s) = s.text := by
  have hhead : (dottedStep s).head? ≠ some 64 := by
    obtain ⟨⟨c, rest, htext, hc⟩, -⟩ := dottedStep_bytes s h
    rw [htext]
    exact fun hhead => (letter_facts c hc).2.2.1 (Option.some.inj hhead)
  have hno : ∀ c ∈ s.name, c ≠ 91 := fun c hc => (letter_facts c (h.2 c hc)).2.2.2.1
  apply translateSegment_of_checked
  obtain ⟨name, index⟩ := s
  cases index with
  | none => exact checkedSegment_plain name hno
  | some i =>
    have hi : i < 2 ^ 31 := hidx i rfl
    exact checkedSegment_decimal hno hhead (by omega)

/-- INTERNAL: no segment of a dotted path is empty or holds one. -/
theorem dottedSegments_bytes (p : LocationPath) (h : IsBuilt p) :
    ∀ seg ∈ dottedSegments p, seg ≠ [] ∧ ∀ c ∈ seg, isSeparator c = false := by
  intro seg hseg
  unfold dottedSegments at hseg
  rw [List.mem_append, List.mem_map, Option.mem_toList, Option.map_eq_some_iff] at hseg
  rcases hseg with ⟨s, hs, rfl⟩ | ⟨a, ha, rfl⟩
  · obtain ⟨⟨c, rest, htext, -⟩, hsep⟩ := dottedStep_bytes s (h.steps s hs)
    exact ⟨by rw [htext]; exact List.cons_ne_nil _ _, hsep⟩
  · refine ⟨List.cons_ne_nil _ _, ?_⟩
    intro c hc
    rcases List.mem_cons.mp hc with rfl | hc
    · rfl
    · have hletter := letter_facts c ((h.attr a ha).2 c hc)
      simp [isSeparator, hletter.1, hletter.2.1]

/-- INTERNAL: its segments are translated to those of the location path. -/
theorem map_translateSegment (p : LocationPath) (h : IsBuilt p) :
    (dottedSegments p).map translateSegment = p.segments := by
  unfold dottedSegments LocationPath.segments
  rw [List.map_append, List.map_map]
  congr 1
  · apply List.map_congr_left
    intro s hs
    exact translateSegment_dottedStep s (h.steps s hs) (h.counted s hs)
  · cases p.attr with
    | none => rfl
    | some a => rfl

/-- INTERNAL: **a compact path becomes its location path**. -/
theorem translatePath_dotted (p : LocationPath) (h : IsBuilt p) (absolute : Bool) :
    translatePath (dotted p) absolute = (if absolute then [47] else []) ++ p.text := by
  have hbytes := dottedSegments_bytes p h
  have hne : dottedSegments p ≠ [] := by
    unfold dottedSegments
    intro hnil
    exact h.nonempty (List.map_eq_nil_iff.mp (List.append_eq_nil_iff.mp hnil).1)
  have hsplit : (dotted p).splitOnP isSeparator = dottedSegments p :=
    splitOnP_intercalate isSeparator 46 rfl (dottedSegments p) hne fun seg hseg =>
      (hbytes seg hseg).2
  have hfilter : (dottedSegments p).filter (· ≠ []) = dottedSegments p := by
    rw [List.filter_eq_self]
    intro seg hseg
    simpa using (hbytes seg hseg).1
  unfold translatePath
  rw [hsplit, hfilter, map_translateSegment p h]
  rfl

/-- INTERNAL: a dotted path selects what the location path does. -/
theorem evalRoot_dotted (ctx : HesQueryCtx) (p : LocationPath) (h : IsBuilt p) :
    evalRoot ctx (dotted p) = p.select ctx.doc.node := by
  unfold evalRoot evalPath
  rw [translatePath_dotted p h true]
  exact ctx.engine.absolute ctx.doc ctx.doc.root p h.toIsPlain

/-- INTERNAL: the handles of nodes are the nodes. -/
theorem handleList_nodes (ns : List Node) : handleList (ns.map .node) = ns := by
  unfold handleList
  rw [List.filterMap_map]
  exact List.filterMap_some

/-- INTERNAL: **a name alone** selects the children of the name. -/
theorem hesQueryElemChildren_eq (ctx : HesQueryCtx) (elem : Node) (name : CStr)
    (h : Plain name) : hesQueryElemChildren ctx elem name = elem.childrenNamed name := by
  have hbuilt : IsBuilt ⟨[⟨name, none⟩], none⟩ := by
    refine ⟨⟨by simp, ?_, by simp⟩, by simp⟩
    intro s hs
    obtain rfl := List.mem_singleton.mp hs
    exact h
  have hdotted : dotted ⟨[⟨name, none⟩], none⟩ = name := by
    simp [dotted, dottedSegments, dottedStep, List.intercalate]
  have htranslate := translatePath_dotted _ hbuilt false
  rw [hdotted] at htranslate
  unfold hesQueryElemChildren evalPath
  rw [htranslate]
  refine Eq.trans (congrArg handleList (ctx.engine.relative ctx.doc elem _ hbuilt.toIsPlain)) ?_
  unfold LocationPath.select
  dsimp only
  rw [handleList_nodes]
  exact List.flatMap_singleton _ _

/-- INTERNAL: **a descendant query** selects the elements of the name. -/
theorem hesQueryFindAll_eq (ctx : HesQueryCtx) (name : CStr) (h : Plain name) :
    hesQueryFindAll ctx name = ctx.doc.node.descendants.filter (Node.isNamed name) := by
  unfold hesQueryFindAll
  rw [if_neg h.1]
  refine Eq.trans (congrArg handleList (ctx.engine.descendants ctx.doc ctx.doc.root name h)) ?_
  exact handleList_nodes _

end OpenHes.Analysis
