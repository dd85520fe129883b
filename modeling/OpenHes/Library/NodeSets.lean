import OpenHes.Library.LocationPath
import Mathlib.Data.Finset.Sort
import Mathlib.Data.Fintype.Card

/-!
# Node sets of location paths

The nodes of a document by identity, in document order, and what the last step of an absolute
location path selects: the children that pass a name test, or of each node the one at a position.
An engine is anything that evaluates the texts of such paths so; what stands before the last step
may be any location path.
-/

set_option autoImplicit false

namespace OpenHes.Library

namespace Xml

open Binary64

variable {ι : Type} [LinearOrder ι] [Fintype ι]

/-- The nodes of a document in document order, with the document node and the children of each. An
`int` counts them. -/
structure NodeTree (ι : Type) [LinearOrder ι] [Fintype ι] where
  root : ι
  children : ι → List ι
  test : CStr → ι → Bool
  sorted : ∀ n, (children n).Pairwise (· < ·)
  apart : ∀ m n c, c ∈ children m → c ∈ children n → m = n
  few : Fintype.card ι < 2 ^ 31

namespace NodeTree

/-- The children that pass a name test. -/
def childrenNamed (tree : NodeTree ι) (name : CStr) (n : ι) : List ι :=
  (tree.children n).filter (tree.test name)

/-- INTERNAL: the children of a name are in document order. -/
theorem childrenNamed_sorted (tree : NodeTree ι) (name : CStr) (n : ι) :
    (tree.childrenNamed name n).Pairwise (· < ·) :=
  (tree.sorted n).filter _

/-- INTERNAL: no node is a child of two. -/
theorem childrenNamed_apart (tree : NodeTree ι) {name : CStr} {m n c : ι}
    (hm : c ∈ tree.childrenNamed name m) (hn : c ∈ tree.childrenNamed name n) : m = n :=
  tree.apart m n c (List.mem_filter.mp hm).1 (List.mem_filter.mp hn).1

end NodeTree

/-- The text of an absolute location path. -/
def pathText (steps : List CStr) : CStr := 47 :: List.intercalate [47] steps

/-- The text of a step to the child of a name at a position; positions count from one. -/
def positionStep (name : CStr) (i : ℕ) : CStr := name ++ 91 :: (decimal (i + 1) ++ [93])

/-- An XPath engine on a document: `eval` gives the node set of a text, in document order. -/
structure NodeEngine (tree : NodeTree ι) where
  eval : CStr → List ι
  IsName : CStr → Prop
  IsPath : List CStr → Prop
  sorted : ∀ text, (eval text).Pairwise (· < ·)
  name_bytes : ∀ name, IsName name → name ≠ [] ∧ ∀ c ∈ name, c ∉ [46, 47, 64, 91, 93]
  nil : IsPath []
  name_step : ∀ steps name, IsPath steps → IsName name → IsPath (steps ++ [name])
  position_step : ∀ steps name i, IsPath steps → IsName name →
    IsPath (steps ++ [positionStep name i])
  child : ∀ steps name c, IsPath steps → IsName name →
    (c ∈ eval (pathText (steps ++ [name])) ↔
      ∃ n ∈ (if steps = [] then [tree.root] else eval (pathText steps)),
        c ∈ tree.childrenNamed name n)
  position : ∀ steps name i c, IsPath steps → IsName name →
    (c ∈ eval (pathText (steps ++ [positionStep name i])) ↔
      ∃ n ∈ (if steps = [] then [tree.root] else eval (pathText steps)),
        (tree.childrenNamed name n)[i]? = some c)

namespace NodeEngine

variable {tree : NodeTree ι} (engine : NodeEngine tree)

/-- The nodes that the last step of a path starts from. -/
def contexts (steps : List CStr) : List ι :=
  if steps = [] then [tree.root] else engine.eval (pathText steps)

/-- At most one of the nodes has children of the name. -/
def OneParent (steps : List CStr) (name : CStr) : Prop :=
  ∀ m ∈ engine.contexts steps, ∀ n ∈ engine.contexts steps,
    tree.childrenNamed name m ≠ [] → tree.childrenNamed name n ≠ [] → m = n

/-- INTERNAL: a node set is shorter than the greatest `int`. -/
theorem eval_length (text : CStr) : (engine.eval text).length < 2 ^ 31 := by
  have hnodup : (engine.eval text).Nodup := (engine.sorted text).imp fun h => ne_of_lt h
  exact lt_of_le_of_lt hnodup.length_le_card tree.few

/-- INTERNAL: a list of one member at most has it first. -/
theorem head?_of_unique {α : Type} {l : List α} {o : Option α} (h : ∀ c, c ∈ l ↔ o = some c) :
    l.head? = o := by
  cases l with
  | nil =>
    cases o with
    | none => rfl
    | some c => exact absurd ((h c).mpr rfl) List.not_mem_nil
  | cons c l => exact ((h c).mp List.mem_cons_self).symm

/-- INTERNAL: under one parent, the set of a name is the row of its children. -/
theorem eval_child_of_oneParent {steps : List CStr} {name : CStr} {n : ι}
    (hpath : engine.IsPath steps) (hname : engine.IsName name)
    (hone : engine.OneParent steps name) (hn : n ∈ engine.contexts steps)
    (hne : tree.childrenNamed name n ≠ []) :
    engine.eval (pathText (steps ++ [name])) = tree.childrenNamed name n := by
  refine (engine.sorted _).eq_of_mem_iff (tree.childrenNamed_sorted name n) fun c => ?_
  rw [engine.child steps name c hpath hname]
  constructor
  · rintro ⟨m, hm, hc⟩
    obtain rfl := hone m hm n hn (List.ne_nil_of_mem hc) hne
    exact hc
  · exact fun hc => ⟨n, hn, hc⟩

/-- INTERNAL: **positions agree under one parent**. -/
theorem position_of_oneParent {steps : List CStr} {name : CStr} (hpath : engine.IsPath steps)
    (hname : engine.IsName name) (hone : engine.OneParent steps name) (i : ℕ) :
    (engine.eval (pathText (steps ++ [positionStep name i]))).head? =
      (engine.eval (pathText (steps ++ [name])))[i]? := by
  by_cases hsome : ∃ n ∈ engine.contexts steps, tree.childrenNamed name n ≠ []
  · obtain ⟨n, hn, hne⟩ := hsome
    rw [engine.eval_child_of_oneParent hpath hname hone hn hne]
    refine head?_of_unique fun c => ?_
    rw [engine.position steps name i c hpath hname]
    constructor
    · rintro ⟨m, hm, hc⟩
      obtain rfl := hone m hm n hn (List.ne_nil_of_mem (List.mem_of_getElem? hc)) hne
      exact hc
    · exact fun hc => ⟨n, hn, hc⟩
  · push Not at hsome
    have hempty : engine.eval (pathText (steps ++ [name])) = [] := by
      rw [List.eq_nil_iff_forall_not_mem]
      intro c hc
      obtain ⟨n, hn, hc⟩ := (engine.child steps name c hpath hname).mp hc
      rw [hsome n hn] at hc
      cases hc
    rw [hempty]
    refine head?_of_unique fun c => ?_
    rw [engine.position steps name i c hpath hname]
    constructor
    · rintro ⟨n, hn, hc⟩
      rw [hsome n hn] at hc
      cases hc
    · intro hc
      cases hc

/-- INTERNAL: **where the last position is found**, one parent has all the children. -/
theorem oneParent_of_last_position {steps : List CStr} {name : CStr} (hpath : engine.IsPath steps)
    (hname : engine.IsName name)
    (hlast : ∀ i, i + 1 = (engine.eval (pathText (steps ++ [name]))).length →
      engine.eval (pathText (steps ++ [positionStep name i])) ≠ []) :
    engine.OneParent steps name := by
  intro m hm n hn hmne hnne
  have hmem : ∀ k ∈ engine.contexts steps, ∀ c ∈ tree.childrenNamed name k,
      c ∈ engine.eval (pathText (steps ++ [name])) := fun k hk c hc =>
    (engine.child steps name c hpath hname).mpr ⟨k, hk, hc⟩
  obtain ⟨c, hc⟩ := List.exists_mem_of_ne_nil _ hmne
  obtain ⟨d, hd⟩ := List.exists_mem_of_ne_nil _ hnne
  have hpos := List.length_pos_of_mem (hmem m hm c hc)
  obtain ⟨e, he⟩ := List.exists_mem_of_ne_nil _ (hlast _ (Nat.sub_add_cancel hpos))
  obtain ⟨k, hk, hke⟩ := (engine.position _ _ _ e hpath hname).mp he
  have hlength : (engine.eval (pathText (steps ++ [name]))).length ≤
      (tree.childrenNamed name k).length := by
    have := (List.getElem?_eq_some_iff.mp hke).1
    omega
  have hnodup : (tree.childrenNamed name k).Nodup :=
    (tree.childrenNamed_sorted name k).imp fun h => ne_of_lt h
  have hperm := (hnodup.subperm fun c hc => hmem k hk c hc).perm_of_length_le hlength
  have hall : ∀ l ∈ engine.contexts steps, ∀ c ∈ tree.childrenNamed name l, l = k :=
    fun l hl c hc => tree.childrenNamed_apart hc (hperm.mem_iff.mpr (hmem l hl c hc))
  rw [hall m hm c hc, hall n hn d hd]

end NodeEngine

/-! ## An engine -/

/-- INTERNAL: steps of plain names stay so with one more. -/
theorem plain_concat {steps : List Step} {s : Step} (hplain : ∀ t ∈ steps, Plain t.name)
    (hs : Plain s.name) : ∀ t ∈ steps ++ [s], Plain t.name := by
  intro t ht
  rcases List.mem_append.mp ht with ht | ht
  · exact hplain t ht
  · exact List.mem_singleton.mp ht ▸ hs

/-- The nodes that a step leads to. -/
def NodeTree.stepNodes (tree : NodeTree ι) (s : Step) (n : ι) : List ι :=
  match s.index with
  | none => tree.childrenNamed s.name n
  | some i => (tree.childrenNamed s.name n)[i]?.toList

/-- The nodes that steps lead to from the document node. -/
def NodeTree.pathNodes (tree : NodeTree ι) (steps : List Step) : List ι :=
  steps.foldl (fun ns s => ns.flatMap (tree.stepNodes s)) [tree.root]

/-- Evaluates an absolute path to elements. -/
def NodeTree.evalPathText (tree : NodeTree ι) (text : CStr) : List ι :=
  match text with
  | 47 :: rest =>
    if (parsePath rest).attr = none then
      (tree.pathNodes (parsePath rest).steps).toFinset.sort (· ≤ ·)
    else []
  | _ => []

namespace NodeTree

variable (tree : NodeTree ι)

/-- INTERNAL: a path selects the nodes that its steps lead to. -/
theorem mem_evalPathText (steps : List Step) (hne : steps ≠ [])
    (hplain : ∀ s ∈ steps, Plain s.name) (c : ι) :
    c ∈ tree.evalPathText (pathText (steps.map Step.text)) ↔ c ∈ tree.pathNodes steps := by
  have hparse : parsePath (List.intercalate [47] (steps.map Step.text)) = ⟨steps, none⟩ := by
    have hpath := parsePath_text ⟨steps, none⟩ ⟨hne, hplain, fun a ha => by cases ha⟩
    rwa [LocationPath.text, LocationPath.segments, Option.map_none, Option.toList_none,
      List.append_nil] at hpath
  rw [pathText, evalPathText, hparse, if_pos rfl, Finset.mem_sort, List.mem_toFinset]

/-- INTERNAL: the nodes in front of the last step are those that the steps before it lead to. -/
theorem mem_contexts (steps : List Step) (hplain : ∀ s ∈ steps, Plain s.name) (n : ι) :
    n ∈ (if steps.map Step.text = [] then [tree.root]
      else tree.evalPathText (pathText (steps.map Step.text))) ↔ n ∈ tree.pathNodes steps := by
  by_cases hne : steps = []
  · subst hne
    rfl
  · rw [if_neg (fun h => hne (List.map_eq_nil_iff.mp h)), tree.mem_evalPathText steps hne hplain]

/-- INTERNAL: **the last step** of a path. -/
theorem mem_last_step (steps : List Step) (s : Step) (hplain : ∀ t ∈ steps, Plain t.name)
    (hs : Plain s.name) (c : ι) :
    c ∈ tree.evalPathText (pathText (steps.map Step.text ++ [s.text])) ↔
      ∃ n ∈ (if steps.map Step.text = [] then [tree.root]
        else tree.evalPathText (pathText (steps.map Step.text))), c ∈ tree.stepNodes s n := by
  have hmap : steps.map Step.text ++ [s.text] = (steps ++ [s]).map Step.text := by
    rw [List.map_append, List.map_singleton]
  rw [hmap, tree.mem_evalPathText _ (by simp) (plain_concat hplain hs), pathNodes, List.foldl_append]
  simp only [tree.mem_contexts steps hplain]
  exact List.mem_flatMap

/-- The engine that reads paths of letters. -/
def pathEngine : NodeEngine tree where
  eval := tree.evalPathText
  IsName := Plain
  IsPath steps := ∃ p : List Step, (∀ s ∈ p, Plain s.name) ∧ steps = p.map Step.text
  sorted text := by
    unfold evalPathText
    split
    · split
      · exact (Finset.sortedLT_sort _).pairwise
      · exact .nil
    · exact .nil
  name_bytes name h := by
    refine ⟨h.1, fun c hc => ?_⟩
    have hletter := letter_facts c (h.2 c hc)
    simp [hletter]
  nil := ⟨[], by simp, rfl⟩
  name_step := by
    rintro _ name ⟨p, hp, rfl⟩ hname
    exact ⟨p ++ [⟨name, none⟩], plain_concat hp hname, by rw [List.map_append]; rfl⟩
  position_step := by
    rintro _ name i ⟨p, hp, rfl⟩ hname
    exact ⟨p ++ [⟨name, some i⟩], plain_concat hp hname, by rw [List.map_append]; rfl⟩
  child := by
    rintro _ name c ⟨p, hp, rfl⟩ hname
    exact tree.mem_last_step p ⟨name, none⟩ hp hname c
  position := by
    rintro _ name i c ⟨p, hp, rfl⟩ hname
    refine (tree.mem_last_step p ⟨name, some i⟩ hp hname c).trans ?_
    simp only [stepNodes, Option.mem_toList]

end NodeTree

end Xml

end OpenHes.Library
