import OpenHes.Library.Decimal
import Mathlib.Data.List.Basic

/-!
# XML trees and location paths

A document as a tree, and the part of XPath that names elements by their place: steps to the
children of a name, with or without an index, and a last step to an attribute. An engine is
anything that evaluates the texts of such paths so. Names are expanded names; an unprefixed
name test asks for one in no namespace.
-/

set_option autoImplicit false

namespace OpenHes.Library

namespace Xml

open Binary64

/-! ## Trees -/

/-- An expanded name. -/
structure Name where
  uri : CStr := []
  localName : CStr
  deriving DecidableEq

/-- An attribute with the contents of its child nodes; several where its value refers to
entities. -/
structure Attr where
  name : Name
  contents : List CStr
  deriving DecidableEq

/-- A node; what is neither an element nor text holds no data for a reader. -/
inductive Node
  | element (name : Name) (attrs : List Attr) (children : List Node)
  | text (content : CStr)
  | other

namespace Node

/-- The children of a node. -/
def children : Node → List Node
  | element _ _ cs => cs
  | _ => []

/-- The attributes of a node. -/
def attrs : Node → List Attr
  | element _ as _ => as
  | _ => []

/-- Is it an element of the name? -/
def isNamed (name : CStr) : Node → Bool
  | element n _ _ => n = { localName := name }
  | _ => false

/-- The children that are elements of the name. -/
def childrenNamed (name : CStr) (n : Node) : List Node := n.children.filter (isNamed name)

/-- The attributes of the name. -/
def attrsNamed (name : CStr) (n : Node) : List Attr :=
  n.attrs.filter fun a => a.name = { localName := name }

mutual

/-- The node and what is below it, in document order. -/
def descendants : Node → List Node
  | element name as cs => element name as cs :: descendantsAll cs
  | text content => [text content]
  | other => [other]

/-- The nodes and what is below them. -/
def descendantsAll : List Node → List Node
  | [] => []
  | c :: cs => descendants c ++ descendantsAll cs

end

/-- An `int` counts the children, at every level. -/
inductive Counted : Node → Prop
  | intro (n : Node) (here : n.children.length < 2 ^ 31) (below : ∀ c ∈ n.children, Counted c) :
      Counted n

end Node

/-- A document, by its root element. The members of a node set are counted by an `int`. -/
structure Document where
  root : Node
  counted : root.Counted

/-- The document node, above the root element. -/
def Document.node (doc : Document) : Node := .element { localName := [] } [] [doc.root]

/-! ## Paths -/

/-- A member of a node set. -/
inductive Item
  | node (n : Node)
  | attribute (a : Attr)

/-- A step to the children of a name, or to the one with `index` others before it. -/
structure Step where
  name : CStr
  index : Option ℕ := none

/-- Steps to elements, and then perhaps to an attribute. -/
structure LocationPath where
  steps : List Step
  attr : Option CStr := none

/-- The nodes that a step leads to. -/
def Step.select (s : Step) (n : Node) : List Node :=
  match s.index with
  | none => n.childrenNamed s.name
  | some i => (n.childrenNamed s.name)[i]?.toList

/-- The nodes that steps lead to. -/
def selectSteps (steps : List Step) (ns : List Node) : List Node :=
  steps.foldl (fun ns s => ns.flatMap s.select) ns

/-- The node set of a path. -/
def LocationPath.select (p : LocationPath) (n : Node) : List Item :=
  match p.attr with
  | none => (selectSteps p.steps [n]).map .node
  | some a => ((selectSteps p.steps [n]).flatMap (Node.attrsNamed a)).map .attribute

/-- Is it a letter? -/
def isLetter (c : UInt8) : Bool := (65 ≤ c && c ≤ 90) || (97 ≤ c && c ≤ 122)

/-- A name of letters. -/
def Plain (name : CStr) : Prop := name ≠ [] ∧ ∀ c ∈ name, isLetter c = true

instance (name : CStr) : Decidable (Plain name) :=
  @instDecidableAnd _ _ _ (List.decidableBAll _ name)

/-- The names of a path are made of letters, and there is a step. -/
structure LocationPath.IsPlain (p : LocationPath) : Prop where
  nonempty : p.steps ≠ []
  steps : ∀ s ∈ p.steps, Plain s.name
  attr : ∀ a ∈ p.attr, Plain a

/-- The text of a step; positions count from one. -/
def Step.text (s : Step) : CStr :=
  match s.index with
  | none => s.name
  | some i => s.name ++ 91 :: (decimal (i + 1) ++ [93])

/-- The texts that the slashes of a path stand between. -/
def LocationPath.segments (p : LocationPath) : List CStr :=
  p.steps.map Step.text ++ (p.attr.map fun a => 64 :: a).toList

/-- The text of a path that starts at a node. -/
def LocationPath.text (p : LocationPath) : CStr := List.intercalate [47] p.segments

/-- An XPath engine: `eval` evaluates a text in a document with a context node, and is the
node set of the path where the text is a path of this kind, absolute or relative, or asks for
all descendants of a name. -/
structure Engine where
  eval : Document → Node → CStr → List Item
  absolute : ∀ (doc : Document) (ctx : Node) (p : LocationPath), p.IsPlain →
    eval doc ctx (47 :: p.text) = p.select doc.node
  relative : ∀ (doc : Document) (ctx : Node) (p : LocationPath), p.IsPlain →
    eval doc ctx p.text = p.select ctx
  descendants : ∀ (doc : Document) (ctx : Node) (name : CStr), Plain name →
    eval doc ctx (47 :: 47 :: name) =
      (doc.node.descendants.filter (Node.isNamed name)).map .node

/-! ## An engine -/

/-- Reads a step. -/
def parseStep (seg : CStr) : Step :=
  match seg.dropWhile isLetter with
  | [] => ⟨seg.takeWhile isLetter, none⟩
  | _ :: rest => ⟨seg.takeWhile isLetter, some (digitsValue 10 (rest.takeWhile isDigit) - 1)⟩

/-- Reads the texts between the slashes. -/
def parseSegments : List CStr → LocationPath
  | [] => ⟨[], none⟩
  | seg :: segs =>
    if seg.head? = some 64 then ⟨[], some seg.tail⟩
    else ⟨parseStep seg :: (parseSegments segs).steps, (parseSegments segs).attr⟩

/-- Reads a path. -/
def parsePath (text : CStr) : LocationPath := parseSegments (text.splitOnP (· = 47))

/-- Evaluates a text. -/
def evalText (doc : Document) (ctx : Node) (text : CStr) : List Item :=
  match text with
  | 47 :: 47 :: name => (doc.node.descendants.filter (Node.isNamed name)).map .node
  | 47 :: rest => (parsePath rest).select doc.node
  | _ => (parsePath text).select ctx

/-- INTERNAL: a letter is none of the marks of a path. -/
theorem letter_facts (c : UInt8) (h : isLetter c = true) :
    c ≠ 46 ∧ c ≠ 47 ∧ c ≠ 64 ∧ c ≠ 91 ∧ c ≠ 93 ∧ isDigit c = false := by
  revert c
  apply forall_byte
  decide +kernel

/-- INTERNAL: nor is a digit. -/
theorem digit_not_mark (c : UInt8) (h : isDigit c = true) : c ≠ 46 ∧ c ≠ 47 ∧ c ≠ 93 := by
  refine ⟨?_, ?_, ?_⟩ <;> rintro rfl <;> revert h <;> decide

/-- INTERNAL: a step is read back from its text. -/
theorem parseStep_text (s : Step) (h : Plain s.name) : parseStep s.text = s := by
  obtain ⟨name, index⟩ := s
  cases index with
  | none =>
    obtain ⟨htake, hdrop⟩ := takeWhile_of_stop isLetter name [] h.2 (by simp)
    rw [List.append_nil] at htake hdrop
    unfold parseStep Step.text
    dsimp only
    rw [htake, hdrop]
  | some i =>
    obtain ⟨htake, hdrop⟩ := takeWhile_of_stop isLetter name (91 :: (decimal (i + 1) ++ [93])) h.2
      (by simp; decide)
    obtain ⟨hdigits, -⟩ := takeWhile_of_stop isDigit (decimal (i + 1)) [93]
      (decimal_digits (i + 1)) (by simp; decide)
    unfold parseStep Step.text
    dsimp only
    rw [htake, hdrop]
    dsimp only
    rw [hdigits, digitsValue_decimal, Nat.add_sub_cancel]

/-- INTERNAL: the text of a step has no slash. -/
theorem Step.text_not_slash (s : Step) (h : Plain s.name) : ∀ c ∈ s.text, c ≠ 47 := by
  intro c hc
  obtain ⟨name, index⟩ := s
  unfold Step.text at hc
  cases index with
  | none => exact (letter_facts c (h.2 c hc)).2.1
  | some i =>
    simp only [List.mem_append, List.mem_cons, List.not_mem_nil, or_false] at hc
    rcases hc with hc | rfl | hc | rfl
    · exact (letter_facts c (h.2 c hc)).2.1
    · decide
    · exact (digit_not_mark c (decimal_digits _ c hc)).2.1
    · decide

/-- INTERNAL: it starts with a letter. -/
theorem Step.text_head (s : Step) (h : Plain s.name) :
    ∃ c rest, s.text = c :: rest ∧ isLetter c = true := by
  obtain ⟨name, index⟩ := s
  obtain ⟨c, rest, rfl⟩ := List.exists_cons_of_ne_nil h.1
  cases index with
  | none => exact ⟨c, rest, rfl, h.2 c (by simp)⟩
  | some i => exact ⟨c, _, rfl, h.2 c (by simp)⟩

/-- INTERNAL: no segment of a path has a slash. -/
theorem LocationPath.segments_not_slash (p : LocationPath) (h : p.IsPlain) :
    ∀ seg ∈ p.segments, ∀ c ∈ seg, c ≠ 47 := by
  intro seg hseg c hc
  unfold segments at hseg
  rw [List.mem_append, List.mem_map, Option.mem_toList, Option.map_eq_some_iff] at hseg
  rcases hseg with ⟨s, hs, rfl⟩ | ⟨a, ha, rfl⟩
  · exact s.text_not_slash (h.steps s hs) c hc
  · rcases List.mem_cons.mp hc with rfl | hc
    · decide
    · exact (letter_facts c ((h.attr a ha).2 c hc)).2.1

/-- INTERNAL: a path has a segment. -/
theorem LocationPath.segments_ne_nil (p : LocationPath) (h : p.IsPlain) : p.segments ≠ [] := by
  unfold segments
  intro hnil
  exact h.nonempty (List.map_eq_nil_iff.mp (List.append_eq_nil_iff.mp hnil).1)

/-- INTERNAL: a text of segments with a separator between each two is split into them. -/
theorem splitOnP_intercalate (p : UInt8 → Bool) (sep : UInt8) (hsep : p sep = true)
    (segs : List CStr) (hne : segs ≠ []) (h : ∀ seg ∈ segs, ∀ c ∈ seg, p c = false) :
    (List.intercalate [sep] segs).splitOnP p = segs := by
  induction segs with
  | nil => exact absurd rfl hne
  | cons seg segs ih =>
    have hseg : ∀ c ∈ seg, p c = false := h seg (by simp)
    cases segs with
    | nil => simpa [List.intercalate] using List.splitOnP_eq_singleton hseg
    | cons seg' segs =>
      have hrest := ih (List.cons_ne_nil _ _) fun s hs => h s (by simp [hs])
      have happend : List.intercalate [sep] (seg :: seg' :: segs) =
          seg ++ sep :: List.intercalate [sep] (seg' :: segs) := by
        simp [List.intercalate, List.intersperse]
      rw [happend, List.splitOnP_append_cons_of_forall_mem hseg sep hsep, hrest]

/-- INTERNAL: a path is read back from its segments. -/
theorem parseSegments_segments (p : LocationPath) (h : p.IsPlain) :
    parseSegments p.segments = p := by
  obtain ⟨steps, attr⟩ := p
  have hsteps := h.steps
  clear h
  dsimp only at hsteps
  unfold LocationPath.segments
  dsimp only
  induction steps with
  | nil =>
    cases attr with
    | none => rfl
    | some a => rfl
  | cons s steps ih =>
    obtain ⟨c, rest, htext, hc⟩ := s.text_head (hsteps s (by simp))
    have hhead : ¬ s.text.head? = some 64 := by
      rw [htext, List.head?_cons, Option.some_inj]
      exact (letter_facts c hc).2.2.1
    rw [List.map_cons, List.cons_append, parseSegments, if_neg hhead,
      ih fun t ht => hsteps t (by simp [ht]), parseStep_text s (hsteps s (by simp))]

/-- INTERNAL: a path is read back from its text. -/
theorem parsePath_text (p : LocationPath) (h : p.IsPlain) : parsePath p.text = p := by
  unfold parsePath LocationPath.text
  rw [splitOnP_intercalate _ 47 (by simp) p.segments (p.segments_ne_nil h)
    (by simpa using p.segments_not_slash h), parseSegments_segments p h]

/-- INTERNAL: its text does not start with a slash. -/
theorem LocationPath.text_head (p : LocationPath) (h : p.IsPlain) :
    ∃ c rest, p.text = c :: rest ∧ c ≠ 47 := by
  obtain ⟨s, steps, hsteps⟩ := List.exists_cons_of_ne_nil h.nonempty
  obtain ⟨c, rest, htext, hc⟩ := s.text_head (h.steps s (by simp [hsteps]))
  have hsegments : p.segments = s.text :: (steps.map Step.text ++
      (p.attr.map fun a => 64 :: a).toList) := by
    unfold segments
    rw [hsteps]
    rfl
  refine ⟨c, ?_⟩
  unfold text
  rw [hsegments, htext]
  cases steps.map Step.text ++ (p.attr.map fun a => 64 :: a).toList with
  | nil => exact ⟨_, rfl, (letter_facts c hc).2.1⟩
  | cons seg segs => exact ⟨_, rfl, (letter_facts c hc).2.1⟩

/-- The engine that reads these texts. -/
def locationEngine : Engine where
  eval := evalText
  absolute doc ctx p h := by
    obtain ⟨c, rest, htext, hc⟩ := p.text_head h
    have hparse := parsePath_text p h
    rw [htext] at hparse ⊢
    unfold evalText
    split
    next name heq =>
      cases heq
      exact absurd rfl hc
    next rest' heq =>
      cases heq
      rw [hparse]
    next _ hno => exact absurd rfl (hno (c :: rest))
  relative doc ctx p h := by
    obtain ⟨c, rest, htext, hc⟩ := p.text_head h
    have hparse := parsePath_text p h
    rw [htext] at hparse ⊢
    unfold evalText
    split
    next name heq =>
      cases heq
      exact absurd rfl hc
    next rest' heq =>
      cases heq
      exact absurd rfl hc
    next => rw [hparse]
  descendants doc ctx name h := rfl

/-! ## Selecting -/

/-- INTERNAL: the last step selects from what the steps before it have. -/
theorem selectSteps_concat (steps : List Step) (s : Step) (ns : List Node) :
    selectSteps (steps ++ [s]) ns = (selectSteps steps ns).flatMap s.select := by
  unfold selectSteps
  rw [List.foldl_append]
  rfl

/-- INTERNAL: an indexed step leads to the child at that place among those of the name. -/
theorem Step.select_index (name : CStr) (i : ℕ) (n : Node)
    (h : i < (n.childrenNamed name).length) :
    Step.select ⟨name, some i⟩ n = [(n.childrenNamed name).get ⟨i, h⟩] := by
  unfold Step.select
  dsimp only
  rw [List.getElem?_eq_getElem h]
  rfl

/-- INTERNAL: the last piece stands behind a separator. -/
theorem intercalate_concat (sep : CStr) (segs : List CStr) (seg : CStr) (h : segs ≠ []) :
    List.intercalate sep (segs ++ [seg]) = List.intercalate sep segs ++ sep ++ seg := by
  induction segs with
  | nil => exact absurd rfl h
  | cons head segs ih =>
    cases segs with
    | nil => simp [List.intercalate]
    | cons next segs =>
      have hrest := ih (List.cons_ne_nil _ _)
      simp only [List.intercalate, List.cons_append, List.intersperse_cons_cons, List.flatten_cons]
        at hrest ⊢
      rw [hrest]
      simp only [List.append_assoc]

end Xml

end OpenHes.Library
