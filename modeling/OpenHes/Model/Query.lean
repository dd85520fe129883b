import OpenHes.Library.LocationPath

/-!
# The document layer

`common/hes_query.c`: a compact path is translated into XPath, an engine evaluates it, and
its node set is read as a text, a count, or a list of handles. Where the evaluation fails,
or ends in something that is no node set, the sources go on as with an empty node set.
-/

set_option autoImplicit false

namespace OpenHes.Model

open OpenHes.Library OpenHes.Library.Xml

/-- `hes_query_ctx_t`, with the engine that is linked. -/
structure HesQueryCtx where
  engine : Engine
  doc : Document

/-- `strtol` in base ten: the number, and what follows it. Where there is none, that is the
whole text. -/
def strtol (text : CStr) : ℤ × CStr :=
  let (neg, rest) := Binary64.readSign (text.dropWhile Binary64.isSpace)
  let digits := rest.takeWhile Binary64.isDigit
  if digits = [] then (0, text)
  else
    let n : ℤ := Binary64.digitsValue 10 digits
    (max (-2 ^ 63) (min (2 ^ 63 - 1) (if neg then -n else n)), rest.dropWhile Binary64.isDigit)

/-- A segment of a path in XPath: an index that is the whole tail counts from one there. -/
def translateSegment (seg : CStr) : CStr :=
  if seg.head? = some 64 then seg
  else if seg = lit "text()" then seg
  else
    match splitAtByte 91 seg with
    | (name, some tail) =>
      let (idx, endp) := strtol tail
      if endp = lit "]" then name ++ (lit "[" ++ fmtD (idx + 1) ++ lit "]") else seg
    | (_, none) => seg

/-- Does the byte separate segments? -/
def isSeparator (c : UInt8) : Bool := c = 46 || c = 47

/-- `_translate_path`. -/
def translatePath (path : CStr) (absolute : Bool) : CStr :=
  (if absolute then lit "/" else []) ++ List.intercalate (lit "/")
    (((path.splitOnP isSeparator).filter (· ≠ [])).map translateSegment)

/-- Does a text hold more than blanks? -/
def hasText (t : CStr) : Bool := t.any fun c => c ≠ 32 && c ≠ 10 && c ≠ 9 && c ≠ 13

/-- The content of a text node that holds more than blanks. -/
def textContent : Node → Option CStr
  | .text content => if hasText content then some content else none
  | _ => none

/-- `_node_text`; none is its NULL. -/
def nodeText : Item → Option CStr
  | .attribute a => some (a.contents.head?.getD [])
  | .node (.text content) => some content
  | .node (.element _ _ children) => some ((children.findSome? textContent).getD [])
  | .node .other => none

/-- `_eval`. -/
def evalPath (ctx : HesQueryCtx) (node : Node) (path : CStr) (absolute : Bool) : List Item :=
  ctx.engine.eval ctx.doc node (translatePath path absolute)

/-- `_eval_root`. -/
def evalRoot (ctx : HesQueryCtx) (path : CStr) : List Item :=
  evalPath ctx ctx.doc.root path true

/-- `hes_query_string`. -/
def hesQueryString (ctx : HesQueryCtx) (path : CStr) : Option CStr :=
  (evalRoot ctx path).head?.bind nodeText

/-- `hes_query_count`. -/
def hesQueryCount (ctx : HesQueryCtx) (path : CStr) : ℕ := (evalRoot ctx path).length

/-- `_handle_list`: the handles, which the callers take of elements only. -/
def handleList (items : List Item) : List Node :=
  items.filterMap fun item =>
    match item with
    | .node n => some n
    | .attribute _ => none

/-- `hes_query_elem_list`. -/
def hesQueryElemList (ctx : HesQueryCtx) (path : CStr) : List Node :=
  handleList (evalRoot ctx path)

/-- `hes_query_elem_children`. -/
def hesQueryElemChildren (ctx : HesQueryCtx) (elem : Node) (name : CStr) : List Node :=
  handleList (evalPath ctx elem name false)

/-- `hes_query_find_all`. -/
def hesQueryFindAll (ctx : HesQueryCtx) (name : CStr) : List Node :=
  if name = [] then []
  else handleList (ctx.engine.eval ctx.doc ctx.doc.root (lit "//" ++ name))

/-- `hes_query_elem_text`. -/
def hesQueryElemText (elem : Node) : Option CStr := nodeText (.node elem)

/-- `hes_query_elem_attr`: the name is compared without its namespace. -/
def hesQueryElemAttr (elem : Node) (attr : CStr) : Option CStr :=
  (elem.attrs.find? fun a => a.name.localName = attr).map fun a => a.contents.head?.getD []

end OpenHes.Model
