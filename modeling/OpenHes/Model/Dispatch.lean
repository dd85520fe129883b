import OpenHes.Model.Message
import Mathlib.Data.List.DropRight

/-!
# The Lexicon router

`common/hes_dispatch.c`: which local service object owns an address, and what the router
does with a message for it. The objects are `service_object_t`s of the host; their states
are part of the host's state `α`, which each handler may change.
-/

set_option autoImplicit false

namespace OpenHes.Model

open OpenHes.Library

/-- `service_object_t`. A GET handler is given the prepared answer, the request's query and
payload in it, and gives the text that becomes the answer's payload. A tick publishes
event reports, each an address and a payload. -/
structure ServiceObject (α : Type) where
  path : CStr
  onGet : Option (α → HesClmeMsg → α × CStr) := none
  onPut : Option (α → HesClmeMsg → α) := none
  tick : Option (α → α × List (CStr × CStr)) := none

section Addresses

/-- `on_boundary`: the text ends after `prefixLen` bytes, or goes on with a '/'. -/
def onBoundary (path : CStr) (prefixLen : ℕ) : Bool :=
  match path.drop prefixLen with
  | [] => true
  | c :: _ => c = 47

/-- `single_segment`. -/
def singleSegment (s : CStr) : Bool := s ≠ [] && !s.contains 47

variable {α : Type}

/-- One turn of the search: the object is taken when it owns the address and its own address
is longer than that of the best one so far. -/
def considerObject (path : CStr) (best : Option (ServiceObject α × Option CStr))
    (so : ServiceObject α) : Option (ServiceObject α × Option CStr) :=
  if so.path.isPrefixOf path && onBoundary path so.path.length then
    let selector := path.drop (so.path.length + 1)
    let continues := so.path.length < path.length
    if continues && !singleSegment selector then best
    else
      let candidate := some (so, if continues then some selector else none)
      match best with
      | none => candidate
      | some (b, _) => if b.path.length < so.path.length then candidate else best
  else best

/-- `find_object`, with the trailing datum selector if there is one. -/
def findObject (objs : List (ServiceObject α)) (path : CStr) :
    Option (ServiceObject α × Option CStr) :=
  objs.foldl (considerObject path) none

end Addresses

section DataPoints

/-- The scan of `da_list`; `atStart` says whether a selector may begin here. -/
def daListFrom (atStart : Bool) : CStr → Option CStr
  | [] => none
  | c :: rest =>
    if atStart && (lit "da=").isPrefixOf (c :: rest) then some (rest.drop 2)
    else daListFrom (c = 38) rest

/-- `da_list`. -/
def daList (query : CStr) : Option CStr := daListFrom true query

/-- The loop of `requested`; each turn takes at least one byte off the list. -/
def requestedScan (name : CStr) : ℕ → CStr → Bool
  | 0, _ => false
  | fuel + 1, p =>
    if p = [] || p.head? = some 38 then false
    else
      let p := p.dropWhile fun c => c = 44 || c = 32
      let token := (p.takeWhile fun c => c ≠ 44 && c ≠ 38).rdropWhile fun c => c = 32
      if token = name then true else requestedScan name fuel (p.drop token.length)

/-- `requested`. -/
def requested (list name : CStr) : Bool := requestedScan name (list.length + 1) list

/-- The loop of `trim_payload` over the records of the payload. -/
def trimScan (list : CStr) : ℕ → CStr → CStr → CStr
  | 0, _, kept => kept
  | fuel + 1, p, kept =>
    if p = [] then kept
    else
      let (record, rest) := splitAtByte 59 p
      let name := record.takeWhile fun c => c ≠ 61
      let wanted := requested list name
      if wanted && hesPayloadMax < kept.length + record.length + 2 then kept
      else
        let kept :=
          if wanted then (if kept = [] then record else kept ++ lit ";" ++ record) else kept
        match rest with
        | none => kept
        | some p' => trimScan list fuel p' kept

/-- `trim_payload`. -/
def trimPayload (m : HesClmeMsg) (list : CStr) : HesClmeMsg :=
  hesMsgSetPayloadStr m (trimScan list (m.payload.length + 1) m.payload [])

end DataPoints

section Dispatch

variable {α : Type}

/-- The answer to a GET as it is handed to the object: the request's query, and `payload_len`
bytes from the start of its payload on. With more of them than the payload's array has, the copy
takes the request's `cred_info` along, and then its `user_name`. -/
def answerTo (so : ServiceObject α) (m : HesClmeMsg) : HesClmeMsg :=
  { hesMsgSetPath { verb := .event } so.path with
    query := hesStrlcpy hesQueryMax m.query
    payloadLen := m.payloadLen
    payload := m.payload.take m.payloadLen
    credInfo := m.credInfo.take (m.payloadLen - hesPayloadMax)
    userName := m.userName.take (m.payloadLen - hesPayloadMax - hesCredMax) }

/-- `dispatch_to_local_objects`: the state after it, whether an object owns the address, and
what is sent on the bus. -/
def dispatchToLocalObjects (objs : List (ServiceObject α)) (m : HesClmeMsg) (a : α) :
    α × Bool × List HesClmeMsg :=
  match findObject objs m.path with
  | none => (a, false, [])
  | some (so, selector) =>
    -- the datum in the address wins over the query
    let list := selector.or (daList m.query)
    match m.verb, so.onGet, so.onPut with
    | .get, some onGet, _ =>
      let (a, text) := onGet a (answerTo so m)
      let out := hesMsgSetPayloadStr (answerTo so m) text
      (a, true, [list.elim out (trimPayload out)])
    | .put, _, some onPut => (onPut a m, true, [])
    | _, _, _ => (a, true, [])

end Dispatch

end OpenHes.Model
