import OpenHes.Model.Query

/-!
# The translation of a path, as it runs

`common/hes_query.c`: `_translate_path` with its growing buffer, its allocations, its pointers
into the path and its `long` arithmetic. A pointer is the text from it on.
-/

set_option autoImplicit false

namespace OpenHes.Model

open OpenHes.Library

/-- How `_translate_path` ends without a text: with NULL, or undefined, where `idx + 1` leaves
`long`. -/
inductive TranslateError
  | null
  | overflow
  deriving DecidableEq

/-- The buffer with its capacity, and the room for the NUL. -/
structure GrowBuffer where
  bytes : CStr
  cap : ℕ
  room : bytes.length + 1 ≤ cap

/-- `_append_n`, with the n bytes; `grants` tells which sizes the allocator gives. -/
def appendN (grants : ℕ → Bool) (out : GrowBuffer) (s : CStr) : Except TranslateError GrowBuffer :=
  if h : out.cap < out.bytes.length + s.length + 1 then
    if grants ((out.cap + s.length + 1) * 2) then
      .ok ⟨out.bytes ++ s, (out.cap + s.length + 1) * 2, by
        have := out.room
        rw [List.length_append]
        omega⟩
    else .error .null
  else
    .ok ⟨out.bytes ++ s, out.cap, by
      rw [List.length_append]
      omega⟩

/-- What `_translate_path` appends for the segment of `segLen` bytes at `segStart`. `strtol` reads
from behind the bracket on, beyond the segment if it likes. -/
def appendSegment (grants : ℕ → Bool) (out : GrowBuffer) (segStart : CStr) (segLen : ℕ) :
    Except TranslateError GrowBuffer :=
  if segStart.head? = some 64 then do
    let out ← appendN grants out (lit "@")
    appendN grants out (segStart.tail.take (segLen - 1))
  else if segLen = 6 ∧ segStart.take 6 = lit "text()" then appendN grants out (lit "text()")
  else
    match splitAtByte 91 (segStart.take segLen) with
    | (_, none) => appendN grants out (segStart.take segLen)
    | (name, some _) =>
      let (parsed, endp) := strtol (segStart.drop (name.length + 1))
      if endp.head? = some 93 ∧ segStart.length - endp.length = segLen - 1 then do
        let out ← appendN grants out (segStart.take name.length)
        if FitsInt64 (parsed + 1) then
          let indexBuf := lit "[" ++ fmtD (parsed + 1) ++ lit "]"
          if 32 ≤ indexBuf.length then .error .null
          else appendN grants out indexBuf
        else .error .overflow
      else appendN grants out (segStart.take segLen)

/-- INTERNAL: behind the separators a segment starts, of a byte at least. -/
theorem segment_pos (p : CStr) (h : p.dropWhile isSeparator ≠ []) :
    0 < ((p.dropWhile isSeparator).takeWhile fun c => !isSeparator c).length := by
  obtain ⟨c, rest, hrest⟩ := List.exists_cons_of_ne_nil h
  have hhead := List.head?_dropWhile_not isSeparator p
  rw [hrest] at hhead
  have hc : (!isSeparator c) = true := by
    rw [Bool.not_eq_true']
    exact hhead
  rw [hrest, List.takeWhile_cons, if_pos hc]
  exact Nat.succ_pos _

/-- The loop of `_translate_path`. -/
def appendSegments (grants : ℕ → Bool) (p : CStr) (first : Bool) (out : GrowBuffer) :
    Except TranslateError GrowBuffer :=
  let segStart := p.dropWhile isSeparator
  if _h : segStart = [] then .ok out
  else do
    let segLen := (segStart.takeWhile fun c => !isSeparator c).length
    let out ← if first then .ok out else appendN grants out (lit "/")
    let out ← appendSegment grants out segStart segLen
    appendSegments grants (segStart.drop segLen) false out
termination_by p.length
decreasing_by
  have hpos := segment_pos p _h
  have hle := (List.dropWhile_sublist isSeparator (l := p)).length_le
  have hsegment : 0 < (p.dropWhile isSeparator).length := List.length_pos_of_ne_nil _h
  rw [List.length_drop]
  omega

/-- `_translate_path`. -/
def translatePathRun (grants : ℕ → Bool) (path : CStr) (absolute : Bool) :
    Except TranslateError CStr :=
  if grants 128 then do
    let out ← if absolute then appendN grants ⟨[], 128, by decide⟩ (lit "/")
      else .ok ⟨[], 128, by decide⟩
    let out ← appendSegments grants path true out
    .ok out.bytes
  else .error .null

end OpenHes.Model
