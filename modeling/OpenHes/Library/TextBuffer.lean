import OpenHes.Library.CInt

/-!
# Texts printed into an array

`snprintf` at an offset of an array, as C has it: it writes what fits into the room it is told
of, and returns the length that the text would take. Texts that are printed one behind the other
into a cleared array, each at the end of the one before, stand there whole as long as the array
has room for their terminator.
-/

set_option autoImplicit false

namespace OpenHes.Library

/-- The array with bytes written from `off` on; a write outside of the array has no meaning, so
it is none. -/
def writeBytes (buf : List UInt8) (off : ℕ) (bytes : List UInt8) : Option (List UInt8) :=
  if off + bytes.length ≤ buf.length then
    some (buf.take off ++ (bytes ++ buf.drop (off + bytes.length)))
  else none

/-- The bytes that `snprintf` writes into `room` bytes. -/
def snprintfBytes (room : ℕ) (text : CStr) : List UInt8 :=
  if room = 0 then [] else boundedCopy room text ++ [0]

/-- What `snprintf` returns: the length of the text, and a negative number where no `int` holds
it. -/
def snprintfLength (text : CStr) : ℤ := if text.length < 2 ^ 31 then text.length else -1

/-- `snprintf(buf + off, room, ...)` with a format that makes `text`. -/
def snprintf (buf : List UInt8) (off room : ℕ) (text : CStr) : Option (List UInt8 × ℤ) :=
  (writeBytes buf off (snprintfBytes room text)).map fun buf => (buf, snprintfLength text)

/-- An array of `size` bytes that holds a text and zeros behind it. -/
def zeroPadded (size : ℕ) (text : CStr) : List UInt8 :=
  text ++ List.replicate (size - text.length) 0

/-- INTERNAL: without a text the buffer is all zeros. -/
theorem zeroPadded_nil (size : ℕ) : zeroPadded size [] = List.replicate size 0 := rfl

/-- INTERNAL: a text without NUL is read back from its buffer. -/
theorem cString_zeroPadded (size : ℕ) (text : CStr) (h : ∀ c ∈ text, c ≠ 0) :
    cString (zeroPadded size text) = text := by
  unfold zeroPadded
  rw [cString_append_zeros, cString_of_no_nul text h]

/-- INTERNAL: **printing at the end** of the text that an array holds, where there is room. -/
theorem snprintf_zeroPadded (size : ℕ) (text more : CStr)
    (h : text.length + more.length < size) (hsize : size ≤ 2 ^ 31) :
    snprintf (zeroPadded size text) text.length (size - text.length) more =
      some (zeroPadded size (text ++ more), (more.length : ℤ)) := by
  have hroom : size - text.length ≠ 0 := by omega
  have hkept : boundedCopy (size - text.length) more = more := List.take_of_length_le (by omega)
  have hend : (zeroPadded size text).length = size := by
    unfold zeroPadded
    rw [List.length_append, List.length_replicate]
    omega
  have hzeros : 0 :: List.replicate (size - text.length - (more.length + 1)) (0 : UInt8) =
      List.replicate (size - (text.length + more.length)) 0 := by
    have hleft : size - (text.length + more.length) =
        size - text.length - (more.length + 1) + 1 := by omega
    rw [hleft, List.replicate_succ]
  unfold snprintf snprintfBytes snprintfLength writeBytes
  rw [if_neg hroom, hkept, List.length_append, List.length_singleton, hend,
    if_pos (by omega), if_pos (by omega), Option.map_some]
  unfold zeroPadded
  rw [List.take_left, ← List.drop_drop, List.drop_left, List.drop_replicate, List.append_assoc,
    List.append_assoc, List.singleton_append, hzeros, List.length_append]

/-! ## A text with its terminator -/

/-- The array holds the text and a terminator behind it. -/
def HoldsCString (text buf : List UInt8) : Prop := text ++ [0] <+: buf

/-- INTERNAL: a buffer that holds a text is read as the text. -/
theorem cString_of_holds (text buf : List UInt8) (h : HoldsCString text buf) :
    cString buf = cString text := by
  obtain ⟨rest, rfl⟩ := h
  rw [List.append_assoc]
  unfold cString
  induction text with
  | nil => rfl
  | cons c text ih =>
    rw [List.cons_append, List.takeWhile_cons, List.takeWhile_cons, ih]

/-- INTERNAL: an array is made to hold the empty text. -/
theorem writeBytes_terminator (buf : List UInt8) (h : 0 < buf.length) :
    ∃ buf', writeBytes buf 0 [0] = some buf' ∧ buf'.length = buf.length ∧ HoldsCString [] buf' := by
  unfold writeBytes
  rw [if_pos (by rw [List.length_singleton]; omega)]
  refine ⟨_, rfl, ?_, buf.drop 1, rfl⟩
  simp only [List.take_zero, List.nil_append, List.length_append, List.length_singleton,
    List.length_drop]
  omega

/-- INTERNAL: **more text behind it**, and a new terminator, where there is room for both. -/
theorem writeBytes_more (text more buf : List UInt8) (h : HoldsCString text buf)
    (hroom : text.length + more.length < buf.length) :
    ∃ buf', ((writeBytes buf text.length more).bind fun buf =>
        writeBytes buf (text.length + more.length) [0]) = some buf' ∧
      buf'.length = buf.length ∧ HoldsCString (text ++ more) buf' := by
  obtain ⟨rest, rfl⟩ := h
  rw [List.length_append, List.length_append, List.length_singleton] at hroom
  have hfirst : writeBytes (text ++ [0] ++ rest) text.length more =
      some ((text ++ more) ++ (text ++ [0] ++ rest).drop (text.length + more.length)) := by
    unfold writeBytes
    rw [if_pos]
    · rw [List.append_assoc text [0] rest, List.take_left, List.append_assoc]
    · rw [List.length_append, List.length_append, List.length_singleton]
      omega
  have hlength : (text ++ [0] ++ rest).length = text.length + 1 + rest.length := by
    rw [List.length_append, List.length_append, List.length_singleton]
  rw [hfirst, Option.bind_some]
  unfold writeBytes
  rw [if_pos]
  · refine ⟨_, rfl, ?_, ((text ++ [0] ++ rest).drop (text.length + more.length)).drop 1, ?_⟩
    · simp only [List.length_append, List.length_take, List.length_drop, List.length_singleton,
        hlength]
      omega
    · rw [← List.length_append, List.take_left, List.length_singleton, ← List.drop_drop,
        List.drop_left, List.append_assoc]
  · simp only [List.length_append, List.length_drop, List.length_singleton, hlength]
    omega

end OpenHes.Library
