import Mathlib.Data.List.Basic

/-!
# C strings

A NUL-terminated C string is the list of its bytes before the terminator. The
string functions the sources use (`strcmp` against a literal, bounded copies,
scanning for a separator) act on these lists; `lit` turns an ASCII literal into
one.
-/

set_option autoImplicit false

namespace OpenHes.Library

/-- The bytes of a C string, terminator excluded. -/
abbrev CStr := List UInt8

/-- The C string of an ASCII literal. -/
def lit (s : String) : CStr := s.toList.map fun c => UInt8.ofNat c.toNat

/-- A bounded copy into a buffer of `dstsz` bytes: at most `dstsz - 1` bytes are
kept, the last one is the terminator's. -/
def boundedCopy (dstsz : ℕ) (src : CStr) : CStr := src.take (dstsz - 1)

/-- The part of a text before the first byte `sep`, and what follows that byte, if
it occurs. -/
def splitAtByte (sep : UInt8) : CStr → CStr × Option CStr
  | [] => ([], none)
  | c :: rest =>
    if c = sep then ([], some rest)
    else
      let (head, tail) := splitAtByte sep rest
      (c :: head, tail)

/-- `strstr` with a pattern that is not empty: the text from its first occurrence on. -/
def strstr (pattern : CStr) : CStr → Option CStr
  | [] => none
  | c :: rest => if pattern.isPrefixOf (c :: rest) then some (c :: rest) else strstr pattern rest

/-- The C string that starts a buffer: the bytes before the first NUL. -/
def cString (buf : List UInt8) : CStr := buf.takeWhile fun c => c ≠ 0

/-- The number that bytes stand for, least significant byte first. -/
def leValue : List UInt8 → ℕ
  | [] => 0
  | b :: rest => b.toNat + 256 * leValue rest

/-- INTERNAL: **a fact on all bytes**, from the numbers below 256. -/
theorem forall_byte {p : UInt8 → Prop} (h : ∀ n < 256, p (UInt8.ofNat n)) (c : UInt8) : p c := by
  have hc := h c.toNat c.toNat_lt
  rwa [UInt8.ofNat_toNat] at hc

/-- INTERNAL: a byte that a text does not have, by looking at each of them. -/
theorem no_byte {b : UInt8} {text : CStr} (h : (text.all fun c => c ≠ b) = true) :
    ∀ c ∈ text, c ≠ b :=
  fun c hc => of_decide_eq_true (List.all_eq_true.mp h c hc)

/-- INTERNAL: **a literal as its bytes**. Checking the text of a long literal by evaluation takes
its length squared; rewriting with this lemma first takes its length. -/
theorem lit_ofList (cs : List Char) :
    lit (String.ofList cs) = cs.map fun c => UInt8.ofNat c.toNat := by
  unfold lit
  rw [String.toList_ofList]

/-- INTERNAL: a literal may be written in two parts. -/
theorem lit_append (s t : String) : lit (s ++ t) = lit s ++ lit t := by
  unfold lit
  rw [String.toList_append, List.map_append]

/-- INTERNAL: copying the first `n` bytes of a buffer into a zeroed one keeps the first `n`
bytes of its string. -/
theorem cString_take_zeros (buf : List UInt8) (n k : ℕ) :
    cString (buf.take n ++ List.replicate k 0) = (cString buf).take n := by
  unfold cString
  induction buf generalizing n with
  | nil => cases k <;> simp [List.replicate_succ]
  | cons c rest ih =>
    cases n with
    | zero => cases k <;> simp [List.replicate_succ]
    | succ n =>
      by_cases hc : c = 0
      · simp [hc]
      · simp only [List.take_succ_cons, List.cons_append, List.takeWhile_cons, hc, ne_eq,
          not_false_eq_true, decide_true, if_true]
        rw [ih n]

/-- INTERNAL: the string of a buffer that is zero behind a text. -/
theorem cString_append_zeros (text : List UInt8) (k : ℕ) :
    cString (text ++ List.replicate k 0) = cString text := by
  have := cString_take_zeros text text.length k
  rw [List.take_length] at this
  rw [this]
  exact List.take_of_length_le ((List.takeWhile_sublist _).length_le)

/-- INTERNAL: the string of a part of a buffer is a part of its string. -/
theorem cString_take (buf : List UInt8) (n : ℕ) : cString (buf.take n) = (cString buf).take n := by
  have h := cString_take_zeros buf n 0
  rwa [List.replicate_zero, List.append_nil] at h

/-- INTERNAL: what lies behind a NUL is no part of the string. -/
theorem cString_append_of_nul (buf more : List UInt8) (h : 0 ∈ buf) :
    cString (buf ++ more) = cString buf := by
  induction buf with
  | nil => exact absurd h List.not_mem_nil
  | cons c rest ih =>
    unfold cString at ih ⊢
    by_cases hc : c = 0
    · simp [hc]
    · have hrest : 0 ∈ rest := (List.mem_cons.mp h).resolve_left (Ne.symm hc)
      rw [List.cons_append, List.takeWhile_cons_of_pos (by simpa using hc),
        List.takeWhile_cons_of_pos (by simpa using hc), ih hrest]

/-- INTERNAL: so a buffer is read as its part up to there. -/
theorem cString_take_of_nul (buf : List UInt8) (n : ℕ) (h : 0 ∈ buf.take n) :
    cString (buf.take n) = cString buf := by
  have happend := cString_append_of_nul (buf.take n) (buf.drop n) h
  rwa [List.take_append_drop, eq_comm] at happend

/-- INTERNAL: bytes that satisfy a test, and then one that does not. -/
theorem takeWhile_of_stop (p : UInt8 → Bool) (head rest : CStr) (h : ∀ c ∈ head, p c = true)
    (hstop : ∀ c ∈ rest.head?, p c = false) :
    (head ++ rest).takeWhile p = head ∧ (head ++ rest).dropWhile p = rest := by
  induction head with
  | nil =>
    cases rest with
    | nil => exact ⟨rfl, rfl⟩
    | cons c rest => simp [hstop c rfl]
  | cons d head ih =>
    have hd := h d (by simp)
    obtain ⟨htake, hdrop⟩ := ih fun c hc => h c (by simp [hc])
    rw [List.cons_append, List.takeWhile_cons_of_pos hd, List.dropWhile_cons_of_pos hd]
    exact ⟨by rw [htake], hdrop⟩

/-- INTERNAL: bytes without a NUL are a string as they are. -/
theorem cString_of_no_nul (text : CStr) (h : ∀ c ∈ text, c ≠ 0) : cString text = text := by
  have hstop := (takeWhile_of_stop (fun c => decide (c ≠ 0)) text [] (by simpa using h)
    (by simp)).1
  rwa [List.append_nil] at hstop

/-- INTERNAL: a text without the separator is not split. -/
theorem splitAtByte_none (sep : UInt8) (text : CStr) (h : ∀ c ∈ text, c ≠ sep) :
    splitAtByte sep text = (text, none) := by
  induction text with
  | nil => rfl
  | cons c text ih =>
    rw [splitAtByte, if_neg (h c (by simp)), ih fun d hd => h d (by simp [hd])]

/-- INTERNAL: a text is split at its first separator. -/
theorem splitAtByte_some (sep : UInt8) (head tail : CStr) (h : ∀ c ∈ head, c ≠ sep) :
    splitAtByte sep (head ++ sep :: tail) = (head, some tail) := by
  induction head with
  | nil => rw [List.nil_append, splitAtByte, if_pos rfl]
  | cons c head ih =>
    rw [List.cons_append, splitAtByte, if_neg (h c (by simp)), ih fun d hd => h d (by simp [hd])]

end OpenHes.Library
