import OpenHes.Library.Binary64
import Mathlib.Algebra.Order.Group.Unbundled.Int
import Mathlib.Tactic.Ring

/-!
# C integers

What the conversions between the integer types of a 64-bit machine do to a value: `int`
and `uint32_t` keep the low 32 bits, a `long long` and a `size_t` the low 64. A value that the
narrower type holds is unchanged.
`atoi` reads a `long` and converts it, `%d` writes an `int`.
-/

set_option autoImplicit false

namespace OpenHes.Library

/-- Does an `int` hold the value? -/
def FitsInt32 (n : ℤ) : Prop := -2 ^ 31 ≤ n ∧ n < 2 ^ 31

instance (n : ℤ) : Decidable (FitsInt32 n) := inferInstanceAs (Decidable (_ ∧ _))

/-- Does a `long` hold the value? -/
def FitsInt64 (n : ℤ) : Prop := -2 ^ 63 ≤ n ∧ n < 2 ^ 63

instance (n : ℤ) : Decidable (FitsInt64 n) := inferInstanceAs (Decidable (_ ∧ _))

/-- `(int)n`. -/
def toInt32 (n : ℤ) : ℤ := n.bmod (2 ^ 32)

/-- `(long long)n`; also what a sum of two `long long` leaves in its register. -/
def toInt64 (n : ℤ) : ℤ := n.bmod (2 ^ 64)

/-- `(uint32_t)n`. -/
def toUInt32 (n : ℤ) : ℕ := (n % 2 ^ 32).toNat

/-- `(size_t)n`; also what a sum or a difference of two `size_t` leaves in its register. -/
def toSize (n : ℤ) : ℕ := (n % 2 ^ 64).toNat

/-- `atoi`: blanks, a sign and the digits that follow; `strtol` stops at the ends of `long`. -/
def atoi (text : CStr) : ℤ :=
  let (neg, rest) := Binary64.readSign (text.dropWhile Binary64.isSpace)
  let n : ℤ := Binary64.digitsValue 10 (rest.takeWhile Binary64.isDigit)
  toInt32 (max (-2 ^ 63) (min (2 ^ 63 - 1) (if neg then -n else n)))

/-- The text of `%d`. -/
def fmtD (n : ℤ) : CStr := (if n < 0 then lit "-" else []) ++ Binary64.decimal n.natAbs

/-- `n << k` in `int`: undefined from the width on, and where an `int` does not hold the value. -/
def shiftLeftInt (n : ℤ) (k : ℕ) : Option ℤ :=
  if k < 32 ∧ FitsInt32 (n * 2 ^ k) then some (n * 2 ^ k) else none

/-- INTERNAL: an `int` keeps a value it holds. -/
theorem toInt32_of_fits (n : ℤ) (h : FitsInt32 n) : toInt32 n = n := by
  obtain ⟨hlo, hhi⟩ := h
  unfold toInt32
  rw [Int.bmod_def]
  split <;> omega

/-- INTERNAL: a `long long` keeps a value it holds. -/
theorem toInt64_of_fits (n : ℤ) (h : FitsInt64 n) : toInt64 n = n := by
  obtain ⟨hlo, hhi⟩ := h
  unfold toInt64
  rw [Int.bmod_def]
  split <;> omega

/-- INTERNAL: a number that fits `size_t` is kept. -/
theorem toSize_of_lt (n : ℕ) (h : n < 2 ^ 64) : toSize n = n := by
  unfold toSize
  omega

/-- INTERNAL: a wrapped number fits. -/
theorem toInt64_fits (n : ℤ) : FitsInt64 (toInt64 n) := by
  unfold toInt64 FitsInt64
  rw [Int.bmod_def]
  split <;> omega

/-- INTERNAL: **the sum of two numbers from zero on** is itself, or it falls below zero. -/
theorem toInt64_add (a b : ℤ) (ha : 0 ≤ a) (hb : 0 ≤ b) (hafits : FitsInt64 a)
    (hbfits : FitsInt64 b) : toInt64 (a + b) = a + b ∨ toInt64 (a + b) < 0 := by
  obtain ⟨-, hahi⟩ := hafits
  obtain ⟨-, hbhi⟩ := hbfits
  unfold toInt64
  rw [Int.bmod_def]
  split <;> omega

/-- INTERNAL: what fits 32 bits fits 64. -/
theorem fitsInt64_of_fitsInt32 (n : ℤ) (h : FitsInt32 n) : FitsInt64 n := by
  obtain ⟨hlo, hhi⟩ := h
  exact ⟨by omega, by omega⟩

end OpenHes.Library
