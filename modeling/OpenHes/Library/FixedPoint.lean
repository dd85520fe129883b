import Mathlib.Algebra.Order.Group.Unbundled.Int
import Mathlib.Tactic.Linarith
import Mathlib.Tactic.Ring

/-!
# Fixed-point time stamps

A number of parts is converted to another unit and back, each time rounded down, and the
offset of two clocks is taken from four readings of an exchange. What the roundings cost is
told once for all units.
-/

set_option autoImplicit false

namespace OpenHes.Library

namespace FixedPoint

/-- INTERNAL: **to a finer unit and back**: `a` parts of `n` in parts of `m` and back are `a`
or one less. -/
theorem back_and_forth (a n m : ℤ) (hn : 0 < n) (hm : n ≤ m) :
    a - 1 ≤ a * m / n * n / m ∧ a * m / n * n / m ≤ a := by
  have hlow : a * m / n * n ≤ a * m := Int.ediv_mul_le (a * m) hn.ne'
  have hhigh : a * m < (a * m / n + 1) * n := Int.lt_ediv_add_one_mul_self (a * m) hn
  constructor
  · apply Int.le_ediv_of_mul_le (by omega)
    have hless : (a - 1) * m = a * m - m := by ring
    have hmore : (a * m / n + 1) * n = a * m / n * n + n := by ring
    omega
  · exact Int.ediv_le_of_le_mul (by omega) hlow

/-- The whole units of `a` parts, `n` to a unit, and the rest by way of parts of `m`, each
rounded down. -/
def throughParts (n m a : ℤ) : ℤ := a / n * n + a % n * m / n * n / m

section ThroughParts

variable (n m : ℤ) (hn : 0 < n) (hm : n ≤ m)

include hn hm in
/-- INTERNAL: **by way of finer parts** an instant loses one part at most. -/
theorem throughParts_bounds (a : ℤ) : a - 1 ≤ throughParts n m a ∧ throughParts n m a ≤ a := by
  have hback := back_and_forth (a % n) n m hn hm
  have hsplit : a / n * n + a % n = a := Int.ediv_mul_add_emod a n
  unfold throughParts
  omega

include hn hm in
/-- INTERNAL: what comes through is no less than the whole units. -/
theorem le_throughParts (a : ℤ) : a / n * n ≤ throughParts n m a := by
  have hrem : 0 ≤ a % n := Int.emod_nonneg a hn.ne'
  have hfine : 0 ≤ a % n * m / n := Int.ediv_nonneg (mul_nonneg hrem (by omega)) hn.le
  have hrest : 0 ≤ a % n * m / n * n / m := Int.ediv_nonneg (mul_nonneg hfine hn.le) (by omega)
  unfold throughParts
  omega

include hn hm in
/-- INTERNAL: a number that is not negative stays so. -/
theorem throughParts_nonneg (a : ℤ) (ha : 0 ≤ a) : 0 ≤ throughParts n m a := by
  have hwhole : 0 ≤ a / n * n := mul_nonneg (Int.ediv_nonneg ha hn.le) hn.le
  exact hwhole.trans (le_throughParts n m hn hm a)

include hn hm in
/-- INTERNAL: **the order is kept**: within a unit each rounding keeps it, and a later unit
starts behind all of an earlier one. -/
theorem throughParts_mono (a b : ℤ) (hab : a ≤ b) : throughParts n m a ≤ throughParts n m b := by
  have hsplita : a / n * n + a % n = a := Int.ediv_mul_add_emod a n
  have hsplitb : b / n * n + b % n = b := Int.ediv_mul_add_emod b n
  rcases (Int.ediv_le_ediv hn hab).eq_or_lt with hunit | hunit
  · have hrem : a % n ≤ b % n := by rw [hunit] at hsplita; omega
    have hfine : a % n * m / n ≤ b % n * m / n :=
      Int.ediv_le_ediv hn (mul_le_mul_of_nonneg_right hrem (by omega))
    have hrest : a % n * m / n * n / m ≤ b % n * m / n * n / m :=
      Int.ediv_le_ediv (by omega) (mul_le_mul_of_nonneg_right hfine hn.le)
    unfold throughParts
    rw [hunit]
    omega
  · have hnext : (a / n + 1) * n ≤ b / n * n := mul_le_mul_of_nonneg_right hunit hn.le
    have hless : a % n < n := Int.emod_lt_of_pos a hn
    calc throughParts n m a ≤ a := (throughParts_bounds n m hn hm a).2
      _ ≤ b / n * n := by rw [add_mul, one_mul] at hnext; omega
      _ ≤ throughParts n m b := le_throughParts n m hn hm b

end ThroughParts

/-- INTERNAL: a half that is rounded to zero is off by a half at most. -/
theorem half_error (x : ℤ) : x - 1 ≤ 2 * x.tdiv 2 ∧ 2 * x.tdiv 2 ≤ x + 1 := by
  rcases le_total 0 x with hx | hx
  · rw [Int.tdiv_eq_ediv_of_nonneg hx]
    omega
  · rw [← Int.neg_neg x, Int.neg_tdiv, Int.tdiv_eq_ediv_of_nonneg (by omega)]
    omega

section Exchange

/- A request is sent at `t1`, comes after `d1`, is held for `hold`, and the answer comes
after `d2`; the clock of the other side is ahead by `theta`. Its readings and the one of the
request may have lost up to a unit each. -/
variable (t1 t4 theta d1 d2 hold : ℤ) (hd1 : 0 ≤ d1) (hd2 : 0 ≤ d2)
  (h4 : t4 = t1 + d1 + hold + d2)

include hd1 hd2 h4 in
/-- INTERNAL: **the offset of an exchange** is off by half the delays and the roundings. -/
theorem offset_error (s1 s2 s3 : ℤ) (hs1 : t1 - 1 ≤ s1 ∧ s1 ≤ t1)
    (hs2 : t1 + d1 + theta - 1 ≤ s2 ∧ s2 ≤ t1 + d1 + theta)
    (hs3 : t1 + d1 + hold + theta - 1 ≤ s3 ∧ s3 ≤ t1 + d1 + hold + theta) :
    2 * |((s2 - s1) + (s3 - t4)).tdiv 2 - theta| ≤ d1 + d2 + 3 := by
  have hhalf := half_error ((s2 - s1) + (s3 - t4))
  rcases abs_cases (((s2 - s1) + (s3 - t4)).tdiv 2 - theta) with ⟨habs, -⟩ | ⟨habs, -⟩
  · omega
  · omega

end Exchange

end FixedPoint

end OpenHes.Library
