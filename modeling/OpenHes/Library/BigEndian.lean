import Mathlib.Algebra.Order.Ring.Nat
import Mathlib.Tactic.Linarith
import Mathlib.Tactic.Ring

/-!
# Numbers as bytes, the highest first

The value of a run of bytes, the bytes of a number at a fixed width, and the subtraction of one
run from another of the same length, from the last byte to the first with a borrow.
-/

set_option autoImplicit false

namespace OpenHes.Library

/-- The number that the bytes write. -/
def beValue : List UInt8 → ℕ
  | [] => 0
  | b :: rest => b.toNat * 256 ^ rest.length + beValue rest

/-- The number in `width` bytes. -/
def beBytes : ℕ → ℕ → List UInt8
  | 0, _ => []
  | width + 1, value => UInt8.ofNat (value / 256 ^ width) :: beBytes width (value % 256 ^ width)

/-- One run of bytes less another, and whether the first byte still has to borrow. -/
def subtractBytes : List UInt8 → List UInt8 → List UInt8 × Bool
  | a :: as, b :: bs =>
    let lower := subtractBytes as bs
    let t : ℤ := a.toNat - b.toNat - lower.2.toNat
    if t < 0 then (UInt8.ofNat (t + 256).toNat :: lower.1, true)
    else (UInt8.ofNat t.toNat :: lower.1, false)
  | _, _ => ([], false)

/-- INTERNAL: bytes have a value below what their number allows. -/
theorem beValue_lt (bytes : List UInt8) : beValue bytes < 256 ^ bytes.length := by
  induction bytes with
  | nil => simp [beValue]
  | cons b rest ih =>
    rw [beValue, List.length_cons, pow_succ]
    have hb := b.toNat_lt
    have hhigh : b.toNat * 256 ^ rest.length ≤ 255 * 256 ^ rest.length :=
      Nat.mul_le_mul_right _ (by omega)
    omega

/-- INTERNAL: a number is written in as many bytes as it is asked for. -/
@[simp] theorem length_beBytes (width value : ℕ) : (beBytes width value).length = width := by
  induction width generalizing value with
  | zero => rfl
  | succ width ih => rw [beBytes, List.length_cons, ih]

/-- INTERNAL: the last byte tells whether the number is odd. -/
theorem last_beBytes_odd (width value : ℕ) (h : value < 256 ^ (width + 1)) :
    ((beBytes (width + 1) value)[width]?.getD 0).toNat % 2 = value % 2 := by
  induction width generalizing value with
  | zero =>
    rw [beBytes]
    simp only [pow_zero, Nat.div_one, List.getElem?_cons_zero, Option.getD_some,
      UInt8.toNat_ofNat']
    omega
  | succ width ih =>
    have hpos : 0 < 256 ^ (width + 1) := Nat.pow_pos (by decide)
    rw [beBytes, List.getElem?_cons_succ, ih _ (Nat.mod_lt _ hpos)]
    have heven : 256 ^ (width + 1) = 2 * (128 * 256 ^ width) := by ring
    rw [heven, Nat.mod_mul_right_mod]

/-- INTERNAL: a difference has as many bytes as its operands. -/
theorem length_subtractBytes (as bs : List UInt8) (h : as.length = bs.length) :
    (subtractBytes as bs).1.length = as.length := by
  induction as generalizing bs with
  | nil => simp [subtractBytes]
  | cons a as ih =>
    cases bs with
    | nil => simp at h
    | cons b bs =>
      have hrest := ih bs (by simpa using h)
      rw [subtractBytes]
      split
      · rw [List.length_cons, hrest, List.length_cons]
      · rw [List.length_cons, hrest, List.length_cons]

/-- INTERNAL: one byte less another and the borrow, as a byte and the borrow it leaves. -/
theorem byte_subtract (a b : UInt8) (borrow : Bool) :
    let t : ℤ := a.toNat - b.toNat - borrow.toNat
    (t < 0 → (UInt8.ofNat (t + 256).toNat).toNat + b.toNat + borrow.toNat = a.toNat + 256) ∧
      (¬t < 0 → (UInt8.ofNat t.toNat).toNat + b.toNat + borrow.toNat = a.toNat) := by
  have ha := a.toNat_lt
  have hb := b.toNat_lt
  have hborrow := Bool.toNat_le borrow
  simp only [UInt8.toNat_ofNat']
  constructor
  · intro ht
    omega
  · intro ht
    omega

/-- INTERNAL: **subtraction.** What comes out and what was taken off make the first number, and
what was borrowed. -/
theorem beValue_subtractBytes (as bs : List UInt8) (h : as.length = bs.length) :
    beValue (subtractBytes as bs).1 + beValue bs =
      beValue as + (subtractBytes as bs).2.toNat * 256 ^ as.length := by
  induction as generalizing bs with
  | nil =>
    cases bs with
    | nil => rfl
    | cons b bs => simp at h
  | cons a as ih =>
    cases bs with
    | nil => simp at h
    | cons b bs =>
      have hlen : as.length = bs.length := by simpa using h
      have hrest := ih bs hlen
      have hout := length_subtractBytes as bs hlen
      obtain ⟨hborrows, hfits⟩ := byte_subtract a b (subtractBytes as bs).2
      rw [subtractBytes]
      split
      next ht =>
        have hbyte := hborrows ht
        rw [beValue, beValue, beValue, hout, ← hlen, List.length_cons, pow_succ]
        generalize (UInt8.ofNat _).toNat = t at hbyte
        have hcombined : (t + b.toNat + (subtractBytes as bs).2.toNat) * 256 ^ as.length =
            (a.toNat + 256) * 256 ^ as.length := by rw [hbyte]
        simp only [Bool.toNat_true, one_mul]
        linarith
      next ht =>
        have hbyte := hfits ht
        rw [beValue, beValue, beValue, hout, ← hlen]
        generalize (UInt8.ofNat _).toNat = t at hbyte
        have hcombined : (t + b.toNat + (subtractBytes as bs).2.toNat) * 256 ^ as.length =
            a.toNat * 256 ^ as.length := by rw [hbyte]
        simp only [Bool.toNat_false, zero_mul, add_zero]
        linarith

/-- INTERNAL: nothing is borrowed where the first number is not the smaller one. -/
theorem beValue_subtractBytes_of_le (as bs : List UInt8) (h : as.length = bs.length)
    (hle : beValue bs ≤ beValue as) :
    beValue (subtractBytes as bs).1 = beValue as - beValue bs := by
  have hidentity := beValue_subtractBytes as bs h
  have hout := beValue_lt (subtractBytes as bs).1
  rw [length_subtractBytes as bs h] at hout
  cases hborrow : (subtractBytes as bs).2 with
  | false =>
    rw [hborrow, Bool.toNat_false, zero_mul, add_zero] at hidentity
    omega
  | true =>
    rw [hborrow, Bool.toNat_true, one_mul] at hidentity
    omega

/-- INTERNAL: as many bytes of the same number are the same bytes. -/
theorem eq_of_beValue_eq (as bs : List UInt8) (h : as.length = bs.length)
    (hvalue : beValue as = beValue bs) : as = bs := by
  induction as generalizing bs with
  | nil =>
    cases bs with
    | nil => rfl
    | cons b bs => simp at h
  | cons a as ih =>
    cases bs with
    | nil => simp at h
    | cons b bs =>
      have hlen : as.length = bs.length := by simpa using h
      have ha := beValue_lt as
      have hb := beValue_lt bs
      rw [beValue, beValue, ← hlen] at hvalue
      rw [← hlen] at hb
      have hpos : 0 < 256 ^ as.length := Nat.pow_pos (by decide)
      -- the first byte is the quotient by what the others make at most, and they the rest
      have hquotient := congrArg (· / 256 ^ as.length) hvalue
      simp only [Nat.add_comm (_ * _), Nat.add_mul_div_right _ _ hpos, Nat.div_eq_of_lt ha,
        Nat.div_eq_of_lt hb, Nat.zero_add] at hquotient
      obtain rfl := UInt8.toNat_inj.mp hquotient
      rw [ih bs hlen (Nat.add_left_cancel hvalue)]

/-- INTERNAL: **subtracting twice** gives the bytes that were taken off. -/
theorem subtractBytes_subtractBytes (as bs : List UInt8) (h : as.length = bs.length)
    (hle : beValue bs ≤ beValue as) :
    (subtractBytes as (subtractBytes as bs).1).1 = bs := by
  have hlen := length_subtractBytes as bs h
  have hvalue := beValue_subtractBytes_of_le as bs h hle
  have htwice := beValue_subtractBytes_of_le as (subtractBytes as bs).1 hlen.symm
    (by rw [hvalue]; exact Nat.sub_le _ _)
  apply eq_of_beValue_eq
  · rw [length_subtractBytes as _ hlen.symm, h]
  · rw [htwice, hvalue]
    exact Nat.sub_sub_self hle

end OpenHes.Library
