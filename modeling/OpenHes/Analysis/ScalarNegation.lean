import OpenHes.Model.Identity

/-!
# The negative of a scalar

`scalar_negate` takes a scalar off the order of the group, from the last byte to the first. The
invariant of its loop is that the bytes it has written, and the borrow it carries, are those of
the subtraction of the bytes behind.
-/

set_option autoImplicit false

namespace OpenHes.Analysis

open OpenHes.Library OpenHes.Model

/-- INTERNAL: **nothing is lost** when a byte of the difference becomes an `unsigned char`. -/
theorem negate_byte_exact (a b : UInt8) (borrow : Bool) :
    let t : ℤ := a.toNat - b.toNat - borrow.toNat
    (t < 0 → (t + 0x100) % 256 = t + 256) ∧ (¬t < 0 → t % 256 = t) := by
  have ha := a.toNat_lt
  have hb := b.toNat_lt
  have hborrow := Bool.toNat_le borrow
  dsimp only
  constructor
  · intro ht
    omega
  · intro ht
    omega

/-- INTERNAL: **one step.** The bytes from `i` on, after the loop has written byte `i`. -/
theorem drop_set_cons (out : List UInt8) (i : ℕ) (c : UInt8) (hi : i < out.length) :
    (out.set i c).drop i = c :: out.drop (i + 1) := by
  rw [List.drop_eq_getElem_cons (by rw [List.length_set]; exact hi), List.getElem_set_self,
    List.drop_set_of_lt (Nat.lt_succ_self i)]

/-- INTERNAL: **the loop** subtracts, from any byte on behind which this is done. -/
theorem scalarNegateLoop_subtracts (order d : List UInt8) (horder : order.length = d.length)
    (i : ℕ) (out : List UInt8) (hout : out.length = d.length) (hi : i ≤ d.length)
    (hdone : out.drop i = (subtractBytes (order.drop i) (d.drop i)).1) :
    scalarNegateLoop order d i (subtractBytes (order.drop i) (d.drop i)).2.toNat out =
      (subtractBytes order d).1 := by
  induction i generalizing out with
  | zero => simpa [scalarNegateLoop] using hdone
  | succ i ih =>
    have hd : i < d.length := hi
    have ho : i < order.length := horder ▸ hd
    have hw : i < out.length := hout ▸ hd
    have hnext := fun out hout => ih out hout hd.le
    obtain ⟨hborrows, hfits⟩ := negate_byte_exact order[i] d[i]
      (subtractBytes (order.drop (i + 1)) (d.drop (i + 1))).2
    rw [List.drop_eq_getElem_cons ho, List.drop_eq_getElem_cons hd, subtractBytes] at hnext
    rw [scalarNegateLoop, List.getElem?_eq_getElem ho, List.getElem?_eq_getElem hd,
      Option.getD_some, Option.getD_some]
    have hset : ∀ byte, (out.set i byte).length = d.length ∧ (out.set i byte).drop i =
        byte :: (subtractBytes (order.drop (i + 1)) (d.drop (i + 1))).1 := by
      intro byte
      rw [List.length_set, drop_set_cons out i byte hw, hdone]
      exact ⟨hout, rfl⟩
    split at hnext
    next ht =>
      rw [if_pos ht, hborrows ht]
      exact hnext _ (hset _).1 (hset _).2
    next ht =>
      rw [if_neg ht, hfits ht]
      exact hnext _ (hset _).1 (hset _).2

/-- INTERNAL: **the source's loop** fills its array with the difference, whatever was there. -/
theorem scalarNegateInto_eq (d out : List UInt8) (hd : d.length = idIdentityKeyBytes)
    (hout : out.length = idIdentityKeyBytes) :
    scalarNegateInto d out = scalarNegate p256Order d := by
  have horder : p256Order.length = idIdentityKeyBytes := rfl
  have hrest : ∀ bytes : List UInt8, bytes.length = idIdentityKeyBytes →
      bytes.drop idIdentityKeyBytes = [] := fun bytes h => List.drop_of_length_le h.le
  have hloop := scalarNegateLoop_subtracts p256Order d (horder.trans hd.symm) idIdentityKeyBytes
    out (hout.trans hd.symm) hd.ge
  rw [hrest out hout, hrest d hd, hrest p256Order horder] at hloop
  exact hloop rfl

/-- **The negative of a scalar.** For every scalar of the group that is not zero, whatever the
array held before: what the loop leaves there is the order less the scalar, a scalar that is not
zero again, and a second call gives the first scalar back.
SRCLINE: id.c:239-256 -/
theorem scalar_negated (d out : List UInt8) (hd : d.length = idIdentityKeyBytes)
    (hout : out.length = idIdentityKeyBytes) (hpos : 0 < beValue d)
    (hlt : beValue d < beValue p256Order) :
    beValue (scalarNegateInto d out) = beValue p256Order - beValue d ∧
      (scalarNegateInto d out).length = idIdentityKeyBytes ∧
      1 ≤ beValue (scalarNegateInto d out) ∧
      beValue (scalarNegateInto d out) ≤ beValue p256Order - 1 ∧
      ∀ again : List UInt8, again.length = idIdentityKeyBytes →
        scalarNegateInto (scalarNegateInto d out) again = d := by
  have hlen : p256Order.length = d.length := hd.symm
  have hvalue : beValue (scalarNegate p256Order d) = beValue p256Order - beValue d :=
    beValue_subtractBytes_of_le p256Order d hlen hlt.le
  have hlength : (scalarNegate p256Order d).length = idIdentityKeyBytes :=
    length_subtractBytes p256Order d hlen
  rw [scalarNegateInto_eq d out hd hout]
  refine ⟨hvalue, hlength, by omega, by omega, fun again hagain => ?_⟩
  rw [scalarNegateInto_eq _ again hlength hagain]
  exact subtractBytes_subtractBytes p256Order d hlen hlt.le

example : beValue p256Order =
    115792089210356248762697446949407573529996955224135760342422259061068512044369 := by
  decide +kernel

/-- A scalar whose negative borrows at every byte from the last to the fourth. -/
theorem scalar_negated_ripple :
    beValue (scalarNegateInto (beBytes 32 (2 ^ 192 - 1)) (List.replicate 32 0)) =
      beValue p256Order - beValue (beBytes 32 (2 ^ 192 - 1)) :=
  (scalar_negated (beBytes 32 (2 ^ 192 - 1)) (List.replicate 32 0) rfl rfl (by decide +kernel)
    (by decide +kernel)).1

end OpenHes.Analysis
