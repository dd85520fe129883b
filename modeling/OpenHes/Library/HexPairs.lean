import OpenHes.Library.HexText

/-!
# What `%2x` takes for a pair of digits

The reader takes two digits, and also a digit with something else behind it, be it the 'x' of
"0x", or a blank or a sign before a digit. A text of which every pair is two digits is the digits
of its bytes, up to the case of its letters, and one with any other pair that is taken is not.
-/

set_option autoImplicit false

namespace OpenHes.Library

open Binary64 (hexValue isSpace)

/-- Is the byte a hexadecimal digit? -/
def isHexDigit (c : UInt8) : Bool := (hexValue c).isSome

/-- Upper case of an ASCII letter. -/
def upper (c : UInt8) : UInt8 := if 97 ≤ c && c ≤ 122 then c - 32 else c

/-- Two digits. -/
def strictPair (p : UInt8 × UInt8) : Bool := isHexDigit p.1 && isHexDigit p.2

/-- A digit and something that is none, as in "4g" and "0x", or a blank or a sign and a digit. -/
def loosePair (p : UInt8 × UInt8) : Bool :=
  (isHexDigit p.1 && !isHexDigit p.2) ||
    (!isHexDigit p.1 && (isSpace p.1 || p.1 = 43 || p.1 = 45) && isHexDigit p.2)

/-- The characters of a text two by two. -/
def pairsOf : CStr → List (UInt8 × UInt8)
  | a :: b :: rest => (a, b) :: pairsOf rest
  | _ => []

/-- INTERNAL: **what the reader takes** is two digits or one of the other pairs. -/
theorem scanHexPair_isSome (a b : UInt8) :
    (scanHexPair a b).isSome = (strictPair (a, b) || loosePair (a, b)) := by
  unfold scanHexPair strictPair loosePair isHexDigit
  cases hexValue a with
  | some x =>
    cases hexValue b with
    | some y => simp
    | none => simp
  | none =>
    cases hexValue b with
    | none => simp
    | some y =>
      by_cases hplus : (isSpace a || decide (a = 43)) = true
      · simp only [hplus, if_true]
        simp
      · by_cases hminus : a = 45
        · subst hminus
          rfl
        · simp [hplus, hminus]

/-- INTERNAL: a pair of digits is not a loose one. -/
theorem strictPair_not_loosePair (p : UInt8 × UInt8) (h : strictPair p = true) :
    loosePair p = false := by
  unfold strictPair at h
  rw [Bool.and_eq_true] at h
  simp [loosePair, h.1, h.2]

/-- INTERNAL: a text is read when it is taken pair by pair. -/
theorem scanHexPairs_isSome (text : CStr) :
    (scanHexPairs text).isSome ↔
      text.length % 2 = 0 ∧ ∀ p ∈ pairsOf text, strictPair p = true ∨ loosePair p = true := by
  fun_induction scanHexPairs text with
  | case1 => simp [pairsOf]
  | case2 => simp
  | case3 a b rest ih =>
    have hpair := scanHexPair_isSome a b
    cases hscan : scanHexPair a b with
    | none =>
      rw [hscan, Option.isSome_none, eq_comm, Bool.or_eq_false_iff] at hpair
      simp [pairsOf, hpair.1, hpair.2]
    | some x =>
      rw [hscan, Option.isSome_some, eq_comm, Bool.or_eq_true] at hpair
      simp only [Option.bind_some, Option.isSome_map, ih, List.length_cons, pairsOf,
        List.forall_mem_cons, hpair, true_and]
      have hparity : (rest.length + 1 + 1) % 2 = rest.length % 2 := by omega
      rw [hparity]

/-- INTERNAL: a text of whole pairs is all digits if each pair is. -/
theorem allDigits_iff (text : CStr) (heven : text.length % 2 = 0) :
    (∀ c ∈ text, isHexDigit c = true) ↔ ∀ p ∈ pairsOf text, strictPair p = true := by
  fun_induction pairsOf text with
  | case1 a b rest ih =>
    have hrest : rest.length % 2 = 0 := by
      simp only [List.length_cons] at heven
      omega
    simp only [List.forall_mem_cons, ih hrest, strictPair, Bool.and_eq_true, and_assoc]
  | case2 text hnot =>
    cases text with
    | nil => simp
    | cons a text =>
      cases text with
      | nil => simp at heven
      | cons b rest => exact absurd rfl (hnot a b rest)

/-- INTERNAL: a digit in upper case has the same value. -/
theorem upper_digit (c : UInt8) :
    isHexDigit (upper c) = isHexDigit c ∧
      ∀ x, hexValue c = some x → upperDigit x = upper c ∧ x < 16 := by
  show _ ∧ ∀ x ∈ hexValue c, _
  revert c
  apply forall_byte
  decide +kernel

/-- INTERNAL: two digits are the digits of the byte they stand for, in upper case. -/
theorem hexPair_of_strict (a b x : UInt8) (h : strictPair (a, b) = true)
    (hscan : scanHexPair a b = some x) : hexPair upperDigit x = [upper a, upper b] := by
  unfold strictPair isHexDigit at h
  rw [Bool.and_eq_true, Option.isSome_iff_exists, Option.isSome_iff_exists] at h
  obtain ⟨⟨u, hu⟩, ⟨v, hv⟩⟩ := h
  obtain ⟨hud, hu16⟩ := (upper_digit a).2 u hu
  obtain ⟨hvd, hv16⟩ := (upper_digit b).2 v hv
  unfold scanHexPair at hscan
  dsimp only at hu hv
  rw [hu, hv] at hscan
  obtain rfl := Option.some.inj hscan
  have hnat : (UInt8.ofNat (16 * u + v)).toNat = 16 * u + v := by
    rw [UInt8.toNat_ofNat']
    omega
  unfold hexPair
  have hhigh : (16 * u + v) / 16 = u := by omega
  have hlow : (16 * u + v) % 16 = v := by omega
  rw [hnat, hhigh, hlow, hud, hvd]

/-- INTERNAL: what strict pairs decode to is written as the text in upper case. -/
theorem hexText_of_strict (text : CStr) (data : List UInt8) (h : scanHexPairs text = some data)
    (hstrict : ∀ p ∈ pairsOf text, strictPair p = true) :
    hexText upperDigit data = text.map upper := by
  fun_induction scanHexPairs text generalizing data with
  | case1 =>
    obtain rfl := Option.some.inj h
    rfl
  | case2 => cases h
  | case3 a b rest ih =>
    obtain ⟨x, hx, hmap⟩ := Option.bind_eq_some_iff.mp h
    obtain ⟨xs, hxs, rfl⟩ := Option.map_eq_some_iff.mp hmap
    rw [pairsOf, List.forall_mem_cons] at hstrict
    have hhead := hexPair_of_strict a b x hstrict.1 hx
    have htail := ih xs hxs hstrict.2
    unfold hexText at htail ⊢
    rw [List.flatMap_cons, hhead, htail]
    rfl

/-- INTERNAL: **one spelling.** A text that is read is the digits of its bytes, up to the case of
its letters, exactly when it has no loose pair. -/
theorem upper_eq_hexText_iff (text : CStr) (data : List UInt8)
    (h : scanHexPairs text = some data) :
    text.map upper = hexText upperDigit data ↔ ∀ p ∈ pairsOf text, loosePair p = false := by
  obtain ⟨heven, hpairs⟩ := (scanHexPairs_isSome text).mp (by rw [h]; rfl)
  constructor
  · intro hspelled
    have hdigits : ∀ c ∈ text, isHexDigit c = true := by
      intro c hc
      rw [← (upper_digit c).1]
      apply @hexText_forall upperDigit (fun c => isHexDigit c = true) (by decide) data
      rw [← hspelled]
      exact List.mem_map_of_mem hc
    exact fun p hp => strictPair_not_loosePair p ((allDigits_iff text heven).mp hdigits p hp)
  · intro hnone
    refine (hexText_of_strict text data h fun p hp => (hpairs p hp).resolve_right ?_).symm
    rw [hnone p hp]
    exact Bool.false_ne_true

end OpenHes.Library
