import OpenHes.Library.Binary64

/-!
# Hexadecimal text

Bytes written as two digits each, in one case, and read back two characters at a time by
`scanf`'s `%2x`. The reader takes digits of either case, and also what `%x` takes besides
two digits: a blank or a sign before one digit, and a digit with something else behind it, a
"0x" with no digit behind it among them.
-/

set_option autoImplicit false

namespace OpenHes.Library

open Binary64 (hexValue isSpace)

/-- A digit in upper case. -/
def upperDigit (n : ℕ) : UInt8 := UInt8.ofNat (if n < 10 then 48 + n else 55 + n)

/-- A digit in lower case. -/
def lowerDigit (n : ℕ) : UInt8 := UInt8.ofNat (if n < 10 then 48 + n else 87 + n)

/-- The two digits of a byte. -/
def hexPair (digit : ℕ → UInt8) (b : UInt8) : CStr := [digit (b.toNat / 16), digit (b.toNat % 16)]

/-- The digits of a run of bytes. -/
def hexText (digit : ℕ → UInt8) (data : List UInt8) : CStr := data.flatMap (hexPair digit)

/-- `sscanf` with `%2x` on a text of two characters, cut to a byte. A digit with no other behind
it is the number, and so is the zero of a "0x" that no digit follows, as glibc reads it. -/
def scanHexPair (a b : UInt8) : Option UInt8 :=
  match hexValue a, hexValue b with
  | some x, some y => some (UInt8.ofNat (16 * x + y))
  | some x, none => some (UInt8.ofNat x)
  | none, some y =>
    if isSpace a || a = 43 then some (UInt8.ofNat y)
    else if a = 45 then some (0 - UInt8.ofNat y)
    else none
  | none, none => none

/-- A text read pair by pair. -/
def scanHexPairs : CStr → Option (List UInt8)
  | [] => some []
  | [_] => none
  | a :: b :: rest => (scanHexPair a b).bind fun x => (scanHexPairs rest).map (x :: ·)

/-- A digit function writes digits that the reader takes for what they are. -/
def WritesHex (digit : ℕ → UInt8) : Prop := ∀ n < 16, hexValue (digit n) = some n

/-- INTERNAL: upper case does. -/
theorem writesHex_upper : WritesHex upperDigit := by
  unfold WritesHex
  decide

/-- INTERNAL: lower case does. -/
theorem writesHex_lower : WritesHex lowerDigit := by
  unfold WritesHex
  decide

variable {digit : ℕ → UInt8}

/-- INTERNAL: each byte is written in two digits. -/
@[simp] theorem length_hexText (data : List UInt8) :
    (hexText digit data).length = 2 * data.length := by
  induction data with
  | nil => rfl
  | cons b rest ih =>
    simp only [hexText, List.flatMap_cons, List.length_append, hexPair, List.length_cons,
      List.length_nil] at ih ⊢
    omega

/-- INTERNAL: the digits of a byte are read back as the byte. -/
theorem scanHexPair_digits (h : WritesHex digit) (b : UInt8) :
    scanHexPair (digit (b.toNat / 16)) (digit (b.toNat % 16)) = some b := by
  have hb := b.toNat_lt
  unfold scanHexPair
  rw [h (b.toNat / 16) (by omega), h (b.toNat % 16) (by omega)]
  have hsum : 16 * (b.toNat / 16) + b.toNat % 16 = b.toNat := by omega
  simp only [hsum, UInt8.ofNat_toNat]

/-- INTERNAL: **round trip.** Bytes written as digits are read back. -/
theorem scanHexPairs_hexText (h : WritesHex digit) (data : List UInt8) :
    scanHexPairs (hexText digit data) = some data := by
  induction data with
  | nil => rfl
  | cons b rest ih =>
    change (scanHexPair (digit (b.toNat / 16)) (digit (b.toNat % 16))).bind
      (fun x => (scanHexPairs (hexText digit rest)).map (x :: ·)) = _
    rw [scanHexPair_digits h b, ih]
    rfl

/-- INTERNAL: a text that was read has two characters for each byte. -/
theorem length_of_scanHexPairs (text : CStr) (data : List UInt8)
    (h : scanHexPairs text = some data) : text.length = 2 * data.length := by
  fun_induction scanHexPairs text generalizing data with
  | case1 =>
    obtain rfl := Option.some.inj h
    rfl
  | case2 => cases h
  | case3 a b rest ih =>
    obtain ⟨x, -, hx⟩ := Option.bind_eq_some_iff.mp h
    obtain ⟨xs, hxs, rfl⟩ := Option.map_eq_some_iff.mp hx
    have hlen := ih xs hxs
    simp only [List.length_cons]
    omega

/-- INTERNAL: a digit that is written is no character that separates records. -/
theorem hexText_forall (P : UInt8 → Prop) (hP : ∀ n < 16, P (digit n)) (data : List UInt8) :
    ∀ c ∈ hexText digit data, P c := by
  intro c hc
  obtain ⟨b, -, hmem⟩ := List.mem_flatMap.mp hc
  have hb := b.toNat_lt
  simp only [hexPair, List.mem_cons, List.not_mem_nil, or_false] at hmem
  rcases hmem with rfl | rfl
  · exact hP _ (by omega)
  · exact hP _ (by omega)

end OpenHes.Library
