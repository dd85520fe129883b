import OpenHes.Library.CString
import Mathlib.Data.Nat.Log
import Mathlib.Tactic.Linarith

/-!
# IEEE 754 binary64

The C type `double` as its 64 bits, with the arithmetic, the comparisons and the
two text conversions the C library gives it: `strtod` (what `atof` calls) and the
`%g` conversion of `printf`. Every operation is computed exactly on integers and
rounded once, to nearest with ties to even.

A NaN differs from everything, itself included; that is the only fact about the
format the comparisons need to be reasoned with.
-/

set_option autoImplicit false

namespace OpenHes.Library

/-- A binary64 datum: its 64 bits. -/
abbrev Binary64 := BitVec 64

namespace Binary64

/-! ## The format -/

/-- A finite datum is `(-1)^neg * mant * 2^exp`. -/
inductive View
  | nan
  | inf (neg : Bool)
  | fin (neg : Bool) (mant : ℕ) (exp : ℤ)

/-- The sign bit. -/
def sign (b : Binary64) : Bool := b.toNat / 2 ^ 63 = 1

/-- The bits below the sign bit. -/
def magnitude (b : Binary64) : ℕ := b.toNat % 2 ^ 63

/-- Reads the fields of a datum. -/
def view (b : Binary64) : View :=
  let frac : ℕ := b.toNat % 2 ^ 52
  let biased : ℕ := b.toNat / 2 ^ 52 % 2 ^ 11
  if biased = 2047 then (if frac = 0 then .inf (sign b) else .nan)
  else if biased = 0 then .fin (sign b) frac (-1074)
  else .fin (sign b) (2 ^ 52 + frac) ((biased : ℤ) - 1075)

/-- Puts a sign bit on a magnitude. -/
def pack (neg : Bool) (mag : ℕ) : Binary64 :=
  BitVec.ofNat 64 ((if neg then 2 ^ 63 else 0) + mag)

/-- The quiet NaN. -/
def nan : Binary64 := pack false (2047 * 2 ^ 52 + 2 ^ 51)

/-- An infinity. -/
def inf (neg : Bool) : Binary64 := pack neg (2047 * 2 ^ 52)

/-- Is the datum a NaN? -/
def isNaN (b : Binary64) : Bool := 2047 * 2 ^ 52 < magnitude b

/-- Rounds `m * 2^e` (plus something below one unit of `m` when `sticky`) to nearest,
ties to even. The carry out of the significand moves into the exponent field by
itself. -/
def round (neg : Bool) (m : ℕ) (e : ℤ) (sticky : Bool) : Binary64 :=
  if m = 0 then pack neg 0
  else
    let unit := max (e + (m.log2 + 1) - 53) (-1074)
    let shift := unit - e
    let q :=
      if shift ≤ 0 then m * 2 ^ (-shift).toNat
      else
        let d := 2 ^ shift.toNat
        let twice := 2 * (m % d)
        if d < twice || (twice = d && (sticky || m / d % 2 = 1)) then m / d + 1 else m / d
    pack neg (min ((unit + 1074).toNat * 2 ^ 52 + q) (2047 * 2 ^ 52))

/-! ## Arithmetic -/

/-- Flips the sign bit. -/
def neg (a : Binary64) : Binary64 := pack (!sign a) (magnitude a)

/-- The sum of two finite data. -/
def addFin (na : Bool) (ma : ℕ) (ea : ℤ) (nb : Bool) (mb : ℕ) (eb : ℤ) : Binary64 :=
  let e := min ea eb
  let a : ℤ := (if na then -1 else 1) * (ma * 2 ^ (ea - e).toNat : ℕ)
  let b : ℤ := (if nb then -1 else 1) * (mb * 2 ^ (eb - e).toNat : ℕ)
  if a + b = 0 then pack (na && nb) 0
  else round (a + b < 0) (a + b).natAbs e false

/-- `a + b`. -/
def add (a b : Binary64) : Binary64 :=
  match view a, view b with
  | .nan, _ => a
  | _, .nan => b
  | .inf na, .inf nb => if na = nb then a else nan
  | .inf _, .fin .. => a
  | .fin .., .inf _ => b
  | .fin na ma ea, .fin nb mb eb => addFin na ma ea nb mb eb

/-- `a - b`. -/
def sub (a b : Binary64) : Binary64 := add a (neg b)

/-- `a * b`. -/
def mul (a b : Binary64) : Binary64 :=
  match view a, view b with
  | .nan, _ => a
  | _, .nan => b
  | .inf na, .inf nb => inf (na ^^ nb)
  | .inf na, .fin nb mb _ => if mb = 0 then nan else inf (na ^^ nb)
  | .fin na ma _, .inf nb => if ma = 0 then nan else inf (na ^^ nb)
  | .fin na ma ea, .fin nb mb eb => round (na ^^ nb) (ma * mb) (ea + eb) false

/-- `ma / mb * 2^e` rounded; 110 more bits in the quotient leave the remainder only
its sticky bit to say. -/
def quotient (neg : Bool) (ma mb : ℕ) (e : ℤ) : Binary64 :=
  let num := ma * 2 ^ 110
  round neg (num / mb) (e - 110) (num % mb ≠ 0)

/-- `a / b`. -/
def div (a b : Binary64) : Binary64 :=
  match view a, view b with
  | .nan, _ => a
  | _, .nan => b
  | .inf _, .inf _ => nan
  | .inf na, .fin nb _ _ => inf (na ^^ nb)
  | .fin na _ _, .inf nb => pack (na ^^ nb) 0
  | .fin na ma ea, .fin nb mb eb =>
    if mb = 0 then (if ma = 0 then nan else inf (na ^^ nb))
    else quotient (na ^^ nb) ma mb (ea - eb)

/-! ## Comparisons -/

/-- Sign-magnitude bits order the data that are no NaN; the two zeros meet. -/
def key (a : Binary64) : ℤ := if sign a then -(magnitude a : ℤ) else magnitude a

/-- `a < b`. -/
def lt (a b : Binary64) : Bool := !isNaN a && !isNaN b && key a < key b

/-- `a == b`. -/
def eq (a b : Binary64) : Bool := !isNaN a && !isNaN b && key a = key b

/-- INTERNAL: a datum equals itself exactly when it is no NaN. -/
theorem eq_self_iff (a : Binary64) : eq a a = true ↔ isNaN a = false := by
  simp [eq]

/-- INTERNAL: what something equals is no NaN, so it equals itself. -/
theorem eq_refl_right (a b : Binary64) (h : eq a b = true) : eq b b = true := by
  rw [eq_self_iff]
  simp only [eq, Bool.and_eq_true, Bool.not_eq_true'] at h
  exact h.1.2

/-! ## Text -/

/-- Is the byte one of `isspace`? -/
def isSpace (c : UInt8) : Bool := c = 32 || (9 ≤ c && c ≤ 13)

/-- Is the byte a decimal digit? -/
def isDigit (c : UInt8) : Bool := 48 ≤ c && c ≤ 57

/-- The value of a hexadecimal digit. -/
def hexValue (c : UInt8) : Option ℕ :=
  if isDigit c then some (c.toNat - 48)
  else if 97 ≤ c && c ≤ 102 then some (c.toNat - 87)
  else if 65 ≤ c && c ≤ 70 then some (c.toNat - 55)
  else none

/-- Lower case of an ASCII letter. -/
def lower (c : UInt8) : UInt8 := if 65 ≤ c && c ≤ 90 then c + 32 else c

/-- Drops a prefix written in lower case, whatever case the text has. -/
def dropPrefix (p s : CStr) : Option CStr :=
  if (s.take p.length).map lower = p then some (s.drop p.length) else none

/-- The value of a run of digits in a base. -/
def digitsValue (base : ℕ) (ds : CStr) : ℕ :=
  ds.foldl (fun n c => base * n + (hexValue c).getD 0) 0

/-- The optional sign in front of a number. -/
def readSign : CStr → Bool × CStr
  | [] => (false, [])
  | c :: s => if c = 45 then (true, s) else if c = 43 then (false, s) else (false, c :: s)

/-- An exponent part `e[+-]ddd` with the given letter; none when it is not there. -/
def readExponent (letter : UInt8) : CStr → ℤ
  | [] => 0
  | c :: s =>
    if lower c = letter then
      let (neg, s) := readSign s
      let n : ℤ := digitsValue 10 (s.takeWhile isDigit)
      if neg then -n else n
    else 0

/-- `digits [. digits]`: the digits without the point, how many stood after it, and the
rest; none when there is no digit. -/
def readDigits (isDig : UInt8 → Bool) (s : CStr) : Option (CStr × ℕ × CStr) :=
  let whole := s.takeWhile isDig
  let rest := s.dropWhile isDig
  let (frac, rest) :=
    match rest with
    | c :: t => if c = 46 then (t.takeWhile isDig, t.dropWhile isDig) else ([], rest)
    | [] => ([], [])
  if whole = [] && frac = [] then none else some (whole ++ frac, frac.length, rest)

/-- `m * 10^x`, rounded; far beyond the format's range it is an infinity or a zero. -/
def ofDecimal (neg : Bool) (m : ℕ) (x : ℤ) : Binary64 :=
  let size : ℤ := (Nat.toDigits 10 m).length
  if m = 0 then pack neg 0
  else if 400 < size + x then inf neg
  else if size + x < -400 then pack neg 0
  else if 0 ≤ x then round neg (m * 10 ^ x.toNat) 0 false
  else
    let den : ℕ := 10 ^ (-x).toNat
    let extra : ℕ := den.log2 + 64
    let num : ℕ := m * 2 ^ extra
    round neg (num / den) (-(extra : ℤ)) (num % den ≠ 0)

/-- The number after the sign, by the grammar of `strtod`. -/
def readUnsigned (neg : Bool) (s : CStr) : Binary64 :=
  if (dropPrefix (lit "inf") s).isSome then inf neg
  else if (dropPrefix (lit "nan") s).isSome then pack neg (magnitude nan)
  else
    match (dropPrefix (lit "0x") s).bind (readDigits fun c => (hexValue c).isSome) with
    | some (ds, frac, rest) =>
      round neg (digitsValue 16 ds) (readExponent 112 rest - 4 * frac) false
    | none =>
      match readDigits isDigit s with
      | some (ds, frac, rest) => ofDecimal neg (digitsValue 10 ds) (readExponent 101 rest - frac)
      | none => pack false 0

/-- `atof`: the number at the start of the text, 0 when there is none. -/
def atof (s : CStr) : Binary64 :=
  let (neg, rest) := readSign (s.dropWhile isSpace)
  readUnsigned neg rest

/-- The decimal text of a natural number. -/
def decimal (n : ℕ) : CStr := (Nat.toDigits 10 n).map fun c => UInt8.ofNat c.toNat

/-- Drops the zeros at the end of a run of digits. -/
def stripZeros (ds : CStr) : CStr := (ds.reverse.dropWhile (· = 48)).reverse

/-- Digits, and a point with more digits when there are any left. -/
def pointed (whole frac : CStr) : CStr :=
  let frac := stripZeros frac
  if frac = [] then whole else whole ++ 46 :: frac

/-- The six significant digits of `num / den` and the exponent of the first one, ties
to even. -/
def sixDigits (num den : ℕ) : ℕ × ℤ :=
  let x : ℤ :=
    if den ≤ num then ((Nat.toDigits 10 (num / den)).length : ℤ) - 1
    else -((Nat.toDigits 10 ((den + num - 1) / num - 1)).length : ℤ)
  let n := num * 10 ^ (5 - x).toNat
  let d := den * 10 ^ (x - 5).toNat
  let twice := 2 * (n % d)
  let q := if d < twice || (twice = d && n / d % 2 = 1) then n / d + 1 else n / d
  if q = 10 ^ 6 then (10 ^ 5, x + 1) else (q, x)

/-- `%g` of a finite positive `num / den`. -/
def fmtPositive (num den : ℕ) : CStr :=
  let (q, x) := sixDigits num den
  let ds := decimal q
  if -4 ≤ x && x < 6 then
    if 0 ≤ x then pointed (ds.take (x.toNat + 1)) (ds.drop (x.toNat + 1))
    else pointed [48] (List.replicate ((-x).toNat - 1) 48 ++ ds)
  else
    let ex := decimal x.natAbs
    pointed (ds.take 1) (ds.drop 1) ++ 101 :: (if x < 0 then 45 else 43) ::
      (if ex.length < 2 then 48 :: ex else ex)

/-- `%g`. -/
def fmtG (a : Binary64) : CStr :=
  let sgn : CStr := if sign a then [45] else []
  match view a with
  | .nan => sgn ++ lit "nan"
  | .inf _ => sgn ++ lit "inf"
  | .fin _ m e =>
    if m = 0 then sgn ++ [48]
    else sgn ++ fmtPositive (m * 2 ^ e.toNat) (2 ^ (-e).toNat)

end Binary64

end OpenHes.Library
