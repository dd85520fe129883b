import OpenHes.Library.CInt
import OpenHes.Library.Json

/-!
# JSON text

How a loader reads a text as a JSON value. The text is UTF-8, its tokens are scanned one
after another, and the values are put together from them. A text is either an object or an
array with nothing behind it but blanks.

A loader that scans as it goes fails where the first wrong byte or token stands; one that
is content has seen them all, so the text is checked and scanned as a whole here.
-/

set_option autoImplicit false

namespace OpenHes.Library

namespace Json

open Binary64

/-! ## UTF-8 -/

/-- How many bytes a sequence has that starts with the byte; 0 where none does. -/
def utf8CheckFirst (u : UInt8) : ℕ :=
  if u < 0x80 then 1
  else if 0xC2 ≤ u && u ≤ 0xDF then 2
  else if 0xE0 ≤ u && u ≤ 0xEF then 3
  else if 0xF0 ≤ u && u ≤ 0xF4 then 4
  else 0

/-- Is a sequence of two to four bytes a code point, written as short as it can be? -/
def utf8CheckFull (first : UInt8) (tail : List UInt8) : Bool :=
  let head := first.toNat % (if tail.length = 1 then 32 else if tail.length = 2 then 16 else 8)
  let value := tail.foldl (fun v b => 64 * v + b.toNat % 64) head
  let least := if tail.length = 1 then 0x80 else if tail.length = 2 then 0x800 else 0x10000
  tail.all (fun b => 0x80 ≤ b && b ≤ 0xBF) && value ≤ 0x10FFFF &&
    !(0xD800 ≤ value && value ≤ 0xDFFF) && least ≤ value

/-- Is the text UTF-8? -/
def utf8CheckString : CStr → Bool
  | [] => true
  | u :: rest =>
    match utf8CheckFirst u, rest with
    | 1, rest => utf8CheckString rest
    | 2, b :: rest => utf8CheckFull u [b] && utf8CheckString rest
    | 3, b :: c :: rest => utf8CheckFull u [b, c] && utf8CheckString rest
    | 4, b :: c :: d :: rest => utf8CheckFull u [b, c, d] && utf8CheckString rest
    | _, _ => false

/-- The bytes of a code point. -/
def utf8Encode (n : ℕ) : CStr :=
  if n < 0x80 then [UInt8.ofNat n]
  else if n < 0x800 then [UInt8.ofNat (0xC0 + n / 64), UInt8.ofNat (0x80 + n % 64)]
  else if n < 0x10000 then
    [UInt8.ofNat (0xE0 + n / 4096), UInt8.ofNat (0x80 + n / 64 % 64), UInt8.ofNat (0x80 + n % 64)]
  else
    [UInt8.ofNat (0xF0 + n / 262144), UInt8.ofNat (0x80 + n / 4096 % 64),
      UInt8.ofNat (0x80 + n / 64 % 64), UInt8.ofNat (0x80 + n % 64)]

/-! ## Tokens -/

/-- A token. -/
inductive Token
  | openBrace
  | closeBrace
  | openBracket
  | closeBracket
  | colon
  | comma
  | string (text : CStr)
  | integer (n : ℤ)
  | real (x : Binary64)
  | bool (b : Bool)
  | null
  deriving DecidableEq

/-- Do four hexadecimal digits stand here? -/
def fourHex (text : CStr) : Bool :=
  (text.take 4).length = 4 && (text.take 4).all fun c => (hexValue c).isSome

/-- Is `\e` the start of an escape? -/
def isEscape (e : UInt8) (rest : CStr) : Bool :=
  if e = 117 then fourHex rest else (lit "\"\\/bfnrt").contains e

/-- The text up to the quote that ends a string, escapes as they are written, and what
follows the quote. -/
def scanString : CStr → Option (CStr × CStr)
  | [] => none
  | c :: rest =>
    if c = 34 then some ([], rest)
    else if c < 32 then none
    else if c = 92 then
      match rest with
      | [] => none
      | e :: rest =>
        if isEscape e rest then (scanString rest).map fun p => (c :: e :: p.1, p.2) else none
    else (scanString rest).map fun p => (c :: p.1, p.2)

/-- The byte that a short escape stands for. -/
def shortEscape (e : UInt8) : UInt8 :=
  if e = 98 then 8 else if e = 102 then 12 else if e = 110 then 10
  else if e = 114 then 13 else if e = 116 then 9 else e

/-- The text that a scanned string stands for. The halves of a surrogate pair only stand
together. -/
def unescape : CStr → Option CStr
  | [] => some []
  | c :: rest =>
    if c = 92 then
      match rest with
      | [] => none
      | e :: rest =>
        if e = 117 then
          match rest with
          | h1 :: h2 :: h3 :: h4 :: rest =>
            let value := digitsValue 16 [h1, h2, h3, h4]
            if 0xD800 ≤ value && value ≤ 0xDBFF then
              match rest with
              | b :: u :: l1 :: l2 :: l3 :: l4 :: rest =>
                let low := digitsValue 16 [l1, l2, l3, l4]
                if b = 92 && u = 117 && 0xDC00 ≤ low && low ≤ 0xDFFF then
                  (unescape rest).map
                    (utf8Encode ((value - 0xD800) * 1024 + (low - 0xDC00) + 0x10000) ++ ·)
                else none
              | _ => none
            else if 0xDC00 ≤ value && value ≤ 0xDFFF then none
            else (unescape rest).map (utf8Encode value ++ ·)
          | _ => none
        else (unescape rest).map (shortEscape e :: ·)
    else (unescape rest).map (c :: ·)

/-- The value of a string token; a NUL may not be in it. -/
def stringValue (raw : CStr) : Option CStr := (unescape raw).filter fun text => !text.contains 0

/-- A minus sign in front. -/
def minusSign : CStr → Bool × CStr
  | [] => (false, [])
  | c :: rest => if c = 45 then (true, rest) else (false, c :: rest)

/-- What follows a point and its digits, if there is a point. -/
def skipFraction : CStr → Option CStr
  | [] => some []
  | c :: rest =>
    if c = 46 then
      if rest.takeWhile isDigit = [] then none else some (rest.dropWhile isDigit)
    else some (c :: rest)

/-- What follows an exponent, if there is one. -/
def skipExponent : CStr → Option CStr
  | [] => some []
  | c :: rest =>
    if c = 69 || c = 101 then
      let digits := (readSign rest).2
      if digits.takeWhile isDigit = [] then none else some (digits.dropWhile isDigit)
    else some (c :: rest)

/-- Does the number go on behind its integer part? -/
def goesOn (rest : CStr) : Bool :=
  match rest with
  | [] => false
  | c :: _ => c = 46 || c = 69 || c = 101

/-- A number: an integer that a `long long` holds, or a real that is not too large. -/
def scanNumber (text : CStr) : Option (Token × CStr) :=
  let (neg, unsigned) := minusSign text
  let whole := unsigned.takeWhile isDigit
  let rest := unsigned.dropWhile isDigit
  if whole = [] || (whole.head? = some 48 && 1 < whole.length) then none
  else if goesOn rest then
    ((skipFraction rest).bind skipExponent).bind fun after =>
      let x := atof (text.take (text.length - after.length))
      if magnitude x = 2047 * 2 ^ 52 then none else some (.real x, after)
  else
    let n : ℤ := if neg then -(digitsValue 10 whole : ℤ) else digitsValue 10 whole
    if FitsInt64 n then some (.integer n, rest) else none

/-- Is the byte an ASCII letter? -/
def isAlpha (c : UInt8) : Bool := (65 ≤ c && c ≤ 90) || (97 ≤ c && c ≤ 122)

/-- The words that are values. -/
def keyword (word : CStr) : Option Token :=
  if word = lit "true" then some (.bool true)
  else if word = lit "false" then some (.bool false)
  else if word = lit "null" then some .null
  else none

/-- The bytes that are tokens by themselves. -/
def punct (c : UInt8) : Option Token :=
  if c = 123 then some .openBrace
  else if c = 125 then some .closeBrace
  else if c = 91 then some .openBracket
  else if c = 93 then some .closeBracket
  else if c = 58 then some .colon
  else if c = 44 then some .comma
  else none

/-- The token that starts with the byte, and what follows it. -/
def lexScan (c : UInt8) (rest : CStr) : Option (Token × CStr) :=
  match punct c with
  | some t => some (t, rest)
  | none =>
    if c = 34 then
      (scanString rest).bind fun p => (stringValue p.1).map fun text => (.string text, p.2)
    else if isDigit c || c = 45 then scanNumber (c :: rest)
    else if isAlpha c then
      (keyword ((c :: rest).takeWhile isAlpha)).map fun t => (t, (c :: rest).dropWhile isAlpha)
    else none

/-- Is the byte a blank between tokens? -/
def isBlank (c : UInt8) : Bool := c = 32 || c = 9 || c = 10 || c = 13

/-- The tokens of a text that is no longer than `fuel`. -/
def lexAll : ℕ → CStr → Option (List Token)
  | _, [] => some []
  | 0, _ :: _ => none
  | fuel + 1, c :: rest =>
    if isBlank c then lexAll fuel rest
    else (lexScan c rest).bind fun p => (lexAll fuel p.2).map (p.1 :: ·)

/-- The tokens of a text. -/
def tokens (text : CStr) : Option (List Token) := lexAll text.length text

/-! ## Values -/

/-- The members of an object behind its brace. -/
def parseMembers (value : List Token → Option (Json × List Token)) :
    ℕ → List Token → Option (List (CStr × Json) × List Token)
  | fuel + 1, .string key :: .colon :: ts =>
    (value ts).bind fun (v, ts) =>
      match ts with
      | .comma :: ts => (parseMembers value fuel ts).map fun (ms, ts) => ((key, v) :: ms, ts)
      | .closeBrace :: ts => some ([(key, v)], ts)
      | _ => none
  | _, _ => none

/-- The elements of an array behind its bracket. -/
def parseElements (value : List Token → Option (Json × List Token)) :
    ℕ → List Token → Option (List Json × List Token)
  | 0, _ => none
  | fuel + 1, ts =>
    (value ts).bind fun (v, ts) =>
      match ts with
      | .comma :: ts => (parseElements value fuel ts).map fun (vs, ts) => (v :: vs, ts)
      | .closeBracket :: ts => some ([v], ts)
      | _ => none

/-- The value at the start of the tokens, nested at most `depth` deep. -/
def parseValue : ℕ → List Token → Option (Json × List Token)
  | 0, _ => none
  | _, [] => none
  | depth + 1, t :: ts =>
    match t with
    | .string text => some (.string text, ts)
    | .integer n => some (.integer n, ts)
    | .real x => some (.real x, ts)
    | .bool b => some (.bool b, ts)
    | .null => some (.null, ts)
    | .openBrace =>
      match ts with
      | .closeBrace :: ts => some (.object [], ts)
      | ts => (parseMembers (parseValue depth) ts.length ts).map fun (ms, ts) => (.object ms, ts)
    | .openBracket =>
      match ts with
      | .closeBracket :: ts => some (.array [], ts)
      | ts => (parseElements (parseValue depth) ts.length ts).map fun (vs, ts) => (.array vs, ts)
    | _ => none

/-- How deep values may be nested. -/
def parserMaxDepth : ℕ := 2048

/-- `json_loads`: the value of a text that is an object or an array. -/
def loads (text : CStr) : Option Json :=
  if utf8CheckString text then
    (tokens text).bind fun ts =>
      match ts with
      | .openBrace :: _ | .openBracket :: _ =>
        (parseValue parserMaxDepth ts).bind fun (v, rest) => if rest = [] then some v else none
      | _ => none
  else none

end Json

end OpenHes.Library
