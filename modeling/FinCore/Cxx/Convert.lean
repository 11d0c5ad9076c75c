/-
  FinCore.Cxx.Convert
  ───────────────────
  The numeric conversions of the standard library: `std::stod`, `std::stoll`,
  `std::stoull`, `std::from_chars` and `istream >> int`.

  Each reads the longest numeral at the start of the text, past white space,
  and ignores what follows it; `std::stod` rounds its number to the nearest
  `double`.  The functions that throw name themselves in the exception, as the
  library does.
-/
import FinCore.Cxx.FloatFormat

namespace FinCore.Cxx

/-- Why a conversion failed. -/
inductive ConvertError where
  /-- `std::invalid_argument`: no numeral. -/
  | noConversion
  /-- `std::out_of_range`. -/
  | range
  deriving DecidableEq

/-- `std::isspace` in the C locale. -/
def isSpace (c : Char) : Bool := c = ' ' || ('\t'.toNat ≤ c.toNat && c.toNat ≤ '\r'.toNat)

/-! ## §1. Integers. -/

/-- The numeral at the start of a text: white space, a sign and digits. -/
structure IntegerScan where
  sign : Sign
  digits : Str
  /-- The characters up to the end of the numeral. -/
  consumed : ℕ

def scanInteger (s : Str) : IntegerScan :=
  let (sign, body) := Sign.split (s.dropWhile isSpace)
  let digits := body.takeWhile Char.isDigit
  { sign := sign, digits := digits
    consumed := (s.takeWhile isSpace).length + sign.text.length + digits.length }

/-- The integer a scan denotes. -/
def IntegerScan.value (scan : IntegerScan) : ℤ := scan.sign.apply (digitsValue scan.digits : ℤ)

/-- `std::stoll(s)`. -/
def stoll (s : Str) : Except ConvertError Int64 :=
  let scan := scanInteger s
  if scan.digits = [] then .error .noConversion
  else if -2 ^ 63 ≤ scan.value ∧ scan.value < 2 ^ 63 then .ok (Int64.ofInt scan.value)
  else .error .range

/-- `std::stoull(s, &consumed)`: the range check is on the magnitude, and a
minus sign negates modulo `2 ^ 64`. -/
def stoull (s : Str) : Except ConvertError (UInt64 × ℕ) :=
  let scan := scanInteger s
  if scan.digits = [] then .error .noConversion
  else if digitsValue scan.digits < 2 ^ 64 then
    .ok (scan.sign.apply (UInt64.ofNat (digitsValue scan.digits)), scan.consumed)
  else .error .range

/-- `stream >> n` for an `int`; `none` when the stream fails. -/
def extractInt (s : Str) : Option ℤ :=
  let scan := scanInteger s
  if scan.digits ≠ [] ∧ -2 ^ 31 ≤ scan.value ∧ scan.value < 2 ^ 31 then some scan.value else none

/-- Strip a leading minus sign. -/
def splitMinus : Str → Sign × Str
  | '-' :: s => (.minus, s)
  | s => (.none, s)

/-- `std::from_chars(first, last, value)` for an `int64`, with what is left; no
white space and no plus sign is skipped. -/
def fromCharsInt64 (s : Str) : Option (Int64 × Str) :=
  let (sign, body) := splitMinus s
  let digits := body.takeWhile Char.isDigit
  let value : ℤ := sign.apply (digitsValue digits : ℤ)
  if digits ≠ [] ∧ -2 ^ 63 ≤ value ∧ value < 2 ^ 63 then
    some (Int64.ofInt value, body.dropWhile Char.isDigit)
  else none

/-! ## §2. Floating point. -/

def hexDigitOf (c : Char) : ℕ :=
  if c.isDigit then digitOf c else c.toLower.toNat - 'a'.toNat + 10

def isHexDigit (c : Char) : Bool := c.isDigit || ('a' ≤ c.toLower && c.toLower ≤ 'f')

def hexValue (s : Str) : ℕ := s.foldl (fun n c => n * 16 + hexDigitOf c) 0

/-- Digits, an optional point and digits; at least one digit in all.  The parts
and what follows them. -/
def scanMantissa (isDigit : Char → Bool) (s : Str) : Option (Str × Str × Str) :=
  let whole := s.takeWhile isDigit
  let (fraction, rest) :=
    match s.dropWhile isDigit with
    | '.' :: r => (r.takeWhile isDigit, r.dropWhile isDigit)
    | r => ([], r)
  if whole ++ fraction = [] then none else some (whole, fraction, rest)

/-- The exponent behind a mantissa, zero if there is none. -/
def scanExponent (mark : Char) : Str → ℤ
  | [] => 0
  | c :: rest =>
      if c.toLower = mark then
        let (sign, digits) := Sign.split rest
        sign.apply (digitsValue (digits.takeWhile Char.isDigit) : ℤ)
      else 0

/-- A decimal numeral without its sign. -/
def scanDecimal (s : Str) : Option Double :=
  (scanMantissa Char.isDigit s).map fun (whole, fraction, rest) =>
    .finite (digitsValue (whole ++ fraction) * 10 ^ (scanExponent 'e' rest - fraction.length))

/-- A hexadecimal numeral behind its `0x`. -/
def scanHex (s : Str) : Option Double :=
  (scanMantissa isHexDigit s).map fun (whole, fraction, rest) =>
    .finite (hexValue (whole ++ fraction) * 2 ^ (scanExponent 'p' rest - 4 * fraction.length))

/-- The numeral without its sign: `inf`, `nan`, hexadecimal or decimal. -/
def scanMagnitude (s : Str) : Option Double :=
  if "inf".toList <+: toLower s then some .posInf
  else if "nan".toList <+: toLower s then some .nan
  else if "0x".toList <+: toLower s then
    -- without a digit behind it, the `x` ends the numeral `0`
    (scanHex (s.drop 2)).orElse (fun _ => scanDecimal s)
  else scanDecimal s

/-- `ERANGE`: a number that rounds past the greatest double, or one that is
inexact and still below the normal numbers when rounded to 53 bits. -/
def Double.isOutOfRange : Double → Bool
  | .finite q =>
      -- at half a last place the even neighbour is the greater power of two
      decide (2 ^ 1024 - 2 ^ 970 ≤ |q|)
        || (decide (q ≠ 0 ∧ |q| < 1 / 2 ^ 1022 - 1 / 2 ^ 1076)
          && decide ((q * 2 ^ 1074).den ≠ 1))
  | _ => false

/-- A finite number rounded. -/
def Double.rounded (round : ℚ → ℚ) : Double → Double
  | .finite q => .finite (round q)
  | x => x

/-- `std::stod(s)`, by what finite numbers are rounded to. -/
def stodBy (round : ℚ → ℚ) (s : Str) : Except ConvertError Double :=
  let (sign, body) := Sign.split (s.dropWhile isSpace)
  match scanMagnitude body with
  | none => .error .noConversion
  | some x =>
      if x.isOutOfRange then .error .range
      else
        let number := x.rounded round
        .ok (if sign = .minus then number.neg else number)

/-- `std::stod(s)`. -/
def stod (s : Str) : Except ConvertError Double := stodBy FloatFormat.binary64.round s

/-- `std::stod(s)` where doubles are taken for exact rationals. -/
def stodExact (s : Str) : Except ConvertError Double := stodBy id s

example : stod "9007199254740993".toList = .ok (.finite 9007199254740992) := by decide +kernel

end FinCore.Cxx
