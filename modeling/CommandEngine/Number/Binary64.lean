/-!
# Binary64 numbers

A finite binary64 number (the IEEE 754 double format) is a sign and a value `significand * 2 ^ exponent`, with the
significand below 2^53 and the exponent from -1074 to 971; a normal number has a significand of at least 2^52, and a
number below 2^-1022 has the least exponent. Zero is the significand 0.

`Binary64.ofDecimal` rounds a decimal `mantissa * 10 ^ exponent` to the nearest such number, a tie to the even
significand, in exact arithmetic. A decimal that rounds to 2^1024 or beyond has no such number; one below half the
least positive number rounds to zero.
-/

namespace CommandEngine

/-- A finite binary64 number: a sign and the value `significand * 2 ^ exponent`. -/
structure Binary64 where
  negative : Bool
  significand : Nat
  exponent : Int
  deriving DecidableEq, Repr, Inhabited

namespace Binary64

/-- The least exponent, that of the numbers below 2^-1022. -/
def minExponent : Int := -1074

/-- The greatest exponent of a finite number. -/
def maxExponent : Int := 971

/-- The number of bits of a significand. -/
def precision : Nat := 53

/-- The number of decimal digits of `n`, one for zero. -/
def decimalLength (n : Nat) : Nat :=
  (toString n).length

/-- `a / b` rounded to the nearest integer, a tie to the even one. -/
def roundHalfEven (a b : Nat) : Nat :=
  let q := a / b
  let r := a % b
  if 2 * r > b then q + 1
  else if 2 * r < b then q
  else q + q % 2

/-- `num / den * 2 ^ -e`, as a numerator and a denominator. -/
def scaleByTwo (num den : Nat) (e : Int) : Nat × Nat :=
  if e ≥ 0 then (num, den * Nat.pow 2 e.toNat) else (num * Nat.pow 2 (-e).toNat, den)

/-- The exponent `k` with `2 ^ k ≤ num / den < 2 ^ (k + 1)`, for positive `num` and `den`. -/
def log2Floor (num den : Nat) : Int :=
  let t : Int := (Nat.log2 num : Int) - (Nat.log2 den : Int)
  let (a, b) := scaleByTwo num den t
  if a ≥ b then t else t - 1

/-- The nearest binary64 number to `num / den` with the given sign, for positive `num` and `den`; none when it lies
beyond the greatest finite number. -/
def ofRatio (negative : Bool) (num den : Nat) : Option Binary64 :=
  let e := max (log2Floor num den - (precision - 1 : Nat)) minExponent
  let (a, b) := scaleByTwo num den e
  let m := roundHalfEven a b
  let (m, e) := if m = Nat.pow 2 precision then (Nat.pow 2 (precision - 1), e + 1) else (m, e)
  if e > maxExponent then none else some ⟨negative, m, e⟩

/-- The nearest binary64 number to `mantissa * 10 ^ exponent` with the given sign; none when it lies beyond the
greatest finite number. -/
def ofDecimal (negative : Bool) (mantissa : Nat) (exponent : Int) : Option Binary64 :=
  if mantissa = 0 then some ⟨negative, 0, minExponent⟩
  else
    let magnitude := (decimalLength mantissa : Int) + exponent
    if magnitude > 309 then none
    else if magnitude ≤ -324 then some ⟨negative, 0, minExponent⟩
    else if exponent ≥ 0 then ofRatio negative (mantissa * Nat.pow 10 exponent.toNat) 1
    else ofRatio negative mantissa (Nat.pow 10 (-exponent).toNat)

end Binary64

end CommandEngine
