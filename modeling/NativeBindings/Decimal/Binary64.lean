/-!
# Binary floating-point numbers

A number with a point or an exponent in a header description stands for the nearest binary
floating-point number of 64 bits. Here such a number is a significand times a power of two, and
reading a decimal is one exact division, rounded to nearest with ties to the even significand.
-/

namespace NativeBindings

/-- A binary floating-point number of 64 bits. -/
inductive Binary64 where
  | nan
  | infinite (negative : Bool)
  /-- The number `significand * 2 ^ exponent`, with its sign. -/
  | finite (negative : Bool) (significand : Nat) (exponent : Int)
  deriving DecidableEq, Repr

namespace Binary64

/-- The exponent of the least positive number. -/
def minExponent : Int := -1074

/-- The exponent of the greatest finite number. -/
def maxExponent : Int := 971

/-- The quotient rounded to the nearest integer, a tie to the even one. -/
def roundQuotient (num den : Nat) : Nat :=
  let q := num / den
  let twice := 2 * (num % den)
  if twice < den then q
  else if den < twice then q + 1
  else if q % 2 = 0 then q else q + 1

/-- Two to the power of an exponent; one if the exponent is negative. -/
def twoTo (e : Int) : Nat := Nat.pow 2 e.toNat

/-- Ten to the power of an exponent; one if the exponent is negative. -/
def tenTo (e : Int) : Nat := Nat.pow 10 e.toNat

/-- The greatest `e` with `2 ^ e ≤ num / den`, for positive `num` and `den`. -/
def binaryScale (num den : Nat) : Int :=
  let e : Int := (num.log2 : Int) - den.log2
  if num * twoTo (-e) < den * twoTo e then e - 1 else e

/-- The nearest number to a positive quotient. -/
def ofQuotient (negative : Bool) (num den : Nat) : Binary64 :=
  let q := max (binaryScale num den - 52) minExponent
  let m := roundQuotient (num * twoTo (-q)) (den * twoTo q)
  let (m, q) := if m = twoTo 53 then (twoTo 52, q + 1) else (m, q)
  if maxExponent < q then infinite negative else finite negative m q

/-- The number of decimal digits of a natural number. -/
def digitCount (n : Nat) : Nat :=
  (Nat.toDigits 10 n).length

/-- The nearest number to `digits * 10 ^ exponent`. Magnitudes far outside the range are decided
by the position of the leading digit alone. -/
def ofDecimal (negative : Bool) (digits : Nat) (exponent : Int) : Binary64 :=
  let leading := exponent + digitCount digits
  if digits = 0 ∨ leading < -330 then finite negative 0 minExponent
  else if 310 < leading then infinite negative
  else ofQuotient negative (digits * tenTo exponent) (tenTo (-exponent))

/-- Whether the number is zero, of either sign. -/
def isZero : Binary64 → Bool
  | finite _ m _ => m == 0
  | _ => false

/-- The integer next to a finite number on the side of zero. -/
def truncate? : Binary64 → Option Int
  | finite negative m q =>
    let n : Int := (m * twoTo q / twoTo (-q) : Nat)
    some (if negative then -n else n)
  | _ => none

/-- The integer that a number is. A number with a fraction is none. -/
def integer? : Binary64 → Option Int
  | finite negative m q =>
    if m * twoTo q % twoTo (-q) = 0 then truncate? (finite negative m q) else none
  | _ => none

end Binary64

end NativeBindings
