import NativeBindings.Decimal.Binary64

/-!
# Shortest decimals

A floating-point number is shown by the fewest decimal digits that read back as that number; of
several such decimals the nearest one, and of two equally near the one with the even last digit.
For each count of digits the decimals of that length around the number lie on a grid, and only its
two neighbours on the grid need to be tried.

The layout is positional while the leading digit stands for 10⁻⁴ up to 10¹⁵, always with a digit
on both sides of the point, and otherwise has an exponent with a sign and at least two digits.
-/

namespace NativeBindings

/-- A decimal number: digits and the power of ten of the last one. -/
structure Decimal where
  digits : Nat
  exponent : Int
  deriving DecidableEq, Repr

namespace Decimal

/-- Drops zeros at the end of the digits. The first argument bounds their number. -/
def dropZeros : Nat → Decimal → Decimal
  | 0, d => d
  | n + 1, d =>
    if d.digits ≠ 0 ∧ d.digits % 10 = 0 then dropZeros n ⟨d.digits / 10, d.exponent + 1⟩ else d

/-- The digits, with the point or exponent where the layout wants it. -/
def layout (d : Decimal) : String :=
  let digits := Nat.toDigits 10 d.digits
  let count := digits.length
  let point : Int := d.exponent + count
  if point ≤ -4 ∨ 16 < point then
    let fraction := if count = 1 then [] else '.' :: digits.drop 1
    let e := point - 1
    let exponentDigits := Nat.toDigits 10 e.natAbs
    let padded := if exponentDigits.length = 1 then '0' :: exponentDigits else exponentDigits
    String.ofList (digits.take 1 ++ fraction ++ 'e' :: (if e < 0 then '-' else '+') :: padded)
  else if point ≤ 0 then
    String.ofList ('0' :: '.' :: List.replicate (-point).toNat '0' ++ digits)
  else
    let whole := digits.take point.toNat ++ List.replicate (point.toNat - count) '0'
    let fraction := digits.drop point.toNat
    String.ofList (whole ++ '.' :: (if fraction.isEmpty then ['0'] else fraction))

end Decimal

namespace Binary64

/-- The least `k` with `m * 2 ^ q < 10 ^ k`, for positive `m`. Scaling by a power of ten above every
finite number makes the quotient count all leading digits. -/
def decimalScale (m : Nat) (q : Int) : Int :=
  (digitCount (m * twoTo q * tenTo 400 / twoTo (-q)) : Int) - 400

/-- The decimal `n * 10 ^ e` as a candidate for `m * 2 ^ q`: kept when it reads back. -/
def readsBack (m : Nat) (q : Int) (d : Decimal) : Bool :=
  ofDecimal false d.digits d.exponent == finite false m q

/-- The best decimal on the grid of step `10 ^ e`, if one of the two neighbours reads back. -/
def onGrid? (m : Nat) (q e : Int) : Option Decimal :=
  let num := m * twoTo q * tenTo (-e)
  let den := twoTo (-q) * tenTo e
  let below := num / den
  let lower : Decimal := ⟨below, e⟩
  let upper : Decimal := ⟨below + 1, e⟩
  match readsBack m q lower && below != 0, readsBack m q upper with
  | true, true =>
    let twice := 2 * (num % den)
    if twice < den ∨ (twice = den ∧ below % 2 = 0) then some lower else some upper
  | true, false => some lower
  | false, true => some upper
  | false, false => none

/-- The shortest decimal for a positive number. Seventeen digits always suffice; were that not so,
the exact value would be shown. -/
def shortest (m : Nat) (q : Int) : Decimal :=
  let k := decimalScale m q
  let found := (List.range 17).findSome? fun (n : Nat) => onGrid? m q (k - (n + 1))
  let exact : Decimal := ⟨m * twoTo q * Nat.pow 5 (-q).toNat, min q 0⟩
  let d := found.getD exact
  d.dropZeros (digitCount d.digits)

/-- The number in decimal, or a word for what is none. -/
def render : Binary64 → String
  | nan => "nan"
  | infinite negative => if negative then "-inf" else "inf"
  | finite negative m q =>
    let sign := if negative then "-" else ""
    if m = 0 then sign ++ "0.0" else sign ++ (shortest m q).layout

end Binary64

end NativeBindings
