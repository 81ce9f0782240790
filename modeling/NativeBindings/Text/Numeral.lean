import NativeBindings.Text.Blank
import NativeBindings.Text.DecimalDigit

/-!
# Integers written as text

A value in a header description may be an integer in text form: an optional sign and decimal
digits of any script, single underscores between digits, and blanks around the whole. The four
ASCII separators, though blank elsewhere, do not count as blanks here.
-/

namespace NativeBindings.Text

/-- A blank that may stand around an integer. -/
def isNumeralBlank (c : Char) : Bool :=
  isBlank c && !(0x1C ≤ c.toNat && c.toNat ≤ 0x1F)

/-- The value of decimal digits with single underscores between them. -/
def groupedDigits? : List Char → Option (List Nat)
  | [] => none
  | [c] => (digitValue? c).map ([·])
  | c :: '_' :: rest => return (← digitValue? c) :: (← groupedDigits? rest)
  | c :: rest => return (← digitValue? c) :: (← groupedDigits? rest)

/-- The integer that a text spells. -/
def integer? (s : String) : Option Int :=
  let body := ((s.toList.dropWhile isNumeralBlank).reverse.dropWhile isNumeralBlank).reverse
  match body with
  | '-' :: rest => (groupedDigits? rest).map fun ds => -(numberOfDigits ds : Int)
  | '+' :: rest => (groupedDigits? rest).map fun ds => (numberOfDigits ds : Int)
  | rest => (groupedDigits? rest).map fun ds => (numberOfDigits ds : Int)

end NativeBindings.Text
