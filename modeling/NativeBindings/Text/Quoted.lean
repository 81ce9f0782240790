import NativeBindings.Text.CodePoint
import NativeBindings.Text.Printable

/-!
# Quoted text in messages

A message shows a text between quotes, so that blanks and control characters in it can be seen.
The quote is `'`, unless the text holds a `'` and no `"`. The quote itself and the backslash are
written after a backslash, line feed, carriage return and tab have letters, and any other
code point that is not printable is written as its number in two, four or eight hexadecimal digits.
-/

namespace NativeBindings.Text

/-- One hexadecimal digit. -/
def hexDigit (n : Nat) : Char :=
  if n < 10 then Char.ofNat (48 + n) else Char.ofNat (87 + n)

/-- The last `width` hexadecimal digits of a number. -/
def hexDigits : (width n : Nat) → List Char
  | 0, _ => []
  | width + 1, n => hexDigits width (n / 16) ++ [hexDigit (n % 16)]

/-- The quote that surrounds a text. -/
def quoteFor (cs : List Char) : Char :=
  if cs.contains '\'' && !cs.contains '"' then '"' else '\''

/-- One character of a quoted text. -/
def quoteChar (quote c : Char) : List Char :=
  if c == quote || c == '\\' then ['\\', c]
  else if c == '\n' then ['\\', 'n']
  else if c == '\r' then ['\\', 'r']
  else if c == '\t' then ['\\', 't']
  else if isPrintable c then [c]
  else if c.toNat < 0x100 then '\\' :: 'x' :: hexDigits 2 c.toNat
  else if c.toNat < 0x10000 then '\\' :: 'u' :: hexDigits 4 c.toNat
  else '\\' :: 'U' :: hexDigits 8 c.toNat

/-- The number of a half, after a backslash. -/
def escapedHalf (n : Fin 0x800) : List Char :=
  '\\' :: 'u' :: hexDigits 4 (CodePoint.half n).toNat

/-- One code point of a quoted text. -/
def quotePoint (quote : Char) : CodePoint → List Char
  | .char c => quoteChar quote c
  | .half n => escapedHalf n

/-- A text between quotes. -/
def quoted (s : String) : String :=
  let quote := quoteFor s.toList
  String.ofList (quote :: (codePoints s).flatMap (quotePoint quote) ++ [quote])

/-- One code point of a text in which halves are written as their numbers. -/
def escapePoint : CodePoint → List Char
  | .char c => (CodePoint.char c).chars
  | .half n => escapedHalf n

/-- The text with its halves written as their numbers. -/
def escapeHalves (s : String) : String := String.ofList ((codePoints s).flatMap escapePoint)

end NativeBindings.Text
