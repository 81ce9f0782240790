import NativeBindings.Text.Blank
import NativeBindings.Text.DecimalDigit

/-!
# C# literals

Which texts count as literals of 64-bit integers, and how a text becomes a string literal. Blanks
around an integer do not matter, and its digits may be those of any script.
-/

namespace NativeBindings.CSharp

/-- The number that decimal digits with an optional sign spell. -/
def decimalValue? (cs : List Char) : Option Int :=
  let digits := match cs with
    | '+' :: rest => rest
    | '-' :: rest => rest
    | rest => rest
  if digits.isEmpty then none
  else do
    let magnitude := Text.numberOfDigits (← digits.mapM Text.digitValue?)
    return if cs.head? = some '-' then -(magnitude : Int) else magnitude

/-- The least signed integer of 64 bits. -/
def minInt64 : Int := -9223372036854775808

/-- The greatest signed integer of 64 bits. -/
def maxInt64 : Int := 9223372036854775807

/-- Whether a text is a decimal literal that fits a signed 64-bit integer. -/
def isIntegerLiteral (s : String) : Bool :=
  match decimalValue? (Text.stripChars s.toList) with
  | some n => minInt64 ≤ n && n ≤ maxInt64
  | none => false

/-- Hexadecimal digits, of ASCII only. -/
def isHexDigit (c : Char) : Bool :=
  c.isDigit || ('a' ≤ c && c ≤ 'f') || ('A' ≤ c && c ≤ 'F')

/-- Whether a text is a hexadecimal literal of up to 64 bits. -/
def isHexLiteral (s : String) : Bool :=
  match Text.stripChars s.toList with
  | '0' :: 'x' :: digits => !digits.isEmpty && digits.length ≤ 16 && digits.all isHexDigit
  | _ => false

/-- One character of a string literal. -/
def stringLiteralChar (c : Char) : List Char :=
  if c = '\\' || c = '"' then ['\\', c] else [c]

/-- A text as a string literal. Only backslashes and quotes are escaped. -/
def stringLiteral (s : String) : String :=
  String.ofList ('"' :: s.toList.flatMap stringLiteralChar ++ ['"'])

/-- Whether a text begins and ends with a double quote of its own. -/
def isQuotedText (s : String) : Bool :=
  let cs := s.toList
  2 ≤ cs.length && cs.head? = some '"' && cs.getLast? = some '"'

end NativeBindings.CSharp
