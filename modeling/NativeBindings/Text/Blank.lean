import NativeBindings.Text.CodeRange

/-!
# Blank characters

Texts of a header description are compared after the blanks around them are cut off. A blank is
any character with the Unicode white space property, or one of the four ASCII separators
U+001C to U+001F.
-/

namespace NativeBindings.Text

/-- The blank characters. -/
def blankRanges : List (Nat × Nat) :=
  [(0x09, 0x0D), (0x1C, 0x20), (0x85, 0x85), (0xA0, 0xA0), (0x1680, 0x1680), (0x2000, 0x200A),
   (0x2028, 0x2029), (0x202F, 0x202F), (0x205F, 0x205F), (0x3000, 0x3000)]

/-- Whether a character is a blank. -/
def isBlank (c : Char) : Bool :=
  inRanges blankRanges c.toNat

/-- Cuts off the blanks at the end. -/
def stripEndChars (cs : List Char) : List Char :=
  (cs.reverse.dropWhile isBlank).reverse

/-- Cuts off the blanks at both ends. -/
def stripChars (cs : List Char) : List Char :=
  stripEndChars (cs.dropWhile isBlank)

/-- The text without the blanks at its end. -/
def stripEnd (s : String) : String :=
  String.ofList (stripEndChars s.toList)

/-- The text without the blanks at both ends. -/
def strip (s : String) : String :=
  String.ofList (stripChars s.toList)

end NativeBindings.Text
