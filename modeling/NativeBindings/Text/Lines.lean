/-!
# Lines of a text

A comment may hold any line separator that Unicode knows. The text is cut at each of them; a
carriage return with the line feed after it counts as one. A separator ends a line and does not
begin one, so a text that ends with a separator has no empty last line, and the empty text has no
lines at all.
-/

namespace NativeBindings.Text

/-- Whether a character ends a line. -/
def isLineEnd (c : Char) : Bool :=
  (0x0A ≤ c.toNat && c.toNat ≤ 0x0D) || (0x1C ≤ c.toNat && c.toNat ≤ 0x1E) || c.toNat == 0x85 ||
    c.toNat == 0x2028 || c.toNat == 0x2029

/-- The lines of a text whose current line so far is `line`, reversed. -/
def linesFrom (line : List Char) : List Char → List (List Char)
  | [] => if line.isEmpty then [] else [line.reverse]
  | '\r' :: '\n' :: rest => line.reverse :: linesFrom [] rest
  | c :: rest =>
    if isLineEnd c then line.reverse :: linesFrom [] rest else linesFrom (c :: line) rest

/-- The lines of a text, without the separators. -/
def lines (s : String) : List String :=
  (linesFrom [] s.toList).map String.ofList

end NativeBindings.Text
