import NativeBindings.CSharp.Declaration
import NativeBindings.Text.Lines

/-!
# Documentation comments

The comments of a declaration become its XML summary: every preceding line a paragraph, then the
trailing comment. The text is escaped, so whatever a header says stays text.
-/

namespace NativeBindings.CSharp

/-- One character of a text in XML. -/
def xmlChar (c : Char) : List Char :=
  if c = '&' then "&amp;".toList
  else if c = '<' then "&lt;".toList
  else if c = '>' then "&gt;".toList
  else [c]

/-- A text in XML. -/
def escapeXml (s : String) : String :=
  String.ofList (s.toList.flatMap xmlChar)

/-- The lines of a comment text in XML. There is always one. -/
def commentTextLines (s : String) : List String :=
  match (Text.lines s).map escapeXml with
  | [] => [""]
  | lines => lines

/-- Puts the mark of a paragraph's end behind its last line. -/
def closeParagraph : List String → List String
  | [] => []
  | [line] => [line ++ "</para>"]
  | line :: rest => line :: closeParagraph rest

/-- The lines of a paragraph. -/
def paragraphLines (s : String) : List String :=
  match commentTextLines s with
  | [] => []
  | first :: rest => closeParagraph (("<para>" ++ first) :: rest)

/-- The lines of a declaration's summary, without the comment marks; none if it has no comments. -/
def summaryLines (a : Annotations) : List String :=
  let preceding := a.precedingComment.getD []
  if preceding.isEmpty && a.trailingComment.isNone then []
  else
    let trailing := match a.trailingComment with
      | none => []
      | some text => (if preceding.isEmpty then [] else ["<para/>"]) ++ commentTextLines text
    ["<summary>"] ++ preceding.flatMap paragraphLines ++ trailing ++ ["</summary>"]

end NativeBindings.CSharp
