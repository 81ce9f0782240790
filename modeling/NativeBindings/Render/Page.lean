import NativeBindings.OrderedMap

/-!
# Pages of lines

Documents are written as marks: a line, the opening of a block, or its end. A page collects the
lines of the document that is being written, each indented by the blocks around it, and keeps the
documents that are complete. A document is complete only when all of its blocks are closed. Every
mark writes exactly one line.
-/

namespace NativeBindings.Render

/-- One step of writing. -/
inductive Mark where
  | line (text : String)
  | openBlock
  | closeBlock
  deriving DecidableEq, Repr

/-- An empty line. -/
def Mark.blank : Mark := .line ""

/-- The lines of the document that is being written, and the documents written before. The level
counts open blocks; it is negative where blocks were closed that had not been opened. -/
structure Page where
  level : Int := 0
  lines : List String := []
  documents : OrderedMap String String := ∅

/-- A document whose blocks are not closed. -/
structure Unbalanced where
  document : String
  level : Int
  deriving DecidableEq, Repr

/-- What is said about the document. -/
def Unbalanced.message (u : Unbalanced) : String :=
  "Unbalanced blocks in " ++ u.document ++ ": indent level " ++ toString u.level

/-- A line under a number of blocks. The empty line is not indented. -/
def indented (level : Int) (text : String) : String :=
  if text.isEmpty then "" else String.ofList (List.replicate level.toNat '\t') ++ text

namespace Mark

/-- The level after a mark. -/
def levelAfter (level : Int) : Mark → Int
  | line _ => level
  | openBlock => level + 1
  | closeBlock => level - 1

/-- The line that a mark writes. The braces of a block stand at the level around it. -/
def written (level : Int) : Mark → String
  | line text => indented level text
  | openBlock => indented level "\x7b"
  | closeBlock => indented (level - 1) "\x7d"

/-- The level after several marks. -/
def levelAfterAll (level : Int) (marks : List Mark) : Int := marks.foldl levelAfter level

/-- The lines that several marks write, one for each. -/
def writtenAll (level : Int) : List Mark → List String
  | [] => []
  | m :: rest => m.written level :: writtenAll (m.levelAfter level) rest

end Mark

namespace Page

/-- Writes marks to the page. -/
def apply (p : Page) (marks : List Mark) : Page :=
  { p with
    level := Mark.levelAfterAll p.level marks
    lines := p.lines ++ Mark.writtenAll p.level marks }

/-- The lines as a text; every line ends with a line feed, and there is at least one. -/
def text (p : Page) : String := "\n".intercalate p.lines ++ "\n"

/-- Completes the document, unless a block is open. -/
def complete (p : Page) (document : String) : Except Unbalanced Page :=
  if p.level = 0 then
    .ok { p with lines := [], documents := p.documents.insert document p.text }
  else .error ⟨document, p.level⟩

end Page

end NativeBindings.Render
