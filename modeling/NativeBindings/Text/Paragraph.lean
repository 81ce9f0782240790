/-!
# Paragraphs

A paragraph is laid out in lines of a given width. A line takes words as long as they fit, each with
the blanks that stand before it; the blanks at a break are left out. A word that is longer than the
width has a line to itself. Main statement: `length_le_of_mem_lines`, no line is wider than the
width unless it is a single word.
-/

namespace NativeBindings.Text.Paragraph

/-- A word, and how many blanks stand before it. -/
structure Word where
  gap : Nat
  letters : List Char
  deriving DecidableEq, Repr

/-- A number of blanks. -/
def blanks (n : Nat) : List Char := List.replicate n ' '

/-- The words of a text, after `gap` blanks and the letters of a word that has begun. -/
def wordsFrom (gap : Nat) (letters : List Char) : List Char → List Word
  | [] => if letters.isEmpty then [] else [⟨gap, letters⟩]
  | c :: rest =>
    if c ≠ ' ' then wordsFrom gap (letters ++ [c]) rest
    else if letters.isEmpty then wordsFrom (gap + 1) [] rest
    else ⟨gap, letters⟩ :: wordsFrom 1 [] rest

/-- The words of a text. -/
def words (text : List Char) : List Word := wordsFrom 0 [] text

/-- The lines that words fill when the current line holds `line` already. -/
def fill (width : Nat) (line : List Char) : List Word → List (List Char)
  | [] => [line]
  | word :: rest =>
    if line.length + word.gap + word.letters.length ≤ width then
      fill width (line ++ blanks word.gap ++ word.letters) rest
    else line :: fill width word.letters rest

/-- The lines of a paragraph; one without words has none. -/
def lines (width : Nat) (text : List Char) : List (List Char) :=
  match words text with
  | [] => []
  | word :: rest => fill width word.letters rest

theorem length_le_of_mem_fill {width : Nat} {all rest : List Word} {line : List Char}
    (start : line.length ≤ width ∨ ∃ word ∈ all, line = word.letters)
    (sub : ∀ word ∈ rest, word ∈ all) :
    ∀ l ∈ fill width line rest, l.length ≤ width ∨ ∃ word ∈ all, l = word.letters := by
  induction rest generalizing line with
  | nil => simpa [fill] using start
  | cons word rest ih =>
    have later : ∀ w ∈ rest, w ∈ all := fun w hw => sub w (List.mem_cons_of_mem _ hw)
    rw [fill]
    split
    · rename_i fits
      refine ih (.inl ?_) later
      simpa [blanks, Nat.add_assoc] using fits
    · intro l hl
      rcases List.mem_cons.1 hl with rfl | hl
      · exact start
      · exact ih (.inr ⟨word, sub word List.mem_cons_self, rfl⟩) later l hl

/-- A line is no wider than the width, or it is a single word. -/
theorem length_le_of_mem_lines {width : Nat} {text l : List Char} (h : l ∈ lines width text) :
    l.length ≤ width ∨ ∃ word ∈ words text, l = word.letters := by
  unfold lines at h
  split at h
  · contradiction
  · rename_i word rest heq
    rw [heq]
    exact length_le_of_mem_fill (.inr ⟨word, List.mem_cons_self, rfl⟩)
      (fun w hw => List.mem_cons_of_mem _ hw) l h

end NativeBindings.Text.Paragraph
