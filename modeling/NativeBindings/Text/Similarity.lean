import NativeBindings.Text.CodePoint

/-!
# Similar texts

How much two texts have in common is counted in runs: the longest run of code points that stands in
both, and then, on either side of it, what the texts have in common there. Twice this count,
divided by the length of both texts together, is their likeness. It is one for equal texts and zero
for texts without a common code point.
-/

namespace NativeBindings.Text

/-- How many code points two texts begin with alike. -/
def commonPrefixLength : List CodePoint → List CodePoint → Nat
  | a :: as, b :: bs => if a = b then commonPrefixLength as bs + 1 else 0
  | _, _ => 0

/-- A run of code points that stands in two texts: where in each of them, and how long it is. -/
structure Run where
  left : Nat := 0
  right : Nat := 0
  length : Nat := 0
  deriving DecidableEq, Repr

/-- The longer one of two runs, the first one if they are equally long. -/
def Run.longer (r s : Run) : Run := if r.length < s.length then s else r

/-- The longest one of a run and those that begin with `a`, which stands at place `i` of its text,
and at place `j` or later in the other text. -/
def longestAt (a : List CodePoint) (i : Nat) : (j : Nat) → List CodePoint → Run → Run
  | _, [], best => best
  | j, c :: b, best =>
    longestAt a i (j + 1) b (best.longer ⟨i, j, commonPrefixLength a (c :: b)⟩)

/-- The longest one of a run and those that begin at place `i` or later of the first text. -/
def longestFrom (b : List CodePoint) : (i : Nat) → List CodePoint → Run → Run
  | _, [], best => best
  | i, c :: a, best => longestFrom b (i + 1) a (longestAt (c :: a) i 0 b best)

/-- The longest run of two texts. Of several it is the one that stands first in `a`, and of those
the one that stands first in `b`. -/
def longestRun (a b : List CodePoint) : Run := longestFrom b 0 a {}

/-- How many code points two texts have in common, counted in runs. -/
def commonLength (a b : List CodePoint) : Nat :=
  match longestRun a b with
  | ⟨i, j, length⟩ =>
    if _h : 0 < length ∧ i < a.length then
      commonLength (a.take i) (b.take j) + length +
        commonLength (a.drop (i + length)) (b.drop (j + length))
    else 0
termination_by a.length
decreasing_by
  · rw [List.length_take]
    omega
  · rw [List.length_drop]
    omega

/-- The likeness of two texts as a fraction. -/
structure Likeness where
  common : Nat
  total : Nat

/-- How alike two texts are. -/
def likeness (a b : String) : Likeness where
  common := 2 * commonLength (codePoints a) (codePoints b)
  total := (codePoints a).length + (codePoints b).length

namespace Likeness

/-- Whether the likeness is that of texts which are taken for one another: at least three
fifths. -/
def isClose (l : Likeness) : Bool := 3 * l.total ≤ 5 * l.common

/-- Whether the likeness is greater than another one, as fractions. -/
def exceeds (l k : Likeness) : Bool := k.common * l.total < l.common * k.total

end Likeness

/-- The most texts that are suggested. -/
def mostSuggested : Nat := 3

/-- Whether `a` is suggested before `b` for a text: it is more like it, or as much and greater. -/
def suggestedBefore (s a b : String) : Bool :=
  let l := likeness a s
  let k := likeness b s
  l.exceeds k || (!k.exceeds l && decide (b ≤ a))

/-- Those of some texts that may have been meant by another one, the most similar ones if there are
many, in alphabetical order. -/
def suggestions (s : String) (known : List String) : List String :=
  let close := known.filter fun k => (likeness k s).isClose
  ((close.mergeSort (suggestedBefore s)).take mostSuggested).mergeSort fun a b => decide (a ≤ b)

end NativeBindings.Text
