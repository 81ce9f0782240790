/-!
# Ranges of code points

A character class is a list of closed ranges of code points, ascending and apart. The tables that
use it are in the modules named for the class.
-/

namespace NativeBindings.Text

/-- Whether a code point lies in one of the ranges. -/
def inRanges (ranges : List (Nat × Nat)) (n : Nat) : Bool :=
  ranges.any fun r => r.1 ≤ n && n ≤ r.2

end NativeBindings.Text
