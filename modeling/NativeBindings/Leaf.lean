import NativeBindings.Json.Display

/-!
# Leaves of a header description

Names, guard expressions, bounds and the like should be texts. A description may hold any other
value in their place, and as long as nothing needs the characters of the text, that value is
carried along unchanged and written back as it came.
-/

namespace NativeBindings

/-- A text, or the value that stands where a text should be. -/
inductive Leaf where
  | text (s : String)
  | other (v : Json)
  deriving DecidableEq

namespace Leaf

instance : Coe String Leaf := ⟨text⟩

instance : Inhabited Leaf := ⟨text ""⟩

/-- The leaf of a value. -/
def ofJson : Json → Leaf
  | .str s => text s
  | v => other v

/-- The leaf of an optional value. A null counts as missing. -/
def ofJson? : Option Json → Option Leaf
  | none => none
  | some .null => none
  | some v => some (ofJson v)

/-- The leaf of an optional value, with a text for the case that it is missing. A null is kept. -/
def ofJsonD (default : String) : Option Json → Leaf
  | none => text default
  | some v => ofJson v

/-- The value of a leaf. -/
def toJson : Leaf → Json
  | text s => .str s
  | other v => v

/-- A vacant leaf counts as absent. -/
def isVacant (l : Leaf) : Bool := l.toJson.isVacant

/-- The leaf, or the other one if it is vacant. -/
def orElse (l other : Leaf) : Leaf := if l.isVacant then other else l

/-- The leaf in running text. -/
def display (l : Leaf) : String := l.toJson.display

/-- The leaf in quotes, or as a literal if it is no text. -/
def quoted (l : Leaf) : String := l.toJson.literal

end Leaf

/-- The leaf of an optional value; a missing value is vacant and is shown as a null. -/
def Leaf.ofOption : Option Leaf → Leaf
  | none => .other .null
  | some l => l

end NativeBindings
