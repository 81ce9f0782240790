import NativeBindings.Key

/-!
# C# types

A C# type in a binding is a name under some pointers. The name is looked up, compared and replaced;
the pointers are only counted. A type can be written if its name is a text.
-/

namespace NativeBindings

/-- A named C# type under a number of pointers. -/
structure CsType where
  base : Key
  pointers : Nat := 0
  deriving DecidableEq

namespace CsType

instance : Inhabited CsType := ⟨{ base := "" }⟩

/-- The type under one more pointer. -/
def pointerTo (t : CsType) : CsType := { t with pointers := t.pointers + 1 }

/-- The type under further pointers. -/
def under (t : CsType) (depth : Nat) : CsType := { t with pointers := t.pointers + depth }

/-- Whether there is a pointer around the name. -/
def isPointer (t : CsType) : Bool := t.pointers != 0

/-- The type as it is written. -/
def display (t : CsType) : String :=
  t.base.display ++ String.ofList (List.replicate t.pointers '*')

/-- A type whose name is no text cannot be written. -/
def checkWritable (t : CsType) : Except Misfit Unit :=
  match t.base with
  | .text _ => .ok ()
  | name => .error (.typeName name.toJson.kind)

/-- The type as it is written, if it can be. -/
def written (t : CsType) : Except Misfit String := do
  t.checkWritable
  return t.display

end CsType

end NativeBindings
