import NativeBindings.CSharp.Builtin
import NativeBindings.CSharp.Declaration
import NativeBindings.CSharp.Literal

/-!
# Array bounds as `int` expressions

The size of a buffer must be an `int`. A literal is one, and so is the constant of an enum value or
any constant of type `int`. Everything else, a name of a wider constant in particular, is cast.
-/

namespace NativeBindings.Finish

open CSharp

/-- The constants that a bound may name. -/
structure BoundScope where
  constants : List Constant := []
  enumConstants : List Leaf := []

/-- The constants that bounds in a set of declarations may name. -/
def BoundScope.of (d : DeclarationSet) : BoundScope :=
  ⟨d.constants, d.enumConstants.map (·.name)⟩

/-- Constants are looked up by their names, so the names have to be keys. -/
def checkConstants (d : DeclarationSet) : Except Misfit Unit := do
  d.constants.forM fun c => discard c.name.key
  d.enumConstants.forM fun c => discard c.name.key

/-- The scope that is left after the constants of a set of declarations were looked at. At a name
that is no key this ends early: then the constants before it are new, and the others are still the
enum constants of the scope before. -/
def BoundScope.after (scope : BoundScope) (d : DeclarationSet) : BoundScope :=
  match checkConstants d with
  | .ok () => .of d
  | .error _ => { scope with constants := d.constants.takeWhile fun c => c.name.key.isOk }

/-- Whether a name stands for an `int`. The first constant of a name counts. -/
def BoundScope.isInt (scope : BoundScope) (name : Leaf) : Bool :=
  scope.enumConstants.contains name ||
    match scope.constants.find? (·.name = name) with
    | some c => c.type.base = .text boundName
    | none => false

/-- A bound as an expression of type `int`. -/
def BoundScope.expression (scope : BoundScope) (bound : String) : String :=
  if isIntegerLiteral bound || scope.isInt (.text bound) then bound
  else "(" ++ boundName ++ ")(" ++ bound ++ ")"

end NativeBindings.Finish
