import NativeBindings.Leaf

/-!
# Types without a C# counterpart

Arrays inside other types, functions that are not behind a pointer, named wrappers around anything
but a function pointer, and shapes that are not known at all.
-/

namespace NativeBindings

/-- Why a C type has no C# counterpart. -/
inductive Unconvertible where
  | wrapper (name : Option Leaf)
  | function
  | unknownKind (tag : Leaf)
  /-- An array with its element type in running text. -/
  | array (element : String) (bound : Option String)
  deriving DecidableEq

/-- What is said about a type without a counterpart. -/
def Unconvertible.message : Unconvertible → String
  | wrapper name =>
    "named type " ++ (Leaf.ofOption name).quoted ++ " does not wrap a function pointer"
  | function => "function type outside a pointer"
  | unknownKind tag => "unknown type kind " ++ tag.quoted
  | array element bound =>
    "nested array of " ++ element ++ " [" ++ bound.getD "" ++ "]"

end NativeBindings
