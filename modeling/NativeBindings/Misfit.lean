import NativeBindings.Json.Basic

/-!
# Values that do not fit

A description may hold any value where a text should be, and that is no fault as long as the value
is only carried along. It is one where the value is used: where its members are asked for, where
its characters are looked at, where something is looked up by it, or where it is written as the
name of a type.
-/

namespace NativeBindings

/-- A value stands where a text, or an object, is needed. Each constructor says what for; the kind
is what was found. -/
inductive Misfit where
  /-- The members of an object are asked for. -/
  | object (found : Json.Kind)
  /-- The slashes in front of a comment are cut off. -/
  | comment (found : Json.Kind)
  /-- The blanks around a text are cut off. -/
  | text (found : Json.Kind)
  /-- The underscore at the end of an enum's name is cut off. -/
  | enumName (found : Json.Kind)
  /-- Something is looked up by a value that has parts. -/
  | key (found : Json.Kind)
  /-- A type is written whose name is no text. -/
  | typeName (found : Json.Kind)
  /-- The names of arguments are listed, and the one at the index is no text. -/
  | argumentName (index : Nat) (found : Json.Kind)
  deriving DecidableEq, Repr

/-- What is said about the value. Its kind is told, but not the value itself. -/
def Misfit.message : Misfit → String
  | object found => "'" ++ found.word ++ "' object has no attribute 'get'"
  | comment found => "'" ++ found.word ++ "' object has no attribute 'startswith'"
  | text found => "'" ++ found.word ++ "' object has no attribute 'strip'"
  | enumName found => "'" ++ found.word ++ "' object has no attribute 'endswith'"
  | key found => "unhashable type: '" ++ found.word ++ "'"
  | typeName found => "__str__ returned non-string (type " ++ found.word ++ ")"
  | argumentName index found =>
    "sequence item " ++ toString index ++ ": expected str instance, " ++ found.word ++ " found"

end NativeBindings
