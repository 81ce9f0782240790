import NativeBindings.Key

/-!
# Reserved words of C#

A parameter must not be named like a reserved word. Such a name gets an underscore in front. No
reserved word starts with an underscore, so the result is not reserved.
-/

namespace NativeBindings.CSharp

/-- The words that cannot name a parameter. -/
def reservedWords : List String :=
  ["abstract", "as", "base", "bool", "break", "byte", "case", "catch", "char", "checked", "class",
   "const", "continue", "decimal", "default", "delegate", "do", "double", "else", "enum", "event",
   "explicit", "extern", "false", "finally", "fixed", "float", "for", "foreach", "goto", "if",
   "implicit", "in", "int", "interface", "internal", "is", "lock", "long", "namespace", "new",
   "null", "object", "operator", "out", "override", "params", "private", "protected", "public",
   "readonly", "ref", "return", "sbyte", "sealed", "short", "sizeof", "stackalloc", "static",
   "string", "struct", "switch", "this", "throw", "true", "try", "typeof", "uint", "ulong",
   "unchecked", "unsafe", "ushort", "using", "virtual", "void", "volatile", "while", "var"]

/-- A text that is not reserved. -/
def escapeReserved (name : String) : String :=
  if name ∈ reservedWords then "_" ++ name else name

/-- A name for a parameter. It is looked up among the reserved words, so it has to be a key. -/
def parameterName (name : Leaf) : Except Misfit Leaf :=
  return match ← name.key with
    | .text name => .text (escapeReserved name)
    | _ => name

end NativeBindings.CSharp
