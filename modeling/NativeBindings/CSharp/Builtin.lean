import NativeBindings.CSharp.Type
import NativeBindings.OrderedMap

/-!
# Builtin types

Which C# type stands for a builtin C type, under every spelling that a description uses, and which
C# types may be the elements of a fixed buffer. Sizes are those of a target with 64 bits.
-/

namespace NativeBindings.CSharp

/-- The type that stands where no C# type was found. -/
def unknownName : String := "unknown"

/-- The C# spelling of a variadic argument list. No function with it can be imported. -/
def variadicName : String := "__arglist"

/-- The type that the bound of an array must have. -/
def boundName : String := "int"

/-- The C# types that stand for C types, by name. -/
abbrev NativeTypes := OrderedMap String String

/-- The C# types that stand for the builtin C types. -/
def nativeTypes : NativeTypes := .ofList
  [("int", "int"), ("signed int", "int"), ("unsigned int", "uint"), ("unsigned_int", "uint"),
   ("char", "byte"), ("unsigned char", "byte"), ("unsigned_char", "byte"),
   ("signed char", "sbyte"), ("short", "short"), ("signed short", "short"),
   ("unsigned short", "ushort"), ("unsigned_short", "ushort"), ("long long", "long"),
   ("long_long", "long"), ("signed long long", "long"), ("unsigned long long", "ulong"),
   ("unsigned_long_long", "ulong"), ("float", "float"), ("double", "double"), ("bool", "bool"),
   ("void", "void"), ("int8_t", "sbyte"), ("uint8_t", "byte"), ("int16_t", "short"),
   ("uint16_t", "ushort"), ("int32_t", "int"), ("uint32_t", "uint"), ("int64_t", "long"),
   ("uint64_t", "ulong"), ("size_t", "ulong"), ("va_list", variadicName)]

/-- The C# name for the name of a C type. -/
def nativeName? (types : NativeTypes) : Key → Option String
  | .text name => types.get? name
  | _ => none

/-- The types that may be the elements of a fixed buffer; pointers may be as well. -/
def simpleNames : List String :=
  ["int", "long", "uint", "byte", "ushort", "short", "sbyte", "ulong", "float", "bool", "double"]

end NativeBindings.CSharp

namespace NativeBindings.CsType

open CSharp

/-- What is written for a type without a counterpart. -/
def unknown : CsType := { base := unknownName }

/-- Whether the type is unknown, or a pointer to an unknown one. -/
def isUnknown (t : CsType) : Bool := t.base = .text unknownName

/-- Whether the type is a variadic argument list, or a pointer to one. -/
def isVariadic (t : CsType) : Bool := t.base = .text variadicName

/-- Whether the type may be the element type of a fixed buffer. -/
def isSimple (t : CsType) : Bool :=
  t.isPointer || simpleNames.any fun name => t.base = .text name

end NativeBindings.CsType
