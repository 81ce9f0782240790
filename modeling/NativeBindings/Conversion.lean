import NativeBindings.Notice
import NativeBindings.Traced

/-!
# From C types to C# types

A builtin or user name is looked up among the native types, a function pointer becomes the name of
its delegate, and pointers stay. A builtin without a native type becomes the unknown type, with a
notice; a user name without one stays as it is. Nothing else has a C# counterpart.
-/

namespace NativeBindings

open Header CSharp

/-- What the name of a function pointer's delegate ends with. -/
def delegateSuffix : String := "Delegate"

/-- The name of the delegate for something named `name`. -/
def delegateName (name : Leaf) : String := name.display ++ delegateSuffix

/-- The outcome of a conversion: a C# type, or why there is none. A name that cannot be looked up or
shown is neither. -/
abbrev Converting := Traced Notice Misfit (Except Unconvertible CsType)

namespace Conversion

/-- The outcome for an array, which has no C# counterpart. -/
def array (element : TypeDesc) (bound : Option String) : Converting := do
  let element ← Traced.ofExcept element.display
  return .error (.array element bound)

/-- Converts a shape that is no pointer, array or function pointer. -/
def leaf (native : NativeTypes) : TypeDesc → Converting
  | .builtin name => do
    match nativeName? native (← Traced.ofExcept name.key) with
    | some n => return .ok { base := n }
    | none =>
      Traced.report (.builtinUnknown name)
      return .ok .unknown
  | .user name => do
    let name ← Traced.ofExcept name.key
    return .ok { base := ((nativeName? native name).map Key.text).getD name }
  | .named name _ => return .error (.wrapper name)
  | .unsupported kind => return .error (.unknownKind kind)
  | .array element bound => array element bound
  | .function _ _ | .pointer _ => return .error .function

end Conversion

/-- Converts a C type to a C# type. -/
def convert (native : NativeTypes) (t : TypeDesc) : Converting :=
  t.walk (Conversion.leaf native)
    (fun name _ => return .ok { base := delegateName name })
    (fun inner => return (← inner).map CsType.pointerTo)
    Conversion.array

end NativeBindings
