import NativeBindings.Build.Builder
import NativeBindings.Conversion
import NativeBindings.CSharp.Keyword

/-!
# Delegates from function types

A function pointer becomes a delegate. A function pointer inside its signature becomes `void*`, and
a type without a C# counterpart becomes the unknown type, so a delegate can always be built.
-/

namespace NativeBindings.Build

open Header (TypeDesc Signature)
open CSharp

/-- The type of a pointer to anything. -/
def voidPointer : CsType := { base := "void", pointers := 1 }

/-- The type of a result or a parameter of a delegate. -/
def delegateType (native : NativeTypes) (delegate : Leaf) (slot : DelegateSlot) (t : TypeDesc) :
    Traced Notice Misfit CsType :=
  match t, t.functionPointer? with
  | .pointer (.function _ _), _ => pure voidPointer
  | _, some _ => pure voidPointer
  | _, none => do
    match ← convert native t with
    | .ok type => return type
    | .error cause =>
      Traced.report (.delegateTypeUnknown delegate slot cause)
      return .unknown

/-- The name of a parameter without one. -/
def positionalName (index : Nat) : Leaf := .text ("arg" ++ toString index)

/-- The parameter at an index. A wrapper around it names it. -/
def delegateParameter (native : NativeTypes) (delegate : Leaf) (index : Nat) (t : TypeDesc) :
    Traced Notice Misfit Argument := do
  match t with
  | .named name inner =>
    let name := (Leaf.ofOption name).orElse (positionalName index)
    let bare := if t.functionPointer?.isSome then t else inner
    let type ← delegateType native delegate (.parameter name) bare
    return { name := ← Traced.ofExcept (parameterName name), type }
  | _ =>
    let name := positionalName index
    Traced.report (.delegateParameterUnnamed delegate index)
    let type ← delegateType native delegate (.parameter name) t
    return { name := ← Traced.ofExcept (parameterName name), type }

/-- The parameters from an index on. -/
def delegateParameters (native : NativeTypes) (delegate : Leaf) :
    (index : Nat) → List TypeDesc → Traced Notice Misfit (List Argument)
  | _, [] => pure []
  | index, t :: rest => do
    return (← delegateParameter native delegate index t) ::
      (← delegateParameters native delegate (index + 1) rest)

/-- The delegate for a function type. -/
def delegateOf (native : NativeTypes) (o : Options) (name : Leaf) (s : Signature) :
    Traced Notice Misfit Delegate := do
  let returnType ← delegateType native name .returnType s.returnType
  let arguments ← delegateParameters native name 0 s.parameters
  return { name, returnType, arguments, annotations := { attributes := [o.delegateAttribute] } }

end NativeBindings.Build
