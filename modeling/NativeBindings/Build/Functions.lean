import NativeBindings.Build.Delegates

/-!
# Functions

A function is imported unless it takes or returns a variadic argument list. An argument whose type
cannot be converted is left out with a notice; an argument that is a function pointer brings a
delegate with it. The delegates of a function that is dropped are dropped with it.
-/

namespace NativeBindings.Build

open Header (TypeDesc)
open CSharp

/-- An argument, with the delegate that it brings. -/
structure BuiltArgument where
  argument : Argument
  delegate : Option Delegate := none

/-- A function, with the delegates that its arguments bring. -/
structure BuiltFunction where
  function : Function
  delegates : List Delegate

/-- Leaves an argument out, with a notice. -/
def ignoreArgument (function : Leaf) (a : Header.Argument) (problem : ArgumentProblem) :
    Traced Notice Misfit (Option BuiltArgument) := do
  Traced.report (.argumentIgnored a.name function problem)
  return none

/-- Builds an argument with a type under a name, or leaves it out. An array is passed as a
pointer. -/
def typedArgument (native : NativeTypes) (o : Options) (function name : Leaf) (a : Header.Argument)
    (t : TypeDesc) : Traced Notice Misfit (Option BuiltArgument) := do
  match t with
  | .array element bound =>
    match ← convert native element with
    | .error cause => ignoreArgument function a (.unconvertible cause)
    | .ok type =>
      let arrayBound := (Leaf.ofOption a.arrayBounds).orElse (.text (bound.getD ""))
      return some { argument := { name, type := type.pointerTo, isArray := true, arrayBound } }
  | _ =>
    match t.functionPointer? with
    | some (_, signature) =>
      let delegateName := delegateName (.text (function.display ++ name.display))
      let delegate ← delegateOf native o delegateName signature
      return some { argument := { name, type := { base := delegateName } }, delegate }
    | none =>
      match ← convert native t with
      | .error cause => ignoreArgument function a (.unconvertible cause)
      | .ok type => return some { argument := { name, type } }

/-- Builds an argument, or leaves it out. -/
def argumentOf (native : NativeTypes) (o : Options) (function : Leaf) (a : Header.Argument) :
    Traced Notice Misfit (Option BuiltArgument) := do
  let name ← Traced.ofExcept (parameterName a.name)
  match a.type with
  | none => ignoreArgument function a .noType
  | some t => typedArgument native o function name a t.description

/-- Drops a function and reports why. -/
def dropFunction {α : Type} (function : Leaf) (problem : FunctionProblem) :
    Traced Notice Misfit (Option α) := do
  Traced.report (.functionDropped function problem)
  return none

/-- Builds the arguments of a function. There are none if the function has to be dropped. -/
def argumentsOf (native : NativeTypes) (o : Options) (function : Leaf) :
    List Header.Argument → Traced Notice Misfit (Option (List BuiltArgument))
  | [] => pure (some [])
  | a :: rest => do
    if a.isVarargs then dropFunction function .variadic
    else
      match ← argumentOf native o function a with
      | none => argumentsOf native o function rest
      | some built =>
        if built.argument.type.isVariadic then dropFunction function (.variadicList a.name)
        else return (← argumentsOf native o function rest).map (built :: ·)

/-- The type of what a function returns. -/
def returnTypeOf (native : NativeTypes) (f : Header.Function) : Traced Notice Misfit CsType :=
  match f.returnType with
  | none => pure { base := "void" }
  | some t => do
    match ← convert native t.description with
    | .ok type => return type
    | .error cause =>
      Traced.report (.returnTypeUnknown f.name cause)
      return .unknown

/-- Whether a function with these types can be called only from unsafe code. -/
def needsUnsafe (types : List CsType) : Bool :=
  types.any fun t => t.isPointer || t.isUnknown

/-- Builds a function, or drops it. -/
def functionOf (native : NativeTypes) (o : Options) (f : Header.Function) :
    Traced Notice Misfit (Option BuiltFunction) := do
  let returnType ← returnTypeOf native f
  match ← argumentsOf native o f.name f.arguments with
  | none => return none
  | some built =>
    if returnType.isVariadic then dropFunction f.name .returnsVariadicList
    else
      let arguments := built.map (·.argument)
      let modifiers := if needsUnsafe (returnType :: arguments.map (·.type)) then ["unsafe"] else []
      return some {
        function := {
          name := f.name, returnType, arguments,
          annotations := { annotationsOf f.comments with
            modifiers, attributes := [o.importAttribute] } }
        delegates := built.filterMap (·.delegate) }

/-- Builds a function that is not excluded, with the delegates that its arguments bring. -/
def judgeFunction (known : Symbols) (native : NativeTypes) (o : Options) (f : Header.Function) :
    Traced Notice Misfit (Verdict BuiltFunction) :=
  judgeGuarded known f.guards (.functionExcluded f.name) do
    match ← functionOf native o f with
    | some built => return .accepted built
    | none => return .dropped

/-- The functions of a header, and the delegates that their arguments bring. -/
def functions (fs : List Header.Function) : Building (List Function × List Delegate) := do
  let b ← Building.state
  let built ← Building.ofPass .functions fs.length
    (Pass.judgeAll (judgeFunction b.known b.native b.options) fs)
  return (built.map (·.function), built.flatMap (·.delegates))

end NativeBindings.Build
