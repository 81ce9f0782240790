import NativeBindings.Build.Delegates

/-!
# Structs

A struct keeps the fields whose guards hold and whose types can be converted. A field that is a
function pointer brings a delegate with it, which stands inside the struct at first.
-/

namespace NativeBindings.Build

open Header (TypeDesc)
open CSharp

/-- A field, with the delegate that it brings. -/
structure BuiltField where
  field : Field
  delegate : Option Delegate := none

/-- The element type of an array field and the bound in its type. -/
def arrayShape : TypeDesc → TypeDesc × Option Leaf
  | .array element bound => (element, bound.map Leaf.text)
  | t => (t, none)

/-- Whether a field is an array, by its switch or by its type. -/
def isArrayField (f : Header.Field) : Bool :=
  f.isArray || match f.type.description with
    | .array _ _ => true
    | _ => false

/-- Leaves a field out, with a notice. -/
def skipField (struct : Leaf) (f : Header.Field) (problem : FieldProblem) :
    Traced Notice Misfit (Option BuiltField) := do
  Traced.report (.fieldSkipped f.name struct problem)
  return none

/-- Builds an array field. Its own bound goes before that of its type. -/
def arrayField (native : NativeTypes) (struct : Leaf) (f : Header.Field) :
    Traced Notice Misfit (Option BuiltField) := do
  let (element, bound) := arrayShape f.type.description
  let bound := Leaf.ofOption (f.arrayBounds.or bound)
  if bound.isVacant then skipField struct f .noBound
  else
    match ← convert native element with
    | .error cause => skipField struct f (.unconvertible cause)
    | .ok type =>
      let bound ← Traced.ofExcept bound.needText
      return some { field := {
        name := f.name, type, isArray := true, arrayBound := Text.strip bound,
        annotations := annotationsOf f.comments } }

/-- Builds a field that is no array. -/
def plainField (native : NativeTypes) (o : Options) (struct : Leaf) (f : Header.Field) :
    Traced Notice Misfit (Option BuiltField) := do
  match f.type.description.functionPointer? with
  | some (wrapper, signature) =>
    let name := delegateName (wrapper.orElse f.name)
    let delegate ← delegateOf native o name signature
    Traced.report (.fieldDelegate f.name struct)
    return some {
      field := { name := f.name, type := { base := name, pointers := 1 },
                 annotations := annotationsOf f.comments }
      delegate := some delegate }
  | none =>
    match ← convert native f.type.description with
    | .error cause => skipField struct f (.unconvertible cause)
    | .ok type =>
      return some { field := { name := f.name, type, annotations := annotationsOf f.comments } }

/-- Builds a field, or leaves it out. -/
def fieldOf (native : NativeTypes) (o : Options) (struct : Leaf) (f : Header.Field) :
    Traced Notice Misfit (Option BuiltField) :=
  if isArrayField f then arrayField native struct f else plainField native o struct f

/-- Builds the fields of a struct. What is excluded is reported. -/
def fieldsOf (known : Symbols) (native : NativeTypes) (o : Options) (struct : Leaf) :
    List Header.Field → Traced Notice Misfit (List BuiltField)
  | [] => pure []
  | f :: rest => do
    if ← Traced.ofExcept (Header.included known f.guards) then
      let built ← fieldOf native o struct f
      return built.toList ++ (← fieldsOf known native o struct rest)
    else
      Traced.report (.fieldExcluded f.name struct)
      fieldsOf known native o struct rest

/-- Builds a struct that is not excluded. The delegates that its fields need are put inside it. -/
def judgeStruct (known : Symbols) (native : NativeTypes) (o : Options) (s : Header.Struct) :
    Traced Notice Misfit (Verdict Struct) :=
  judgeGuarded known s.guards (.structExcluded s.name) do
    let built ← fieldsOf known native o s.name s.fields
    return .accepted {
      name := s.name
      fields := built.map (·.field)
      inner := built.filterMap fun b => b.delegate.map .delegate
      annotations := annotationsOf s.comments }

/-- The structs of a header. -/
def structs (ss : List Header.Struct) : Building (List Struct) := do
  let b ← Building.state
  Building.ofPass .structs ss.length (Pass.judgeAll (judgeStruct b.known b.native b.options) ss)

end NativeBindings.Build
