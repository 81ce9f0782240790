import NativeBindings.CSharp.Builtin
import NativeBindings.Header.Item
import NativeBindings.Message
import NativeBindings.Unconvertible

/-!
# What a run reports

One constructor for each thing that is worth a message, with the names it is about. Nothing that a
header defines disappears without one of these.
-/

namespace NativeBindings

/-- The parts of the work that are announced. -/
inductive Stage where
  | defines
  | enumConstants
  | enums
  | typedefs
  | structs
  | functions
  | finishing
  | rendering
  deriving DecidableEq, Repr

/-- The heading of a part of the work. -/
def Stage.title : Stage → String
  | defines => "Defines"
  | enumConstants => "Enum constants"
  | enums => "Enums"
  | typedefs => "Typedefs"
  | structs => "Structs"
  | functions => "Functions"
  | finishing => "Preprocessing"
  | rendering => "Writing"

/-- A place for a type in a delegate. -/
inductive DelegateSlot where
  | returnType
  | parameter (name : Leaf)

/-- The wording of a place in a delegate. -/
def DelegateSlot.describe (delegate : Leaf) : DelegateSlot → String
  | returnType => "Return type of delegate " ++ delegate.display
  | parameter name => "Parameter " ++ name.display ++ " of delegate " ++ delegate.display

/-- Why the C# definition of a typedef fails. -/
inductive TypedefProblem where
  | unknownBuiltin (builtin : Leaf)
  | unconvertible (cause : Unconvertible)

/-- Why a field is skipped although its guards hold. -/
inductive FieldProblem where
  | noBound
  | unconvertible (cause : Unconvertible)

/-- Why an argument is left out of a function. -/
inductive ArgumentProblem where
  | noType
  | unconvertible (cause : Unconvertible)

/-- Why a function cannot be imported. -/
inductive FunctionProblem where
  | variadic
  | variadicList (argument : Leaf)
  | returnsVariadicList

/-- A thing worth a message. -/
inductive Notice where
  | announced (stage : Stage)
  | builtinUnknown (builtin : Leaf)
  | defineExcluded (name : Leaf)
  | defineUnsupported (name : Leaf) (content : String)
  | enumExcluded (name : Leaf)
  | enumValueExcluded (name enum : Leaf)
  | typedefExcluded (name : Leaf)
  | typedefFailed (name : Leaf) (problem : TypedefProblem)
  | typedefOfWrapper (name : Leaf)
  | typedefOfShape (name : Leaf) (shape : String)
  | delegateTypeUnknown (delegate : Leaf) (slot : DelegateSlot) (cause : Unconvertible)
  | delegateParameterUnnamed (delegate : Leaf) (index : Nat)
  | structExcluded (name : Leaf)
  | fieldExcluded (name struct : Leaf)
  | fieldSkipped (name struct : Leaf) (problem : FieldProblem)
  | fieldDelegate (name struct : Leaf)
  | functionExcluded (name : Leaf)
  | functionDropped (name : Leaf) (problem : FunctionProblem)
  | returnTypeUnknown (function : Leaf) (cause : Unconvertible)
  | argumentIgnored (name function : Leaf) (problem : ArgumentProblem)
  | arrayUnresolved (field struct : Leaf)
  | arrayWrapped (wrapper : String) (field struct : Leaf)
  | loaded (definitions : String)
  | wrote (path : String)

namespace Notice

/-- The ending of messages about what guards exclude. -/
def covered : String := " because it's covered with a false conditional"

/-- The message of a notice. -/
def message : Notice → Message
  | announced stage => .announce stage.title
  | builtinUnknown builtin =>
    .warning ("No C# type for builtin " ++ builtin.quoted ++ ", using " ++ CSharp.unknownName)
  | defineExcluded name => .progress ("Skipped define " ++ name.display ++ covered)
  | defineUnsupported name content =>
    .warning ("Define " ++ name.display ++ " has unsupported content " ++
      (Leaf.text content).quoted ++ ", emitting it as true")
  | enumExcluded name => .progress ("Skipped enum " ++ name.display ++ covered)
  | enumValueExcluded name enum =>
    .progress ("Skipped enum value " ++ name.display ++ " of " ++ enum.display ++ covered)
  | typedefExcluded name =>
    .progress ("Skipping typedef " ++ name.display ++
      ", because its conditionals evaluated to false")
  | typedefFailed name problem =>
    let reason := match problem with
      | .unknownBuiltin builtin => "unknown builtin " ++ builtin.quoted
      | .unconvertible cause => cause.message
    .warning ("Failed to write C# definition for " ++ name.display ++ ": " ++ reason)
  | typedefOfWrapper name => .warning ("Unknown Type typedef " ++ name.display)
  | typedefOfShape name shape =>
    .warning ("Unknown typedef kind for " ++ name.display ++ ": " ++ shape)
  | delegateTypeUnknown delegate slot cause =>
    .warning (slot.describe delegate ++ ": " ++ cause.message ++ ", using " ++ CSharp.unknownName)
  | delegateParameterUnnamed delegate index =>
    .warning ("Parameter " ++ toString index ++ " of delegate " ++ delegate.display ++
      " has no name")
  | structExcluded name => .progress ("Skipped struct " ++ name.display ++ covered)
  | fieldExcluded name struct =>
    .progress ("Skipped field " ++ name.display ++ " of " ++ struct.display ++ covered)
  | fieldSkipped name struct problem =>
    let reason := match problem with
      | .noBound => "array has no bound"
      | .unconvertible cause => cause.message
    .warning ("Skipped field " ++ name.display ++ " of " ++ struct.display ++ ": " ++ reason)
  | fieldDelegate name struct =>
    .progress ("Written delegate for field " ++ name.display ++ " of " ++ struct.display)
  | functionExcluded name =>
    .progress ("Skipped function " ++ name.display ++ " because it has a false conditional")
  | functionDropped name problem =>
    let reason := match problem with
      | .variadic => "variadic arguments are not representable"
      | .variadicList argument => "argument " ++ argument.display ++ " is a va_list"
      | .returnsVariadicList => "it returns a va_list"
    .warning ("Dropped function " ++ name.display ++ ": " ++ reason)
  | returnTypeUnknown function cause =>
    .warning ("Failed to get type conversion for return type of " ++ function.display ++ ": " ++
      cause.message)
  | argumentIgnored name function problem =>
    let reason := match problem with
      | .noType => ", because it has no type."
      | .unconvertible cause => ": " ++ cause.message
    .warning ("Ignored parameter: " ++ name.display ++ " of " ++ function.display ++ reason)
  | arrayUnresolved field struct =>
    .warning ("Left array field " ++ field.display ++ " of " ++ struct.display ++
      " unresolved: unknown element type")
  | arrayWrapped wrapper field struct =>
    .progress ("Generated " ++ wrapper ++ " for non-primitive array field " ++ field.display ++
      " of " ++ struct.display)
  | loaded definitions => .progress ("Loaded " ++ definitions)
  | wrote path => .progress ("Wrote " ++ path)

end Notice

end NativeBindings
