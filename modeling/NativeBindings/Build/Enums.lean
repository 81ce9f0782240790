import NativeBindings.Build.Builder

/-!
# Enums

The numbers of an enum are written once, as constants in the native class; the typed enum refers to
them. Both go through the same values and leave out the same ones.
-/

namespace NativeBindings.Build

open CSharp

/-- Those of some items whose guards hold. -/
def includedAmong {ι : Type} (known : Symbols) (guards : ι → List Header.Guard) (items : List ι) :
    Except Misfit (List ι) :=
  items.filterM fun i => Header.included known (guards i)

/-! ## The constants -/

/-- The constant that holds the number of an enum value. -/
def enumConstant (e : Header.EnumElement) : Constant :=
  { name := e.name, type := { base := boundName }, value := toString e.value,
    annotations := annotationsOf e.comments }

/-- The constants of an enum, in the order of its values. An excluded enum has none. -/
def constantsOfEnum (known : Symbols) (e : Header.Enum) : Except Misfit (List Constant) := do
  if ← Header.included known e.guards then
    return (← includedAmong known (·.guards) e.elements).map enumConstant
  else return []

/-- The constants of all enums, one enum after the other. -/
def enumConstants (es : List Header.Enum) : Building (List Constant) := do
  let known := (← Building.state).known
  return (← Building.ofExcept (es.mapM (constantsOfEnum known))).flatten

/-! ## The enums -/

/-- The text without an underscore at its end; of several only the last one goes. -/
def withoutUnderscore (s : String) : String :=
  if s.toList.getLast? = some '_' then String.ofList s.toList.dropLast else s

/-- The name of an enum, without an underscore at its end. It has to be a text. -/
def enumName : Leaf → Except Misfit Leaf
  | .text s => return .text (withoutUnderscore s)
  | .other v => .error (.enumName v.kind)

/-- The enum value that refers to its constant. -/
def enumValue (o : Options) (e : Header.EnumElement) : EnumValue :=
  { name := e.name, value := o.nativeClass ++ "." ++ e.name.display,
    annotations := annotationsOf e.comments }

/-- The values of an enum. What is excluded is reported. -/
def enumValues (known : Symbols) (o : Options) (enum : Leaf) :
    List Header.EnumElement → Traced Notice Misfit (List EnumValue)
  | [] => pure []
  | e :: rest => do
    if ← Traced.ofExcept (Header.included known e.guards) then
      return enumValue o e :: (← enumValues known o enum rest)
    else
      Traced.report (.enumValueExcluded e.name enum)
      enumValues known o enum rest

/-- Builds an enum that is not excluded. An enum of flags gets the attribute that says so. -/
def judgeEnum (known : Symbols) (o : Options) (e : Header.Enum) :
    Traced Notice Misfit (Verdict Enum) :=
  judgeGuarded known e.guards (.enumExcluded e.name) do
    let name ← Traced.ofExcept (enumName e.name)
    let annotations := annotationsOf e.comments
    return .accepted {
      name
      isFlags := e.isFlags
      values := ← enumValues known o e.name e.elements
      annotations :=
        if e.isFlags then { annotations with attributes := ["Flags"] } else annotations }

/-- The enums of a header. -/
def enums (es : List Header.Enum) : Building (List Enum) := do
  let b ← Building.state
  Building.ofPass .enums es.length (Pass.judgeAll (judgeEnum b.known b.options) es)

end NativeBindings.Build
