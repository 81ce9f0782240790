import NativeBindings.Header.Guard
import NativeBindings.Json.Parser
import NativeBindings.Text.Numeral

/-!
# Reading a header description

A description is a JSON object with up to five collections. Most members are optional, and a vacant
collection counts as empty; what is required is that every define, enum, typedef, struct, function,
enum element and field has a name, that collections can be gone through, and that objects and
comment lines stand where they are needed. Texts that nothing looks into are taken as they come.

The first fault ends the reading. Collections are read in the order defines, enums, typedefs,
structs, functions, and the members of an item in the order in which its reader names them.
-/

namespace NativeBindings.Header

/-- Why a description cannot be read. -/
inductive ReadFault where
  /-- An item has no member `name`. -/
  | missingName
  /-- A value that is no object was asked for its member `name`. -/
  | nameOfNonObject (found : Json.Kind)
  /-- A value cannot be gone through one by one. -/
  | notIterable (found : Json.Kind)
  /-- A value that is neither a number nor a text stands where an integer should be. -/
  | notNumeric (found : Json.Kind)
  /-- A text stands where an integer should be, and spells none. -/
  | notInteger (text : String)
  | nanInteger
  | infiniteInteger
  | misfit (m : Misfit)
  deriving DecidableEq, Repr

namespace ReadFault

/-- The most characters of a text that a message about it shows. -/
def shownLength : Nat := 200

/-- What is said about the fault, without the item that it was found in. -/
def message : ReadFault → String
  | missingName => "'name'"
  | nameOfNonObject .str => "string indices must be integers, not 'str'"
  | nameOfNonObject .arr => "list indices must be integers or slices, not str"
  | nameOfNonObject found => "'" ++ found.word ++ "' object is not subscriptable"
  | notIterable found => "'" ++ found.word ++ "' object is not iterable"
  | notNumeric found =>
    "int() argument must be a string, a bytes-like object or a real number, not '" ++ found.word ++
      "'"
  | notInteger text =>
    "invalid literal for int() with base 10: " ++
      String.ofList ((Text.quoted text).toList.take shownLength)
  | nanInteger => "cannot convert float NaN to integer"
  | infiniteInteger => "cannot convert float infinity to integer"
  | misfit m => m.message

/-- Whether the fault means that an item is malformed. The others are passed on as they are. -/
def isMalformedItem : ReadFault → Bool
  | infiniteInteger => false
  | misfit _ => false
  | _ => true

end ReadFault

/-! ## Building blocks -/

/-- The members of an object. -/
abbrev Members := List (String × Json)

/-- The members of a value that has to be an object. -/
def membersOf : Json → Except ReadFault Members
  | .obj members => .ok members
  | v => .error (.misfit (.object v.kind))

/-- The name of an item. It has to be there, but any value will do. -/
def nameOf : Json → Except ReadFault Leaf
  | .obj members =>
    match Json.member? members "name" with
    | some v => .ok (.ofJson v)
    | none => .error .missingName
  | v => .error (.nameOfNonObject v.kind)

/-- What a value yields that has to be gone through. -/
def elementsOf (v : Json) : Except ReadFault (List Json) :=
  match v.elements? with
  | some vs => .ok vs
  | none => .error (.notIterable v.kind)

/-- The elements of a collection. A missing or vacant one is empty. -/
def collection (v : Option Json) : Except ReadFault (List Json) :=
  match v with
  | none => .ok []
  | some v => if v.isVacant then .ok [] else elementsOf v

/-- A switch that is off where it is missing. -/
def switch (v : Option Json) : Bool :=
  match v with
  | none => false
  | some v => !v.isVacant

/-- The integer that a value stands for; numbers are cut off towards zero. -/
def integerOf : Json → Except ReadFault Int
  | .int n => .ok n
  | .bool b => .ok (if b then 1 else 0)
  | .float x =>
    match x.truncate? with
    | some n => .ok n
    | none => .error (if x = .nan then .nanInteger else .infiniteInteger)
  | .str s =>
    match Text.integer? s with
    | some n => .ok n
    | none => .error (.notInteger s)
  | v => .error (.notNumeric v.kind)

/-- A comment line without the slashes at its front, and without one space after them. -/
def stripSlashes (line : String) : String :=
  match line.toList with
  | '/' :: '/' :: ' ' :: rest => String.ofList rest
  | '/' :: '/' :: rest => String.ofList rest
  | _ => line

/-- A line of a comment, which has to be a text. -/
def commentLine : Json → Except ReadFault String
  | .str s => .ok (stripSlashes s)
  | v => .error (.misfit (.comment v.kind))

/-- A value that may be missing; a null counts as missing. -/
def optional {α : Type} (read : Json → Except ReadFault α) (v : Option Json) :
    Except ReadFault (Option α) :=
  match v with
  | none => .ok none
  | some .null => .ok none
  | some v => some <$> read v

/-- The lines of a preceding comment. -/
def commentLines (v : Json) : Except ReadFault (List String) := do
  (← elementsOf v).mapM commentLine

/-- The comments of an item; none where they are missing or vacant. -/
def commentsOf (v : Option Json) : Except ReadFault (Option Comments) :=
  match v with
  | none => .ok none
  | some v =>
    if v.isVacant then .ok none
    else do
      let members ← membersOf v
      let attached ← optional commentLine (Json.member? members "attached")
      let preceding ← optional commentLines (Json.member? members "preceding")
      return some { attached, preceding }

/-- A guard. A missing part of it is an empty text. -/
def guardOf (v : Json) : Except ReadFault Guard := do
  let members ← membersOf v
  return {
    condition := .ofJsonD "" (Json.member? members "condition")
    expression := .ofJsonD "" (Json.member? members "expression") }

/-- The guards of an item, in the order in which they are listed. -/
def guardsOf (v : Option Json) : Except ReadFault (List Guard) := do
  (← collection v).mapM guardOf

/-! ## Types -/

/-- An element that is a text stands for no type if it is empty, and for no object otherwise. -/
def parameterOfText (v : Json) : Except ReadFault TypeDesc :=
  if v.isVacant then .ok .missing else .error (.misfit (.object v.kind))

/-- The bound of an array as text. -/
def boundOf : Option Json → Option String
  | none => none
  | some .null => none
  | some v => some v.display

/-- The leaf of a name that is empty where it is missing or vacant. -/
def nameOrEmpty (v : Option Json) : Leaf :=
  (Leaf.ofJsonD "" v).orElse ""

mutual

/-- Reads the description of a type. A vacant value is a missing type. -/
def typeOf (v : Json) : Except ReadFault TypeDesc :=
  if v.isVacant then .ok .missing
  else
    match v with
    | .obj members =>
      let kind := Leaf.ofJsonD "" (Json.member? members "kind")
      if kind = .text "Builtin" then
        .ok (.builtin (nameOrEmpty (Json.member? members "builtin_type")))
      else if kind = .text "User" then .ok (.user (nameOrEmpty (Json.member? members "name")))
      else if kind = .text "Pointer" then do
        return .pointer (← typeOfMember members "inner_type")
      else if kind = .text "Array" then do
        let element ← typeOfMember members "inner_type"
        return .array element (boundOf (Json.member? members "bounds"))
      else if kind = .text "Function" then do
        let returnType ← typeOfMember members "return_type"
        let parameters ←
          match _h : Json.member? members "parameters" with
          | none => pure []
          | some (.arr vs) => typesOf vs
          | some v => if v.isVacant then pure [] else do (← elementsOf v).mapM parameterOfText
        return .function returnType parameters
      else if kind = .text "Type" then do
        let name := Leaf.ofJson? (Json.member? members "name")
        return .named name (← typeOfMember members "inner_type")
      else .ok (.unsupported (kind.orElse "missing"))
    | v => .error (.misfit (.object v.kind))
termination_by (sizeOf v, 0)
decreasing_by
  all_goals simp_wf
  all_goals first
    | (have smaller := Json.sizeOf_member?_lt _h; simp at smaller ⊢; omega)
    | (simp [Prod.lex_def])

/-- Reads the type that a member describes. -/
def typeOfMember (members : Members) (name : String) : Except ReadFault TypeDesc :=
  match _h : Json.member? members name with
  | none => .ok .missing
  | some v => typeOf v
termination_by (sizeOf (Json.obj members) - 1, 1)
decreasing_by
  all_goals have := Json.sizeOf_member?_lt _h
  all_goals simp [Prod.lex_def] at this ⊢
  all_goals omega

/-- Reads the descriptions of several types. -/
def typesOf (vs : List Json) : Except ReadFault (List TypeDesc) :=
  match vs with
  | [] => .ok []
  | v :: vs => do return (← typeOf v) :: (← typesOf vs)
termination_by (sizeOf vs, 0)
decreasing_by
  all_goals simp [Prod.lex_def]
  all_goals omega

end

/-- A type as it is written, with its description. -/
def presentTypeRefOf (v : Json) : Except ReadFault TypeRef := do
  let members ← membersOf v
  return {
    declaration := .ofJsonD "" (Json.member? members "declaration")
    description := ← typeOfMember members "description" }

/-- A type that may be missing. -/
def typeRefOf (v : Option Json) : Except ReadFault (Option TypeRef) :=
  optional presentTypeRefOf v

/-! ## Items -/

/-- A define, its name first. -/
def defineOf (v : Json) : Except ReadFault Define := do
  let name ← nameOf v
  let members ← membersOf v
  return {
    name
    content := Leaf.ofJson? (Json.member? members "content")
    guards := ← guardsOf (Json.member? members "conditionals")
    comments := ← commentsOf (Json.member? members "comments") }

/-- A value of an enum. A missing number is zero. -/
def enumElementOf (v : Json) : Except ReadFault EnumElement := do
  let name ← nameOf v
  let members ← membersOf v
  return {
    name
    value := ← integerOf ((Json.member? members "value").getD (.int 0))
    guards := ← guardsOf (Json.member? members "conditionals")
    comments := ← commentsOf (Json.member? members "comments") }

/-- An enum, its values first. -/
def enumOf (v : Json) : Except ReadFault Enum := do
  let members ← membersOf v
  let elements ← (← collection (Json.member? members "elements")).mapM enumElementOf
  return {
    name := ← nameOf v
    elements
    isFlags := switch (Json.member? members "is_flags_enum")
    guards := ← guardsOf (Json.member? members "conditionals")
    comments := ← commentsOf (Json.member? members "comments") }

/-- A typedef, its type first. -/
def typedefOf (v : Json) : Except ReadFault Typedef := do
  let members ← membersOf v
  let type ← typeRefOf (Json.member? members "type")
  return {
    name := ← nameOf v
    type := type.getD {}
    guards := ← guardsOf (Json.member? members "conditionals")
    comments := ← commentsOf (Json.member? members "comments") }

/-- A field of a struct, its type first. -/
def fieldOf (v : Json) : Except ReadFault Field := do
  let members ← membersOf v
  let type ← typeRefOf (Json.member? members "type")
  return {
    name := ← nameOf v
    type := type.getD {}
    isArray := switch (Json.member? members "is_array")
    arrayBounds := Leaf.ofJson? (Json.member? members "array_bounds")
    guards := ← guardsOf (Json.member? members "conditionals")
    comments := ← commentsOf (Json.member? members "comments") }

/-- A struct, its fields first. -/
def structOf (v : Json) : Except ReadFault Struct := do
  let members ← membersOf v
  let fields ← (← collection (Json.member? members "fields")).mapM fieldOf
  return {
    name := ← nameOf v
    fields
    guards := ← guardsOf (Json.member? members "conditionals")
    comments := ← commentsOf (Json.member? members "comments") }

/-- An argument of a function. Its name may be missing. -/
def argumentOf (v : Json) : Except ReadFault Argument := do
  let members ← membersOf v
  return {
    name := nameOrEmpty (Json.member? members "name")
    type := ← typeRefOf (Json.member? members "type")
    isArray := switch (Json.member? members "is_array")
    isVarargs := switch (Json.member? members "is_varargs")
    arrayBounds := Leaf.ofJson? (Json.member? members "array_bounds") }

/-- A function, its arguments first. -/
def functionOf (v : Json) : Except ReadFault Function := do
  let members ← membersOf v
  let arguments ← (← collection (Json.member? members "arguments")).mapM argumentOf
  return {
    name := ← nameOf v
    returnType := ← typeRefOf (Json.member? members "return_type")
    arguments
    guards := ← guardsOf (Json.member? members "conditionals")
    comments := ← commentsOf (Json.member? members "comments") }

/-- The items of one collection. -/
def itemsOf {α : Type} (read : Json → Except ReadFault α) (v : Option Json) :
    Except ReadFault (List α) := do
  (← collection v).mapM read

/-- The five collections of a description. -/
def definitionsOf (members : Members) : Except ReadFault Definitions := do
  return {
    defines := ← itemsOf defineOf (Json.member? members "defines")
    enums := ← itemsOf enumOf (Json.member? members "enums")
    typedefs := ← itemsOf typedefOf (Json.member? members "typedefs")
    structs := ← itemsOf structOf (Json.member? members "structs")
    functions := ← itemsOf functionOf (Json.member? members "functions") }

end NativeBindings.Header
