import NativeBindings.Header.TypeDesc

/-!
# Items of a header description

A description lists what the header defines in five collections: defines, enums, typedefs, structs
and functions, each in the order of the header. Every item may be guarded by preprocessor
conditionals and may have comments.
-/

namespace NativeBindings.Header

/-- One preprocessor guard: `#if`, `#ifdef`, `#ifndef` or the like, with its expression. -/
structure Guard where
  condition : Leaf
  expression : Leaf
  deriving DecidableEq

/-- The comments of an item: the one on its own line, and the lines above it. -/
structure Comments where
  attached : Option String := none
  preceding : Option (List String) := none
  deriving DecidableEq

/-- A type as it is written in the header, and its description. -/
structure TypeRef where
  declaration : Leaf := ""
  description : TypeDesc := .missing

/-- A macro with the text that it is defined as, if there is one. -/
structure Define where
  name : Leaf
  content : Option Leaf := none
  guards : List Guard := []
  comments : Option Comments := none

/-- One value of an enum. -/
structure EnumElement where
  name : Leaf
  value : Int
  guards : List Guard := []
  comments : Option Comments := none

/-- An enum, which may be one of flags. -/
structure Enum where
  name : Leaf
  elements : List EnumElement := []
  isFlags : Bool := false
  guards : List Guard := []
  comments : Option Comments := none

/-- A name for a type. -/
structure Typedef where
  name : Leaf
  type : TypeRef
  guards : List Guard := []
  comments : Option Comments := none

/-- A field of a struct. An array field has a bound of its own or takes that of its type. -/
structure Field where
  name : Leaf
  type : TypeRef
  isArray : Bool := false
  arrayBounds : Option Leaf := none
  guards : List Guard := []
  comments : Option Comments := none

/-- A struct with its fields. -/
structure Struct where
  name : Leaf
  fields : List Field := []
  guards : List Guard := []
  comments : Option Comments := none

/-- An argument of a function. The variadic argument has no type. -/
structure Argument where
  name : Leaf
  type : Option TypeRef := none
  isArray : Bool := false
  isVarargs : Bool := false
  arrayBounds : Option Leaf := none

/-- A function. One without a return type returns nothing. -/
structure Function where
  name : Leaf
  returnType : Option TypeRef := none
  arguments : List Argument := []
  guards : List Guard := []
  comments : Option Comments := none

/-- Everything that a header description defines. -/
structure Definitions where
  defines : List Define := []
  enums : List Enum := []
  typedefs : List Typedef := []
  structs : List Struct := []
  functions : List Function := []

/-! ## In running text -/

/-- The guard as the directive it came from. -/
def Guard.display (g : Guard) : String :=
  "#" ++ g.condition.display ++ " " ++ g.expression.display

/-- The type as it is written in the header, which has to be a text. -/
def TypeRef.display (t : TypeRef) : Except Misfit String := TypeDesc.writtenName t.declaration

/-- The define as the directive it came from. -/
def Define.display (d : Define) : String :=
  let content := (Leaf.ofOption d.content).orElse ""
  Text.stripEnd ("#define " ++ d.name.display ++ " " ++ content.display)

/-- The enum by its name. -/
def Enum.display (e : Enum) : String := "enum " ++ e.name.display

/-- The typedef as it is written in the header. -/
def Typedef.display (t : Typedef) : Except Misfit String :=
  return "typedef " ++ (← t.type.display) ++ " " ++ t.name.display

/-- The struct by its name. -/
def Struct.display (s : Struct) : String := "struct " ++ s.name.display

/-- The names of arguments as they are listed, from an index on; they have to be texts. -/
def listedNames : (index : Nat) → List Argument → Except Misfit (List String)
  | _, [] => return []
  | index, a :: rest =>
    match a.name with
    | .text s => return s :: (← listedNames (index + 1) rest)
    | .other v => .error (.argumentName index v.kind)

/-- The type that a function returns as it is written in the header, or a word for none. -/
def displayReturnType : Option TypeRef → Except Misfit String
  | none => return "None"
  | some t => t.display

/-- The head of the function, its arguments by name. -/
def Function.display (f : Function) : Except Misfit String := do
  let names ← listedNames 0 f.arguments
  return (← displayReturnType f.returnType) ++ " " ++ f.name.display ++
    "(" ++ ", ".intercalate names ++ ")"

/-- How many items of each kind there are. -/
def Definitions.display (d : Definitions) : String :=
  "Definitions(" ++ toString d.defines.length ++ " defines, " ++ toString d.enums.length ++
    " enums, " ++ toString d.typedefs.length ++ " typedefs, " ++ toString d.structs.length ++
    " structs, " ++ toString d.functions.length ++ " functions)"

end NativeBindings.Header
