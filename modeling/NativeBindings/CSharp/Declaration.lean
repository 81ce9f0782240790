import NativeBindings.CSharp.Type

/-!
# C# declarations

What a binding consists of: constants, enums, structs, delegates and functions, and the parts they
are made of. Every declaration carries the same annotations: modifiers, attributes and comments.
Annotations only ever grow; a modifier or an attribute that is there already is not added again.
-/

namespace NativeBindings.CSharp

/-- What stands around a declaration. -/
structure Annotations where
  modifiers : List String := []
  attributes : List String := []
  precedingComment : Option (List String) := none
  trailingComment : Option String := none
  deriving DecidableEq, Inhabited

/-- Adds what is not there yet, in order. -/
def addNew (present new : List String) : List String :=
  new.foldl (fun all x => if x ∈ all then all else all ++ [x]) present

namespace Annotations

/-- Adds modifiers that are not there yet. -/
def addModifiers (a : Annotations) (modifiers : List String) : Annotations :=
  { a with modifiers := addNew a.modifiers modifiers }

/-- Adds attributes that are not there yet. -/
def addAttributes (a : Annotations) (attributes : List String) : Annotations :=
  { a with attributes := addNew a.attributes attributes }

/-- Adds lines to the preceding comment, which is there afterwards even if it is empty. -/
def addCommentLines (a : Annotations) (lines : List String) : Annotations :=
  { a with precedingComment := some (a.precedingComment.getD [] ++ lines) }

end Annotations

/-- A constant with the text of its value. -/
structure Constant where
  name : Leaf
  type : CsType
  value : String
  annotations : Annotations := {}
  deriving DecidableEq

/-- One value of an enum. -/
structure EnumValue where
  name : Leaf
  value : String
  annotations : Annotations := {}
  deriving DecidableEq

/-- An enum with its values. -/
structure Enum where
  name : Leaf
  isFlags : Bool := false
  values : List EnumValue := []
  annotations : Annotations := {}
  deriving DecidableEq

/-- A field of a struct. The bound matters only for an array. -/
structure Field where
  name : Leaf
  type : CsType
  isArray : Bool := false
  arrayBound : String := ""
  annotations : Annotations := {}
  deriving DecidableEq

/-- An argument of a function or a delegate. The bound matters only for an array. -/
structure Argument where
  name : Leaf
  type : CsType
  isArray : Bool := false
  arrayBound : Leaf := ""
  annotations : Annotations := {}
  deriving DecidableEq

/-- A delegate: the type of a callback. -/
structure Delegate where
  name : Leaf
  returnType : CsType
  arguments : List Argument := []
  annotations : Annotations := {}
  deriving DecidableEq

/-- An imported function. -/
structure Function where
  name : Leaf
  returnType : CsType
  arguments : List Argument := []
  annotations : Annotations := {}
  deriving DecidableEq

/-- A name that stands for another type. It is resolved away and never written. -/
structure Alias where
  name : Key
  target : CsType
  annotations : Annotations := {}
  deriving DecidableEq

mutual

/-- A struct with its fields and the declarations inside it. -/
structure Struct where
  name : Leaf
  fields : List Field := []
  inner : List Declaration := []
  annotations : Annotations := {}

/-- Any declaration, or a part of one. -/
inductive Declaration where
  | constant (c : Constant)
  | enumValue (v : EnumValue)
  | enum (e : Enum)
  | field (f : Field)
  | argument (a : Argument)
  | delegate (d : Delegate)
  | function (f : Function)
  | struct (s : Struct)
  | typeAlias (a : Alias)

end

/-- The declarations of a binding, each collection in the order of the header. The delegates of
typedefs are kept apart until the declarations are finished, and only finishing adds wrappers for
arrays. -/
structure DeclarationSet where
  constants : List Constant := []
  enumConstants : List Constant := []
  enums : List Enum := []
  aliases : List Alias := []
  typedefDelegates : List Delegate := []
  structs : List Struct := []
  delegates : List Delegate := []
  functions : List Function := []
  inlineArrays : List Struct := []

/-! ## Annotations of any declaration -/

namespace Declaration

/-- The annotations of a declaration, whatever it is. -/
def annotations : Declaration → Annotations
  | constant c => c.annotations
  | enumValue v => v.annotations
  | enum e => e.annotations
  | field f => f.annotations
  | argument a => a.annotations
  | delegate d => d.annotations
  | function f => f.annotations
  | struct s => s.annotations
  | typeAlias a => a.annotations

/-- The declaration with other annotations, and everything else as it is. -/
def withAnnotations (d : Declaration) (n : Annotations) : Declaration :=
  match d with
  | constant c => constant { c with annotations := n }
  | enumValue v => enumValue { v with annotations := n }
  | enum e => enum { e with annotations := n }
  | field f => field { f with annotations := n }
  | argument a => argument { a with annotations := n }
  | delegate d => delegate { d with annotations := n }
  | function f => function { f with annotations := n }
  | struct s => struct { s with annotations := n }
  | typeAlias a => typeAlias { a with annotations := n }

/-- The declaration with modifiers added. -/
def addModifiers (d : Declaration) (modifiers : List String) : Declaration :=
  d.withAnnotations (d.annotations.addModifiers modifiers)

/-- The declaration with attributes added. -/
def addAttributes (d : Declaration) (attributes : List String) : Declaration :=
  d.withAnnotations (d.annotations.addAttributes attributes)

/-- The declaration with lines added to its preceding comment. -/
def addCommentLines (d : Declaration) (lines : List String) : Declaration :=
  d.withAnnotations (d.annotations.addCommentLines lines)

end Declaration

/-! ## In running text -/

/-- The type and the name of the argument. -/
def Argument.display (a : Argument) : Except Misfit String :=
  return (← a.type.written) ++ " " ++ a.name.display

/-- An argument list, without its parentheses. -/
def displayArguments (as : List Argument) : Except Misfit String :=
  return ", ".intercalate (← as.mapM Argument.display)

/-- The declaration in short. The arguments are looked at before the type of the result. -/
def Declaration.display : Declaration → Except Misfit String
  | constant c => return (← c.type.written) ++ " " ++ c.name.display ++ " = " ++ c.value
  | enumValue v => return v.name.display ++ " = " ++ v.value
  | enum e => return "enum " ++ e.name.display
  | field f =>
    return (← f.type.written) ++ " " ++ f.name.display ++
      (if f.isArray then "[" ++ f.arrayBound ++ "]" else "")
  | argument a => a.display
  | delegate d => do
    let arguments ← displayArguments d.arguments
    return "delegate " ++ (← d.returnType.written) ++ " " ++ d.name.display ++
      "(" ++ arguments ++ ")"
  | function f => do
    let arguments ← displayArguments f.arguments
    return (← f.returnType.written) ++ " " ++ f.name.display ++ "(" ++ arguments ++ ")"
  | struct s => return "struct " ++ s.name.display
  | typeAlias a => return a.name.display ++ " = " ++ (← a.target.written)

/-- The type that a declaration is about: that of its value, its result or its target. -/
def Declaration.type? : Declaration → Option CsType
  | constant c => some c.type
  | field f => some f.type
  | argument a => some a.type
  | delegate d => some d.returnType
  | function f => some f.returnType
  | typeAlias a => some a.target
  | enumValue _ | enum _ | struct _ => none

end NativeBindings.CSharp
