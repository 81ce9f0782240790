import NativeBindings.CSharp.Builtin
import NativeBindings.CSharp.DocComment
import NativeBindings.Render.Page
import NativeBindings.Traced

/-!
# Declarations as marks

Every declaration is written with its summary and its attributes above it. A field of unknown type
is written as a comment, so that the rest of its struct stays valid. Parts of declarations cannot
be written on their own, and neither can a declaration with a type whose name is no text; what was
written before such a thing was met stays written.
-/

namespace NativeBindings.Render

open CSharp

/-- What cannot be written: a part of a declaration on its own, or a type. -/
inductive Unwritable where
  | enumValue
  | field
  | argument
  | typeAlias
  | misfit (m : Misfit)
  deriving DecidableEq, Repr

/-- What is said about something that cannot be written. -/
def Unwritable.message : Unwritable → String
  | enumValue => ofPart "NamedValue"
  | field => ofPart "Field"
  | argument => ofPart "Argument"
  | typeAlias => ofPart "TypeReassignment"
  | misfit m => m.message
where
  /-- The wording for a part of a declaration. -/
  ofPart (word : String) : String := "Cannot write declaration of type " ++ word

/-- What was written before the writing ended, and how it ended. -/
abbrev Rendered := Traced Mark Unwritable Unit

/-- The text, or the fault that it cannot be written. -/
def text (t : Except Misfit String) : Traced Mark Unwritable String :=
  Traced.ofExcept (t.mapError .misfit)

/-! ## Around a declaration -/

/-- The comments of a declaration as a summary. -/
def summary (a : Annotations) : List Mark :=
  (summaryLines a).map fun line => .line ("/// " ++ line)

/-- The attributes of a declaration, each in its own line. -/
def attributes (a : Annotations) : List Mark :=
  a.attributes.map fun text => .line ("[" ++ text ++ "]")

/-- What stands above a declaration. -/
def preamble (a : Annotations) : List Mark := summary a ++ attributes a

/-- The modifiers of a declaration with the space that separates them from what follows. -/
def modifiers (a : Annotations) : String :=
  if a.modifiers.isEmpty then "" else " ".intercalate a.modifiers ++ " "

/-- Items with an empty line between them. -/
def separated {α : Type} (render : α → Rendered) : List α → Rendered
  | [] => pure ()
  | [x] => render x
  | x :: rest => do
    render x
    Traced.report .blank
    separated render rest

/-- What stands inside braces. Where it ends with a fault, the block stays open. -/
def block (inside : Rendered) : Rendered := do
  Traced.report .openBlock
  inside
  Traced.report .closeBlock

/-- A declaration in one line, with what stands above it. -/
def oneLine (a : Annotations) (line : Except Misfit String) : Rendered := do
  Traced.reportAll (preamble a)
  Traced.report (.line (modifiers a ++ (← text line)))

/-! ## Declarations -/

/-- A constant, which is written without a keyword of its own. -/
def constant (c : Constant) : Rendered :=
  oneLine c.annotations
    (return (← c.type.written) ++ " " ++ c.name.display ++ " = " ++ c.value ++ ";")

/-- A value in the list of its enum. -/
def enumValue (v : EnumValue) : Rendered :=
  oneLine v.annotations (return v.name.display ++ " = " ++ v.value ++ ",")

/-- An enum with a block for its values. -/
def enum (e : Enum) : Rendered := do
  oneLine e.annotations (return "enum " ++ e.name.display)
  block (separated enumValue e.values)

/-- A field in its own line. -/
def fieldLine (f : Field) : Except Misfit String := do
  let line := modifiers f.annotations ++ (← f.type.written) ++ " " ++ f.name.display ++
    (if f.isArray then "[" ++ f.arrayBound ++ "]" else "") ++ ";"
  return if f.type.isUnknown then "// unresolved: " ++ line else line

/-- A field of a struct. Its preamble is written before its type is looked at. -/
def field (f : Field) : Rendered := do
  Traced.reportAll (preamble f.annotations)
  Traced.report (.line (← text (fieldLine f)))

/-- A signature: the type of the result, the name, and the arguments. -/
def signature (returnType : CsType) (name : Leaf) (arguments : List Argument) :
    Except Misfit String := do
  let returnType ← returnType.written
  return returnType ++ " " ++ name.display ++ "(" ++ (← displayArguments arguments) ++ ");"

/-- A delegate: its modifiers, the keyword and its signature. -/
def delegate (d : Delegate) : Rendered :=
  oneLine d.annotations (return "delegate " ++ (← signature d.returnType d.name d.arguments))

/-- A function, which is imported and so has no body. -/
def function (f : Function) : Rendered :=
  oneLine f.annotations (signature f.returnType f.name f.arguments)

mutual

/-- A struct with its inner declarations and its fields. -/
def struct : Struct → Rendered
  | ⟨name, fields, inner, annotations⟩ => do
    oneLine annotations (return "struct " ++ name.display)
    block do
      declarations inner
      if !inner.isEmpty && !fields.isEmpty then Traced.report .blank
      separated field fields

/-- Any declaration that can be written. -/
def declaration : Declaration → Rendered
  | .constant c => constant c
  | .enum e => enum e
  | .struct s => struct s
  | .delegate d => delegate d
  | .function f => function f
  | .enumValue _ => .fail .enumValue
  | .field _ => .fail .field
  | .argument _ => .fail .argument
  | .typeAlias _ => .fail .typeAlias

/-- Declarations with an empty line between them. -/
def declarations : List Declaration → Rendered
  | [] => pure ()
  | [d] => declaration d
  | d :: rest => do
    declaration d
    Traced.report .blank
    declarations rest

end

end NativeBindings.Render
