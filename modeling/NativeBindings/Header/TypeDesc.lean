import NativeBindings.Leaf
import NativeBindings.Misfit
import NativeBindings.Text.Blank

/-!
# Descriptions of C types

A header description gives every type as a tree: builtin and user type names under pointers, arrays,
functions and named wrappers. A wrapper around a pointer to a function is how a function pointer is
written; in parameter lists the same wrapper carries the parameter's name. A shape whose tag is not
known is kept with that tag.
-/

namespace NativeBindings.Header

/-- The description of a C type. -/
inductive TypeDesc where
  | builtin (name : Leaf)
  | user (name : Leaf)
  | pointer (inner : TypeDesc)
  /-- An array; the bound is missing where the description gives none. -/
  | array (element : TypeDesc) (bound : Option String)
  | function (returnType : TypeDesc) (parameters : List TypeDesc)
  | named (name : Option Leaf) (inner : TypeDesc)
  | unsupported (kind : Leaf)

instance : Inhabited TypeDesc := ⟨.unsupported "missing"⟩

/-- A function type taken apart. -/
structure Signature where
  returnType : TypeDesc
  parameters : List TypeDesc

namespace TypeDesc

/-- The function type with a signature. -/
def ofSignature (s : Signature) : TypeDesc := function s.returnType s.parameters

/-- The shape stands for no type at all, as a missing description does. -/
def missing : TypeDesc := unsupported "missing"

/-- A function pointer is a named wrapper around a pointer to a function. The name is empty where
the wrapper has none. -/
def functionPointer? : TypeDesc → Option (Leaf × Signature)
  | named name (pointer (function returnType parameters)) =>
    some ((Leaf.ofOption name).orElse "", ⟨returnType, parameters⟩)
  | _ => none

/-- Folds a description from the outside: function pointers are recognised first, pointers are
followed, and arrays are handed over with their element as it is. Every other shape is a leaf. -/
def walk {α : Type} (leaf : TypeDesc → α) (functionPointer : Leaf → Signature → α)
    (pointerTo : α → α) (arrayOf : TypeDesc → Option String → α) : TypeDesc → α
  | pointer inner => pointerTo (walk leaf functionPointer pointerTo arrayOf inner)
  | array element bound => arrayOf element bound
  | t =>
    match t.functionPointer? with
    | some (name, signature) => functionPointer name signature
    | none => leaf t

/-- The name of a type as it is written; it has to be a text. -/
def writtenName : Leaf → Except Misfit String
  | .text s => .ok s
  | .other v => .error (.typeName v.kind)

mutual

/-- The type in running text. All names in it have to be texts; the parameters of a function are
looked at before what it returns. -/
def display : TypeDesc → Except Misfit String
  | builtin name => writtenName name
  | user name => writtenName name
  | pointer inner => return (← display inner) ++ "*"
  | array element bound => return (← display element) ++ "[" ++ bound.getD "" ++ "]"
  | function returnType parameters => do
    let parameters ← displayAll parameters
    return (← display returnType) ++ " (*)(" ++ ", ".intercalate parameters ++ ")"
  | named name inner =>
    return Text.stripEnd ((← display inner) ++ " " ++ ((Leaf.ofOption name).orElse "").display)
  | unsupported kind => return "<" ++ kind.display ++ ">"

/-- Several types in running text. -/
def displayAll : List TypeDesc → Except Misfit (List String)
  | [] => return []
  | t :: ts => return (← display t) :: (← displayAll ts)

end

end TypeDesc

end NativeBindings.Header
