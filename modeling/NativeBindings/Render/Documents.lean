import NativeBindings.Options
import NativeBindings.Render.Declaration

/-!
# The documents of a binding

There are six documents: constants, enums, structs, delegates, wrappers for arrays, and functions.
Each begins with what it uses and its namespace. Constants and functions share a class.
-/

namespace NativeBindings.Render

open CSharp

/-- The documents of a binding. -/
inductive Document where
  | constants
  | enums
  | structs
  | delegates
  | inlineArrays
  | functions
  deriving DecidableEq, Repr

namespace Document

/-- All documents, in the order in which they are written. -/
def all : List Document := [constants, enums, structs, delegates, inlineArrays, functions]

/-- The word for a document in its file name. -/
def word : Document → String
  | constants => "Constants"
  | enums => "Enums"
  | structs => "Structs"
  | delegates => "Delegates"
  | inlineArrays => "InlineArrays"
  | functions => "Functions"

end Document

/-- Why the documents are not written. -/
inductive RenderFault where
  | unwritable (u : Unwritable)
  | unbalanced (u : Unbalanced)
  deriving DecidableEq, Repr

/-- What is said about the fault. -/
def RenderFault.message : RenderFault → String
  | unwritable u => u.message
  | unbalanced u => u.message

/-- The head of a document. -/
def header (o : Options) (usings : List String) : List Mark :=
  usings.map .line ++ (if usings.isEmpty then [] else [.blank]) ++
    [.line ("namespace " ++ o.namespaceName ++ ";"), .blank]

/-- What stands in the class that constants and functions share. -/
def inNativeClass (o : Options) (inside : Rendered) : Rendered := do
  Traced.report (.line ("public static partial class " ++ o.nativeClass))
  block inside

/-- Makes the constants visible without their class. -/
def constantsUsing (o : Options) : String :=
  "using static " ++ o.namespaceName ++ "." ++ o.nativeClass ++ ";"

/-- Makes the attributes of imports and delegates visible. -/
def interopUsing : String := "using System.Runtime.InteropServices;"

/-- Makes the attribute of wrappers visible. -/
def compilerServicesUsing : String := "using System.Runtime.CompilerServices;"

/-- What a document uses. -/
def usings (o : Options) (d : DeclarationSet) : Document → List String
  | .constants => []
  | .enums =>
    if d.enums.any fun e => !e.annotations.attributes.isEmpty then ["using System;"] else []
  | .structs => [constantsUsing o]
  | .delegates => [interopUsing]
  | .inlineArrays => [compilerServicesUsing, constantsUsing o]
  | .functions => [interopUsing]

/-- What a document holds. -/
def body (o : Options) (d : DeclarationSet) : Document → Rendered
  | .constants => inNativeClass o (separated constant (d.constants ++ d.enumConstants))
  | .enums => separated enum d.enums
  | .structs => separated struct d.structs
  | .delegates => separated delegate d.delegates
  | .inlineArrays => separated struct d.inlineArrays
  | .functions => inNativeClass o (separated function d.functions)

/-- A document from its head on. -/
def document (o : Options) (d : DeclarationSet) (which : Document) : Rendered := do
  Traced.reportAll (header o (usings o d which))
  body o d which

/-- Writes documents, one after the other. The page that was reached is there in any case. -/
def Page.writeDocuments (p : Page) (o : Options) (d : DeclarationSet) :
    List Document → Page × Except RenderFault Unit
  | [] => (p, .ok ())
  | which :: rest =>
    let rendered := document o d which
    let p := p.apply rendered.trace
    match rendered.result with
    | .error u => (p, .error (.unwritable u))
    | .ok () =>
      match p.complete (o.documentName which.word) with
      | .error u => (p, .error (.unbalanced u))
      | .ok p => p.writeDocuments o d rest

/-- The documents of a set of declarations, by name. -/
def documents (o : Options) (d : DeclarationSet) :
    Except RenderFault (OrderedMap String String) :=
  let (page, result) := Page.writeDocuments {} o d Document.all
  result.map fun () => page.documents

end NativeBindings.Render
