import NativeBindings.Aliases
import NativeBindings.CSharp.Declaration
import NativeBindings.Options

/-!
# Finished delegates and functions

Delegates and functions get their final modifiers and their attribute, and aliases in their types
are resolved. Every type that changes is noted in the documentation with what it was. What has a
pointer in its resolved signature is unsafe.
-/

namespace NativeBindings.Finish

open CSharp

/-- The argument with its type resolved. -/
def resolveArgument (aliases : Aliases) (a : Argument) : Argument :=
  { a with type := aliases.resolve a.type }

/-- The note for a return type that changes. -/
def returnNote (aliases : Aliases) (t : CsType) : List String :=
  if aliases.changes t then ["ReturnType original type: " ++ t.display] else []

/-- The note for an argument whose type changes. -/
def argumentNote (aliases : Aliases) (a : Argument) : List String :=
  if aliases.changes a.type then
    ["Param " ++ a.name.display ++ " original type: " ++ a.type.display]
  else []

/-- The notes for a signature, that of the return type first. -/
def signatureNotes (aliases : Aliases) (returnType : CsType) (arguments : List Argument) :
    List String :=
  returnNote aliases returnType ++ arguments.flatMap (argumentNote aliases)

/-- The types of a signature that change have to be ones that can be noted. -/
def checkSignature (aliases : Aliases) (returnType : CsType) (arguments : List Argument) :
    Except Misfit Unit := do
  aliases.checkChange returnType
  arguments.forM fun a => aliases.checkChange a.type

/-- Whether a pointer occurs in a resolved signature. -/
def hasPointer (aliases : Aliases) (returnType : CsType) (arguments : List Argument) : Bool :=
  (aliases.resolve returnType).isPointer ||
    arguments.any fun a => (aliases.resolve a.type).isPointer

/-- The annotations of a declaration once its signature is resolved. -/
def signatureAnnotations (aliases : Aliases) (returnType : CsType) (arguments : List Argument)
    (a : Annotations) : Annotations :=
  let notes := signatureNotes aliases returnType arguments
  let noted := if notes.isEmpty then a else a.addCommentLines notes
  if hasPointer aliases returnType arguments then noted.addModifiers ["unsafe"] else noted

/-- The finished delegate. -/
def delegate (o : Options) (aliases : Aliases) (d : Delegate) : Delegate :=
  let annotations := (d.annotations.addModifiers ["public"]).addAttributes [o.delegateAttribute]
  { d with
    returnType := aliases.resolve d.returnType
    arguments := d.arguments.map (resolveArgument aliases)
    annotations := signatureAnnotations aliases d.returnType d.arguments annotations }

/-- The modifiers that every function has, in this order. -/
def functionModifiers : List String := ["public", "static", "extern"]

/-- The finished function. Its other modifiers come after those that every function has. -/
def function (o : Options) (aliases : Aliases) (f : Function) : Function :=
  let further := f.annotations.modifiers.filter fun m => !functionModifiers.contains m
  let annotations := { f.annotations with modifiers := functionModifiers ++ further }
  { f with
    returnType := aliases.resolve f.returnType
    arguments := f.arguments.map (resolveArgument aliases)
    annotations := signatureAnnotations aliases f.returnType f.arguments
      (annotations.addAttributes [o.importAttribute]) }

end NativeBindings.Finish
