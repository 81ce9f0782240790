import NativeBindings.Aliases
import NativeBindings.Finish.Bound
import NativeBindings.Notice
import NativeBindings.Traced

/-!
# The layout of structs

Aliases in the types of fields are resolved, and every array field is laid out by its resolved
element type: an unknown type stays an unresolved array, a simple type becomes a fixed buffer, and
for any other type a wrapper struct is made that holds the elements inline.
-/

namespace NativeBindings.Finish

open CSharp

/-- A field as it is laid out, with its wrapper and what there is to report about it. -/
structure LaidOutField where
  field : Field
  wrapper : Option Struct := none
  notice : Option Notice := none

/-- The field with its type resolved, public, and unsafe if it is a pointer. -/
def resolveField (aliases : Aliases) (f : Field) : Field :=
  let type := aliases.resolve f.type
  let noted :=
    if aliases.changes f.type then
      f.annotations.addCommentLines ["Original type: " ++ f.type.display]
    else f.annotations
  let visible := noted.addModifiers ["public"]
  { f with
    type
    annotations := if type.isPointer then visible.addModifiers ["unsafe"] else visible }

/-- The name of the wrapper for an array field. -/
def wrapperName (struct field : Leaf) : String :=
  struct.display ++ "_" ++ field.display ++ "InlineArray"

/-- The wrapper for an array field of a struct. -/
def wrapperOf (scope : BoundScope) (struct : Leaf) (f : Field) : Struct where
  name := wrapperName struct f.name
  fields := [{ name := "Element", type := f.type, annotations := { modifiers := ["public"] } }]
  annotations := {
    modifiers := ["public"]
    attributes := ["InlineArray(" ++ scope.expression f.arrayBound ++ ")"]
    precedingComment := some ["InlineArray of " ++ struct.display ++ "'s field \"" ++
      f.name.display ++ "\" of " ++ f.arrayBound ++ " elements"] }

/-- Lays out an array field whose type is resolved. -/
def layOutArray (scope : BoundScope) (struct : Leaf) (f : Field) : LaidOutField :=
  if f.type.isUnknown then
    { field := { f with arrayBound := scope.expression f.arrayBound }
      notice := some (.arrayUnresolved f.name struct) }
  else if f.type.isSimple then
    { field := { f with
        arrayBound := scope.expression f.arrayBound
        annotations := f.annotations.addModifiers ["unsafe", "fixed"] } }
  else
    { field := { f with
        type := { base := wrapperName struct f.name }, isArray := false, arrayBound := "" }
      wrapper := some (wrapperOf scope struct f)
      notice := some (.arrayWrapped (wrapperName struct f.name) f.name struct) }

/-- Lays out a field of a struct. -/
def layOutField (aliases : Aliases) (scope : BoundScope) (struct : Leaf) (f : Field) :
    LaidOutField :=
  let resolved := resolveField aliases f
  if f.isArray then layOutArray scope struct resolved else { field := resolved }

/-- The delegate that a declaration is. -/
def delegate? : Declaration → Option Delegate
  | .delegate d => some d
  | _ => none

/-- The fields of a struct as they are laid out, in their order. -/
def layOutFields (aliases : Aliases) (scope : BoundScope) (s : Struct) : List LaidOutField :=
  s.fields.map (layOutField aliases scope s.name)

/-- The finished struct. Its delegates move out of it. -/
def struct (aliases : Aliases) (scope : BoundScope) (s : Struct) : Struct :=
  { s with
    fields := (layOutFields aliases scope s).map (·.field)
    inner := s.inner.filter fun d => (delegate? d).isNone
    annotations := s.annotations.addModifiers ["public"] }

/-- The wrappers that the fields of a struct need. -/
def wrappers (aliases : Aliases) (scope : BoundScope) (s : Struct) : List Struct :=
  (layOutFields aliases scope s).filterMap (·.wrapper)

/-- Reports what there is to report about a field, unless the change of its type cannot be noted. -/
def reportField (aliases : Aliases) (scope : BoundScope) (struct : Leaf) (f : Field) :
    Traced Notice Misfit Unit := do
  Traced.ofExcept (aliases.checkChange f.type)
  Traced.reportAll (layOutField aliases scope struct f).notice.toList

/-- Reports what there is to report about a struct, field by field. -/
def reportLayout (aliases : Aliases) (scope : BoundScope) (s : Struct) :
    Traced Notice Misfit Unit :=
  s.fields.forM (reportField aliases scope s.name)

end NativeBindings.Finish
