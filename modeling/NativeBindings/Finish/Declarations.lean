import NativeBindings.Finish.Layout
import NativeBindings.Finish.Signature

/-!
# Finished declarations

What was built item by item is finished as a whole: all delegates come together in one list,
aliases are resolved, arrays are laid out, and everything gets its final modifiers. No item is lost
or added, apart from the wrappers that array fields need.
-/

namespace NativeBindings.Finish

open CSharp

/-- The finished constant. -/
def constant (c : Constant) : Constant :=
  { c with annotations := c.annotations.addModifiers ["public", "const"] }

/-- The finished enum. Its values stay as they are. -/
def enum (e : Enum) : Enum :=
  { e with annotations := e.annotations.addModifiers ["public"] }

/-- The delegates of a set of declarations: those of functions, those of typedefs, and those inside
structs. -/
def allDelegates (d : DeclarationSet) : List Delegate :=
  d.delegates ++ d.typedefDelegates ++ d.structs.flatMap fun s => s.inner.filterMap delegate?

/-- The finished declarations. The delegates of typedefs stand among all others now. -/
def declarations (o : Options) (aliases : Aliases) (d : DeclarationSet) : DeclarationSet :=
  let scope := BoundScope.of d
  { constants := d.constants.map constant
    enumConstants := d.enumConstants.map constant
    enums := d.enums.map enum
    aliases := d.aliases
    typedefDelegates := []
    structs := d.structs.map (struct aliases scope)
    delegates := (allDelegates d).map (delegate o aliases)
    functions := d.functions.map (function o aliases)
    inlineArrays := d.structs.flatMap (wrappers aliases scope) }

/-- Finishes a set of declarations and reports on the way. It ends with a fault where a constant
cannot be looked up or a change of a type cannot be noted. -/
def finish (o : Options) (aliases : Aliases) (d : DeclarationSet) :
    Traced Notice Misfit DeclarationSet := do
  Traced.ofExcept (checkConstants d)
  d.structs.forM (reportLayout aliases (BoundScope.of d))
  Traced.ofExcept do
    (allDelegates d).forM fun d => checkSignature aliases d.returnType d.arguments
    d.functions.forM fun f => checkSignature aliases f.returnType f.arguments
  return declarations o aliases d

end NativeBindings.Finish
