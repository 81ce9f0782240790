import NativeBindings.Build.Defines
import NativeBindings.Build.Enums
import NativeBindings.Build.Functions
import NativeBindings.Build.Structs
import NativeBindings.Build.Typedefs

/-!
# Declarations from a header

The collections of a header are built in the order in which they depend on one another: defines
make the symbols known that guards ask for, and typedefs make the aliases.
-/

namespace NativeBindings.Build

open CSharp

/-- Builds the declarations of a header. -/
def declarations (d : Header.Definitions) : Building DeclarationSet := do
  Building.report (.announced .defines)
  let constants ← constants d.defines
  Building.report (.announced .enumConstants)
  let enumConstants ← enumConstants d.enums
  Building.report (.announced .enums)
  let enums ← enums d.enums
  Building.report (.announced .typedefs)
  let (aliases, typedefDelegates) ← typedefs d.typedefs
  Building.report (.announced .structs)
  let structs ← structs d.structs
  Building.report (.announced .functions)
  let (functions, delegates) ← functions d.functions
  return {
    constants, enumConstants, enums, aliases, typedefDelegates, structs, delegates, functions }

end NativeBindings.Build
