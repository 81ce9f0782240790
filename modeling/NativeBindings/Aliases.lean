import NativeBindings.CSharp.Type
import NativeBindings.OrderedMap

/-!
# Typedefs as aliases of C# types

A typedef makes its name an alias of another type. The first alias of a name counts. A type is
resolved by following aliases until none applies; pointers met on the way add up. Without cycles a
chain meets every alias at most once, so as many steps as there are aliases are enough.
-/

namespace NativeBindings

/-- The aliases known so far, by name. -/
abbrev Aliases := OrderedMap Key CsType

namespace Aliases

/-- Follows at most `steps` aliases. -/
def follow (aliases : Aliases) : (steps : Nat) → CsType → CsType
  | 0, t => t
  | steps + 1, t =>
    match aliases.get? t.base with
    | none => t
    | some target => follow aliases steps (target.under t.pointers)

/-- The type that remains when no alias applies any more. -/
def resolve (aliases : Aliases) (t : CsType) : CsType :=
  aliases.follow aliases.size t

/-- Whether an alias applies, so that the resolved type is another one. -/
def changes (aliases : Aliases) (t : CsType) : Bool := aliases.resolve t ≠ t

/-- A type that changes is noted as it was, so it has to be one that can be written. -/
def checkChange (aliases : Aliases) (t : CsType) : Except Misfit Unit :=
  if aliases.changes t then t.checkWritable else .ok ()

end Aliases

end NativeBindings
