import NativeBindings.Build.Delegates

/-!
# Aliases and delegates from typedefs

A typedef of a function pointer becomes a delegate, one of any other convertible type an alias. A
typedef that gives a type its own name changes nothing. Aliases are known to what is built later.
-/

namespace NativeBindings.Build

open Header (TypeDesc)
open CSharp

/-- What a typedef becomes. -/
inductive TypedefResult where
  | delegate (d : Delegate)
  | typeAlias (a : Alias)
  /-- The typedef gives a type the name that it has. -/
  | identity

/-- The type that a typedef makes its name stand for, or none with a notice. -/
def aliasTarget (native : NativeTypes) (name : Leaf) :
    TypeDesc → Traced Notice Misfit (Option CsType)
  | .builtin builtin => do
    match nativeName? native (← Traced.ofExcept builtin.key) with
    | some n => pure (some { base := n })
    | none => refuse (.typedefFailed name (.unknownBuiltin builtin))
  | .named _ _ => refuse (.typedefOfWrapper name)
  | .array _ _ => refuse (.typedefOfShape name "Array")
  | .function _ _ => refuse (.typedefOfShape name "Function")
  | .unsupported _ => refuse (.typedefOfShape name "Unsupported")
  | t => do
    match ← convert native t with
    | .ok target => return some target
    | .error cause => refuse (.typedefFailed name (.unconvertible cause))
where
  /-- No type, with a notice. -/
  refuse (n : Notice) : Traced Notice Misfit (Option CsType) := do
    Traced.report n
    return none

/-- Builds what a typedef becomes unless it is excluded, or drops it. A delegate is called after the
function pointer's own name if there is one. -/
def judgeTypedef (known : Symbols) (native : NativeTypes) (o : Options) (t : Header.Typedef) :
    Traced Notice Misfit (Verdict TypedefResult) :=
  judgeGuarded known t.guards (.typedefExcluded t.name) do
    let comments := annotationsOf t.comments
    match t.type.description.functionPointer? with
    | some (wrapper, signature) =>
      let d ← delegateOf native o (wrapper.orElse t.name) signature
      return .accepted (.delegate { d with
        annotations := { d.annotations with
          precedingComment := comments.precedingComment
          trailingComment := comments.trailingComment } })
    | none =>
      match ← aliasTarget native t.name t.type.description with
      | none => return .dropped
      | some target =>
        let name ← Traced.ofExcept t.name.key
        if target.base == name && !target.isPointer then return .accepted .identity
        else return .accepted (.typeAlias { name, target, annotations := comments })

/-- The aliases among what typedefs became. -/
def aliasesOf (rs : List TypedefResult) : List Alias :=
  rs.filterMap fun
    | .typeAlias a => some a
    | .delegate _ | .identity => none

/-- The delegates among what typedefs became. -/
def delegatesOf (rs : List TypedefResult) : List Delegate :=
  rs.filterMap fun
    | .delegate d => some d
    | .typeAlias _ | .identity => none

/-- The aliases with further ones; a name that has an alias keeps it. -/
def register (aliases : Aliases) (as : List Alias) : Aliases :=
  as.foldl (fun table a => table.insertIfNew a.name a.target) aliases

/-- The aliases and the delegates of the typedefs of a header. -/
def typedefs (ts : List Header.Typedef) : Building (List Alias × List Delegate) := do
  let b ← Building.state
  let pass := Pass.judgeAll (judgeTypedef b.known b.native b.options) ts
  Building.change fun b => { b with aliases := register b.aliases (aliasesOf pass.built) }
  let results ← Building.ofPass .typedefs ts.length pass
  return (aliasesOf results, delegatesOf results)

end NativeBindings.Build
