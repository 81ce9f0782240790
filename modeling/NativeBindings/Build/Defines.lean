import NativeBindings.Build.Builder
import NativeBindings.CSharp.Literal

/-!
# Constants from defines

A define becomes a constant and makes its name known. Since a define may be guarded by other
defines, they are judged by the number of their guards: first those without, then those with one,
and so on, each by its last guard. A define with at most one guard is known as soon as it is
accepted. Of the defines with a greater number of guards, none is known before all with that number
are judged, so that siblings do not see each other.

The constants stand in the order of the header, after those for the symbols known from the start.
-/

namespace NativeBindings.Build

open CSharp

/-- A define that was accepted: its place in the header, the symbol that it makes known, its
replacement text and its constant. -/
structure AcceptedDefine where
  index : Nat
  symbol : Key
  replacement : String
  constant : Constant

/-- The replacement text of a define. -/
def replacementOf (d : Header.Define) : Except Misfit String :=
  match d.content with
  | none => .ok ""
  | some content => if content.isVacant then .ok "" else content.needText

/-- The constant of a define with replacement text `content`, blanks around it cut off. Content
that is no literal and no known symbol counts as true. -/
def constantOf (known : Symbols) (d : Header.Define) (content : String) :
    Traced Notice Misfit Constant := do
  let annotations := annotationsOf d.comments
  if content.isEmpty then
    return { name := d.name, type := { base := "bool" }, value := "true", annotations }
  if known.contains (.text content) then
    return { name := d.name, type := { base := "bool" }, value := content, annotations }
  if isHexLiteral content || isIntegerLiteral content then
    return { name := d.name, type := { base := "long" }, value := content, annotations }
  if isQuotedText content then
    return { name := d.name, type := { base := "string" }, value := content, annotations }
  Traced.report (.defineUnsupported d.name content)
  return { name := d.name, type := { base := "bool" }, value := "true", annotations }

/-- Judges a define, given with its place in the header. -/
def judgeDefine (known : Symbols) (item : Nat × Header.Define) :
    Traced Notice Misfit (Verdict AcceptedDefine) :=
  let (index, d) := item
  judgeGuarded known (d.guards.drop (d.guards.length - 1)) (.defineExcluded d.name) do
    let replacement ← Traced.ofExcept (replacementOf d)
    let constant ← constantOf known d (Text.strip replacement)
    let symbol ← Traced.ofExcept d.name.key
    return .accepted { index, symbol, replacement, constant }

/-- A pass over defines, and the symbols known after it. -/
structure DefinePass where
  known : Symbols
  pass : Pass AcceptedDefine

/-- The symbols that are known once a define is accepted. -/
def learn (known : Symbols) (a : AcceptedDefine) : Symbols :=
  known.insert a.symbol a.replacement

/-- The symbols that are known after a verdict. -/
def learnVerdict (known : Symbols) (v : Verdict AcceptedDefine) : Symbols :=
  match v.built? with
  | some a => learn known a
  | none => known

/-- Judges defines each of which is known to the next ones. -/
def definesInTurn (known : Symbols) : List (Nat × Header.Define) → DefinePass
  | [] => ⟨known, {}⟩
  | item :: rest =>
    let judged := judgeDefine known item
    match judged.result with
    | .error e => ⟨known, { notices := judged.trace, fault := some e }⟩
    | .ok verdict =>
      let later := definesInTurn (learnVerdict known verdict) rest
      ⟨later.known, later.pass.andThen judged.trace verdict⟩

/-- Judges defines that are known only when all of them are judged. -/
def definesAtOnce (known : Symbols) (items : List (Nat × Header.Define)) : DefinePass :=
  let pass := Pass.judgeAll (judgeDefine known) items
  ⟨if pass.fault.isSome then known else pass.built.foldl learn known, pass⟩

/-- Judges defines with the same number of guards. -/
def definesWithGuards (known : Symbols) (guards : Nat) (items : List (Nat × Header.Define)) :
    DefinePass :=
  if guards ≤ 1 then definesInTurn known items else definesAtOnce known items

/-- Judges defines group by group; the groups are given by their numbers of guards. -/
def definesInGroups (known : Symbols) (items : List (Nat × Header.Define)) :
    List Nat → DefinePass
  | [] => ⟨known, {}⟩
  | guards :: more =>
    let first := definesWithGuards known guards
      (items.filter fun item => item.2.guards.length = guards)
    match first.pass.fault with
    | some _ => first
    | none =>
      let later := definesInGroups first.known items more
      ⟨later.known, first.pass.append later.pass⟩

/-- Judges all defines of a header. -/
def passDefines (known : Symbols) (ds : List Header.Define) : DefinePass :=
  let most := (ds.map fun d => d.guards.length).foldl max 0
  definesInGroups known (ds.zipIdx.map fun p => (p.2, p.1)) (List.range (most + 1))

/-- The constants of accepted defines in the order of the header. -/
def inHeaderOrder (count : Nat) (accepted : List AcceptedDefine) : List Constant :=
  (List.range count).filterMap fun i => (accepted.find? (·.index = i)).map (·.constant)

/-- The constants of the symbols that are known. -/
def seededConstants (known : Symbols) : List Constant :=
  known.entries.map fun e =>
    { name := e.1.toLeaf, type := { base := "string" }, value := stringLiteral e.2 }

/-- The constants of the known symbols and of the defines. -/
def constants (ds : List Header.Define) : Building (List Constant) := do
  let seeded := seededConstants (← Building.state).known
  let run := passDefines (← Building.state).known ds
  Building.change fun b => { b with known := run.known }
  let accepted ← Building.ofPass .defines ds.length run.pass
  return seeded ++ inHeaderOrder ds.length accepted

end NativeBindings.Build
