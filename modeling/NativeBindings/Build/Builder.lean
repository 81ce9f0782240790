import NativeBindings.Aliases
import NativeBindings.Build.Stats
import NativeBindings.CSharp.Declaration
import NativeBindings.Options

/-!
# The state of building

Building goes through a header collection by collection. What an earlier collection leaves for
later ones is the symbols that are known and the aliases that typedefs make; besides, verdicts are
counted. A step that ends with a fault leaves behind the state it had reached.
-/

namespace NativeBindings.Build

open CSharp

/-- What building knows: its settings, the native types, the known symbols, the aliases so far and
the counts so far. -/
structure Builder where
  options : Options
  native : NativeTypes
  known : Symbols
  aliases : Aliases
  stats : Stats

/-- The state before anything was built. -/
def Builder.start (options : Options) : Builder :=
  { options, native := nativeTypes, known := options.knownDefines, aliases := ∅, stats := ∅ }

/-- How a step ended: the state it left, what it reported, and its result or fault. -/
structure Outcome (α : Type) where
  builder : Builder
  notices : List Notice
  result : Except Misfit α

/-- A step of building. -/
def Building (α : Type) := Builder → Outcome α

namespace Building

variable {α β : Type}

/-- The second step follows the first, unless the first ended with a fault. -/
def bind (x : Building α) (f : α → Building β) : Building β := fun b =>
  let first := x b
  match first.result with
  | .error e => ⟨first.builder, first.notices, .error e⟩
  | .ok a =>
    let second := f a first.builder
    ⟨second.builder, first.notices ++ second.notices, second.result⟩

instance : Monad Building where
  pure a := fun b => ⟨b, [], .ok a⟩
  bind := bind

/-- The builder as it is. -/
def state : Building Builder := fun b => ⟨b, [], .ok b⟩

/-- Changes the builder. -/
def change (f : Builder → Builder) : Building Unit := fun b => ⟨f b, [], .ok ()⟩

/-- Reports one thing. -/
def report (n : Notice) : Building Unit := fun b => ⟨b, [n], .ok ()⟩

/-- A result or a fault. -/
def ofExcept (r : Except Misfit α) : Building α := fun b => ⟨b, [], r⟩

/-- Takes over a pass over `total` items of a kind, and counts its verdicts. -/
def ofPass (category : Category) (total : Nat) (p : Pass α) : Building (List α) := fun b =>
  ⟨{ b with stats := b.stats.add category total p.verdicts }, p.notices, p.result⟩

end Building

/-- The annotations that comments make. -/
def annotationsOf : Option Header.Comments → Annotations
  | none => {}
  | some c => { precedingComment := c.preceding, trailingComment := c.attached }

end NativeBindings.Build
