import NativeBindings.Header.Guard
import NativeBindings.Notice
import NativeBindings.Traced

/-!
# Verdicts on items

Every item of a header is judged: accepted with what was built from it, excluded because its guards
do not hold, or dropped because it cannot be expressed. A pass judges the items of a collection one
after the other. A fault ends the pass, but the verdicts before it stand.
-/

namespace NativeBindings.Build

/-- What becomes of an item. -/
inductive Verdict (α : Type) where
  | accepted (built : α)
  | excluded
  | dropped

/-- What was built from an item, if it was accepted. -/
def Verdict.built? {α : Type} : Verdict α → Option α
  | accepted built => some built
  | excluded | dropped => none

/-- The verdicts of a pass, its notices, and the fault that ended it, if one did. -/
structure Pass (α : Type) where
  notices : List Notice := []
  verdicts : List (Verdict α) := []
  fault : Option Misfit := none

namespace Pass

variable {ι α : Type}

/-- The pass that begins with a verdict and goes on. -/
def andThen (notices : List Notice) (verdict : Verdict α) (rest : Pass α) : Pass α :=
  ⟨notices ++ rest.notices, verdict :: rest.verdicts, rest.fault⟩

/-- Judges items that do not depend on one another. -/
def judgeAll (judge : ι → Traced Notice Misfit (Verdict α)) : List ι → Pass α
  | [] => {}
  | i :: rest =>
    match (judge i).result with
    | .error e => { notices := (judge i).trace, fault := some e }
    | .ok verdict => andThen (judge i).trace verdict (judgeAll judge rest)

/-- One pass after the other, unless the first one ended with a fault. -/
def append (p q : Pass α) : Pass α :=
  match p.fault with
  | some _ => p
  | none => ⟨p.notices ++ q.notices, p.verdicts ++ q.verdicts, q.fault⟩

/-- What was built from the accepted items, in order. -/
def built (p : Pass α) : List α := p.verdicts.filterMap Verdict.built?

/-- What the pass built, unless it ended with a fault. -/
def result (p : Pass α) : Except Misfit (List α) :=
  match p.fault with
  | some e => .error e
  | none => .ok p.built

end Pass

/-- Judges an item by its guards first. -/
def judgeGuarded {α : Type} (known : Symbols) (guards : List Header.Guard) (exclusion : Notice)
    (judge : Traced Notice Misfit (Verdict α)) : Traced Notice Misfit (Verdict α) := do
  if ← Traced.ofExcept (Header.included known guards) then judge
  else
    Traced.report exclusion
    return .excluded

end NativeBindings.Build
