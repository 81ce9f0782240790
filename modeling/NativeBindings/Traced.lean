/-!
# Steps that leave a trace

Much of the work here reports things on the way: a conversion gives notices, a rendering gives
lines. A traced step is what was reported, in order, together with a result or the fault that ended
the step. What was reported before a fault is kept.
-/

namespace NativeBindings

universe u

/-- What a step reported, in order, and how it ended. -/
structure Traced (ω ε α : Type u) where
  trace : List ω
  result : Except ε α

namespace Traced

variable {ω ε ε' α β : Type u}

/-- The second step follows the first, unless the first ended with a fault. -/
def bind (x : Traced ω ε α) (f : α → Traced ω ε β) : Traced ω ε β :=
  match x.result with
  | .error e => ⟨x.trace, .error e⟩
  | .ok a =>
    let second := f a
    ⟨x.trace ++ second.trace, second.result⟩

instance : Monad (Traced ω ε) where
  pure a := ⟨[], .ok a⟩
  bind := bind

/-- Reports one thing. -/
def report (w : ω) : Traced ω ε PUnit := ⟨[w], .ok ⟨⟩⟩

/-- Reports several things, in their order. -/
def reportAll (ws : List ω) : Traced ω ε PUnit := ⟨ws, .ok ⟨⟩⟩

/-- Ends with a fault. -/
def fail (e : ε) : Traced ω ε α := ⟨[], .error e⟩

/-- A result or a fault without a trace. -/
def ofExcept (r : Except ε α) : Traced ω ε α := ⟨[], r⟩

/-- The step with its fault seen as one of another kind. -/
def mapError (f : ε → ε') (x : Traced ω ε α) : Traced ω ε' α := ⟨x.trace, x.result.mapError f⟩

end Traced

end NativeBindings
