import NativeBindings.Build.Declarations
import NativeBindings.Finish.Declarations
import NativeBindings.Render.Documents

/-!
# The binding of a header

The binding of a header is made in three parts: its declarations are built, finished as a whole, and
written as documents. What was reported and counted is there even if a part ends with a fault.
-/

namespace NativeBindings

/-- Why no binding is made. -/
inductive BindingFault where
  | misfit (m : Misfit)
  | render (f : Render.RenderFault)
  deriving DecidableEq, Repr

/-- The wording of a fault. -/
def BindingFault.message : BindingFault → String
  | misfit m => m.message
  | render f => f.message

/-- The binding of a header: its documents, or the fault that prevents them. -/
structure Binding where
  notices : List Notice
  stats : Build.Stats
  documents : Except BindingFault (OrderedMap String String)

/-- The documents of built declarations, with what is reported on the way. -/
def documentsOf (o : Options) (aliases : Aliases) (d : CSharp.DeclarationSet) :
    Traced Notice BindingFault (OrderedMap String String) := do
  Traced.report (.announced .finishing)
  let finished ← (Finish.finish o aliases d).mapError .misfit
  Traced.report (.announced .rendering)
  Traced.ofExcept ((Render.documents o finished).mapError .render)

/-- Makes the binding of a header. -/
def bindingOf (o : Options) (d : Header.Definitions) : Binding :=
  let built := Build.declarations d (.start o)
  match built.result with
  | .error m =>
    { notices := built.notices, stats := built.builder.stats, documents := .error (.misfit m) }
  | .ok declarations =>
    let rest := documentsOf o built.builder.aliases declarations
    { notices := built.notices ++ rest.trace
      stats := built.builder.stats
      documents := rest.result }

end NativeBindings
