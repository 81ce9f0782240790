import NativeBindings.Header.Reader

/-!
# Loading a header description

A description is loaded from JSON text or from a JSON value. Either it is taken in whole, or the
first thing that is wrong with it is told.
-/

namespace NativeBindings.Header

/-- Why a description is not loaded. -/
inductive LoadError where
  | notJson (e : Json.ParseError)
  | notObject (found : Json.Kind)
  | item (fault : ReadFault)
  deriving DecidableEq, Repr

/-- The wording of a load error. A malformed item is announced as such; a fault of another kind
speaks for itself. -/
def LoadError.message : LoadError → String
  | notJson e => "IR document is not valid JSON: " ++ e.message
  | notObject found => "IR document must be a JSON object, got " ++ found.word
  | item fault =>
    if fault.isMalformedItem then "Malformed IR item: " ++ fault.message else fault.message

/-- The definitions of a JSON value. -/
def ofJson : Json → Except LoadError Definitions
  | .obj members => (definitionsOf members).mapError .item
  | v => .error (.notObject v.kind)

/-- The definitions of a JSON text. -/
def ofText (s : String) : Except LoadError Definitions := do
  ofJson (← (Json.parse s).mapError .notJson)

end NativeBindings.Header
